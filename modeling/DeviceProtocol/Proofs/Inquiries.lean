import DeviceProtocol.Proofs.AlikeProtocols
set_option autoImplicit false

namespace DeviceProtocol

inductive Inquiry where
  /-- The binding of a name, which does not count as used for that. -/
  | find (name : Text)
  /-- The binding of a name, which counts as used from now on. -/
  | consult (name : Text)
  | number (name : Text) (limit : Int)
  | choice (name : Text) (choices : List Text)
  | string (name : Text)
  | handler (name : Text) (fields : FieldTable)
  | commands (fields : FieldTable)
  | tokens (ts : List Token) (mode : Mode) (fields : Option FieldTable)

inductive Reply where
  | binding (b : Option Binding)
  | number (n : Option Nat)
  | string (is : Option (List Instruction))
  | program (program : Option Program)
  | instructions (is : List Instruction)
  deriving DecidableEq

namespace Reply

/-- The answer but for the mark of a binding. -/
def unmarked : Reply → Reply
  | binding b => binding (b.map fun b => { b with used := false })
  | reply => reply

end Reply

namespace Protocol

def reply (k : Compiler) (p : Protocol) : Inquiry → Traced Reply
  | .find name => return .binding (p.lookup name)
  | .consult name => do return .binding ((← p.consult name).map fun b => { b with used := true })
  | .number name limit => do return .number (← p.numberVariable name limit)
  | .choice name choices => do return .number (← p.choiceVariable name choices)
  | .string name => do return .string (← k.stringVariable p name)
  | .handler name fields => do return .program (← { k with fields := some fields }.handlerProgram p name)
  | .commands fields => do return .program (← { k with fields := some fields }.ownProgram p)
  | .tokens ts mode fields => do return .instructions (← { k with fields := fields }.compileString p mode ts)

/-- Answers an inquiry and marks what it consulted, also if it fails. -/
def ask (k : Compiler) (p : Protocol) (i : Inquiry) : Except Failure Reply × Protocol :=
  let r := p.reply k i
  (r.result, p.touch r.uses)

/-- Answers inquiries one after the other. -/
def askAll (k : Compiler) (p : Protocol) : List Inquiry → List (Except Failure Reply) × Protocol
  | [] => ([], p)
  | i :: is =>
    let (answer, q) := p.ask k i
    let (answers, last) := q.askAll k is
    (answer :: answers, last)

theorem touch_nil (p : Protocol) : p.touch [] = p := by
  have same : p.bindings.map (touchBy []) = p.bindings := by
    refine (List.map_congr_left fun b _ => ?_).trans (List.map_id _)
    simp [touchBy]
  simp [touch, same]

theorem touchBy_touchBy (uses more : List Use) (b : Binding) :
    touchBy more (touchBy uses b) = touchBy (uses ++ more) b := by
  simp [touchBy, Bool.or_assoc]

theorem touch_touch (p : Protocol) (uses more : List Use) : (p.touch uses).touch more = p.touch (uses ++ more) := by
  simp [touch, touchBy_touchBy, Function.comp_def, Bool.or_assoc]

theorem touchBy_same (uses : List Use) (b : Binding) : b.Same (touchBy uses b) := ⟨rfl, rfl, rfl⟩

theorem lookup_touch (p : Protocol) (uses : List Use) (name : Text) :
    (p.touch uses).lookup name = (p.lookup name).map (touchBy uses) := by
  have find (test : Text → Bool) : (p.bindings.map (touchBy uses)).find? (fun b => test b.name) =
      (p.bindings.find? fun b => test b.name).map (touchBy uses) := List.find?_map
  simp only [lookup, touch]
  rw [find (· == Text.lower name), find (Text.lower name).isPrefixOf]
  cases p.bindings.find? fun b => b.name == Text.lower name with
  | some b => rfl
  | none => rfl

theorem touch_alike (p : Protocol) (uses : List Use) : p.Alike (fun _ => True) (p.touch uses) where
  name := rfl
  line := rfl
  self := rfl
  arguments := rfl
  parameters := rfl
  commands := ⟨rfl, rfl, rfl⟩
  lookup name _ := by
    rw [lookup_touch]
    cases h : p.lookup name with
    | none => exact .inl ⟨rfl, rfl⟩
    | some b => exact .inr ⟨b, touchBy uses b, rfl, rfl, touchBy_same uses b⟩
  refers := ⟨fun _ _ _ => trivial, fun _ _ _ _ _ => trivial⟩

open Traced (alike_refl)

theorem marked_eq_of_same {b c : Binding} (h : b.Same c) (used : Bool) :
    { b with used := used } = { c with used := used } := by
  rw [h.name, h.value, h.line]

theorem reply_alike (k : Compiler) {p q : Protocol} (h : p.Alike (fun _ => True) q) (i : Inquiry) :
    (p.reply k i >>= fun r => pure r.unmarked).Alike p.file q.file (q.reply k i >>= fun r => pure r.unmarked) := by
  have plain (i : Inquiry) (same : (p.reply k i).Alike p.file q.file (q.reply k i)) :
      (p.reply k i >>= fun r => pure r.unmarked).Alike p.file q.file (q.reply k i >>= fun r => pure r.unmarked) :=
    same.bind fun _ _ => alike_refl _
  cases i with
  | find name =>
    have found (r : Protocol) : (r.reply k (.find name) >>= fun r => pure r.unmarked) =
        pure (.binding ((r.lookup name).map fun b => { b with used := false })) := rfl
    rw [found, found]
    rcases h.lookup name trivial with ⟨hp, hq⟩ | ⟨b, c, hp, hq, same⟩
    · rw [hp, hq]
      exact alike_refl _
    · rw [hp, hq, Option.map_some, Option.map_some, marked_eq_of_same same]
      exact alike_refl _
  | consult name =>
    refine plain _ (consult_bind_alike h name trivial (alike_refl _) fun b c _ same => ?_)
    rw [Option.map_some, Option.map_some, marked_eq_of_same same]
    exact alike_refl _
  | number name limit => exact plain _ ((numberVariable_alike h name limit trivial).bind fun _ _ => alike_refl _)
  | choice name choices => exact plain _ ((choiceVariable_alike h name choices trivial).bind fun _ _ => alike_refl _)
  | string name => exact plain _ ((k.stringVariable_alike h name trivial).bind fun _ _ => alike_refl _)
  | handler name fields =>
    exact plain _ ((Compiler.handlerProgram_alike _ h name trivial).bind fun _ _ => alike_refl _)
  | commands fields => exact plain _ ((Compiler.ownProgram_alike _ h).bind fun _ _ => alike_refl _)
  | tokens ts mode fields =>
    have all : RefersTo (fun _ => True) ts := fun _ _ _ => trivial
    exact plain _ ((Compiler.compileString_alike _ h mode ts all).bind fun _ _ => alike_refl _)

theorem reply_unmarked (k : Compiler) (p : Protocol) (i : Inquiry) :
    (p.reply k i >>= fun r => pure r.unmarked).result = (p.reply k i).result.map Reply.unmarked ∧
      (p.reply k i >>= fun r => pure r.unmarked).uses = (p.reply k i).uses := by
  cases h : (p.reply k i).result with
  | ok r => exact ⟨(Traced.bind_of_ok _ _ r h).trans rfl, (Traced.uses_bind_ok _ _ r h).trans (List.append_nil _)⟩
  | error e => exact ⟨(Traced.bind_of_error _ _ e h).trans rfl, Traced.uses_bind_error _ _ e h⟩

theorem reply_touch (k : Compiler) (p : Protocol) (uses : List Use) (i : Inquiry) :
    ((p.touch uses).reply k i).result.map Reply.unmarked = (p.reply k i).result.map Reply.unmarked ∧
      ((p.touch uses).reply k i).uses = (p.reply k i).uses := by
  obtain ⟨result, consulted⟩ := reply_unmarked k p i
  obtain ⟨result', consulted'⟩ := reply_unmarked k (p.touch uses) i
  have same := reply_alike k (p.touch_alike uses) i
  rw [← result, ← consulted, ← result', ← consulted']
  exact ⟨(Moved.eq same.result).symm, same.uses.symm⟩

structure MoreUsed (p q : Protocol) : Prop where
  file : p.file = q.file
  name : p.name = q.name
  line : p.line = q.line
  self : p.self = q.self
  arguments : p.arguments = q.arguments
  parameters : p.parameters = q.parameters
  commands : p.commands.Same q.commands ∧ (p.commands.used = true → q.commands.used = true)
  bindings : List.Forall₂ (fun b c => b.Same c ∧ (b.used = true → c.used = true)) p.bindings q.bindings

theorem touch_moreUsed (p : Protocol) (uses : List Use) : p.MoreUsed (p.touch uses) where
  file := rfl
  name := rfl
  line := rfl
  self := rfl
  arguments := rfl
  parameters := rfl
  commands := ⟨⟨rfl, rfl, rfl⟩, fun used => by simp [touch, used]⟩
  bindings := by
    refine List.forall₂_map_right_iff.mpr (List.forall₂_same.mpr fun b _ => ?_)
    exact ⟨touchBy_same uses b, fun used => by simp [touchBy, used]⟩

theorem askAll_touch (k : Compiler) (p : Protocol) (uses : List Use) (is : List Inquiry) :
    ((p.touch uses).askAll k is).1.map (·.map Reply.unmarked) = is.map (fun i => (p.ask k i).1.map Reply.unmarked) ∧
      ((p.touch uses).askAll k is).2 = p.touch (uses ++ is.flatMap fun i => (p.reply k i).uses) := by
  induction is generalizing uses with
  | nil => simp [askAll]
  | cons i is ih =>
    obtain ⟨answer, consulted⟩ := reply_touch k p uses i
    obtain ⟨answers, marked⟩ := ih (uses ++ (p.reply k i).uses)
    have asked : (p.touch uses).ask k i =
        (((p.touch uses).reply k i).result, p.touch (uses ++ (p.reply k i).uses)) := by
      rw [ask, consulted, touch_touch]
    simp only [askAll, asked]
    refine ⟨?_, ?_⟩
    · rw [List.map_cons, List.map_cons, answers, answer]
      rfl
    · rw [marked, List.flatMap_cons, List.append_assoc]

/-- Each of several inquiries is answered as it would be if it were the only one, but for the mark of a binding. They
leave the protocol as it was, with marks on what they consulted. -/
theorem askAll_independent (k : Compiler) (p : Protocol) (is : List Inquiry) :
    (p.askAll k is).1.map (·.map Reply.unmarked) = is.map (fun i => (p.ask k i).1.map Reply.unmarked) ∧
      (p.askAll k is).2 = p.touch (is.flatMap fun i => (p.reply k i).uses) ∧
      p.MoreUsed (p.askAll k is).2 := by
  have run := askAll_touch k p [] is
  rw [touch_nil, List.nil_append] at run
  refine ⟨run.1, run.2, ?_⟩
  rw [run.2]
  exact touch_moreUsed p _

end Protocol
end DeviceProtocol
