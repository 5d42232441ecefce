import DeviceProtocol.Proofs.EscapedQuotes
import DeviceProtocol.Proofs.FaultKinds
set_option autoImplicit false

/-!
Backslashes at the end of strings. The scanner reads a backslash together with the character behind it, and text that is
put between quotes gets a second backslash where one stands at its end. So wherever a string comes from, its last
backslash belongs to the one before it, and decoding it never finds a backslash that nothing follows.
-/
namespace DeviceProtocol

namespace Text

variable {s t : Text}

theorem Guarded.append (hs : s.Guarded) (ht : t.Guarded) : Guarded (s ++ t) := by
  induction hs with
  | nil => exact ht
  | char plain rest ih => exact .char plain ih
  | pair rest ih => exact .pair ih

theorem Guarded.not_endsBare (h : t.Guarded) : ¬ t.EndsBare := by
  induction h with
  | nil => decide
  | @char c cs plain rest ih =>
    simp only [List.mem_cons, List.not_mem_nil, or_false, not_or] at plain
    rwa [endsBare_char c cs plain.2]
  | @pair c cs rest ih => rwa [endsBare_pair]

end Text

/-- If the token is a string, it does not end with a backslash of its own. -/
def Token.Paired (t : Token) : Prop := t.kind = .string → ¬ t.text.EndsBare

def AllPaired (ts : List Token) : Prop := ∀ t ∈ ts, t.Paired

namespace AllPaired

variable {ts us : List Token}

theorem nil : AllPaired [] := by
  rintro t ⟨⟩

theorem cons {t : Token} (first : t.Paired) (rest : AllPaired ts) : AllPaired (t :: ts) :=
  List.forall_mem_cons.mpr ⟨first, rest⟩

theorem append (front : AllPaired ts) (back : AllPaired us) : AllPaired (ts ++ us) :=
  List.forall_mem_append.mpr ⟨front, back⟩

theorem subset (h : AllPaired ts) (sub : us ⊆ ts) : AllPaired us := fun t ht => h t (sub ht)

end AllPaired

theorem Token.paired_of_kind {t : Token} (h : t.kind ≠ .string) : t.Paired := fun string => absurd string h

namespace Scanner

theorem readPiece_paired (quote : Quote) (line : Int) (cs : Text) : ¬ (readPiece quote line cs).text.EndsBare := by
  induction cs using readPiece_induction quote line with
  | escape d ds close dollar newline piece ih =>
    rw [piece]
    exact mt (Text.endsBare_pair d _).mp ih
  | plain c cs newline close backslash reference piece ih =>
    rw [piece]
    exact mt (Text.endsBare_char c _ backslash).mp ih
  | nil piece | newline cs piece | close cs _ piece | last piece | dollar ds _ piece | broken ds piece
  | reference c cs _ _ _ _ piece =>
    rw [piece]
    exact Text.Guarded.nil.not_endsBare

theorem readString_paired (quote : Quote) (s s' : Scanner) (t : Token) (h : readString quote s = .ok t s') :
    t.Paired := by
  have piece := readPiece_paired quote s.line s.rest
  intro _
  rw [readString] at h
  dsimp only at h
  split at h <;> cases h <;> exact piece

theorem readToken_paired (set : Specials) (eofAllowed : Bool) (s s' : Scanner) (t : Token)
    (h : readToken set eofAllowed s = .ok t s') : t.Paired := by
  rcases readToken_ok_cases set eofAllowed s s' t h with
    ⟨quote, s₁, string⟩ | reference | ⟨rfl, -⟩ | ⟨c, s₁, -, -, -, -, ⟨-, rfl, -⟩ | ⟨-, rfl, -⟩⟩
  · exact readString_paired quote s₁ s' t string
  · exact Token.paired_of_kind (by simp [reference])
  · exact Token.paired_of_kind (by simp)
  · exact Token.paired_of_kind (by simp)
  · exact Token.paired_of_kind (by simp)

theorem readRawValue_paired (s : Scanner) : AllPaired (readRawValue s).1 := by
  fun_induction readRawValue s with
  | case5 s t s₁ token opens ends closes ts ending rest ih =>
    rw [rest] at ih
    exact .cons (readToken_paired _ _ s s₁ t token) ih
  | _ => exact .nil

theorem readLazyValue_paired (s s' : Scanner) (ts : List Token) (h : readLazyValue s = .ok ts s') : AllPaired ts := by
  have raw := readRawValue_paired s
  rw [readLazyValue] at h
  split at h
  · next tokens s₁ value =>
    cases h
    rw [value] at raw
    exact raw.subset (List.Subset.trans (dropTrailingBlanks_subset _) (List.dropWhile_subset _))
  · cases h

theorem CommandAt.paired {s s' : Scanner} {c : WrittenCommand} (h : CommandAt s c s') : AllPaired c.arguments := by
  cases h with
  | intro s₁ _ name line after arguments head assigns opens plain value => exact readLazyValue_paired _ s' _ value

theorem HandlerAt.paired {s s' : Scanner} {cs : List WrittenCommand} (h : HandlerAt s cs s') :
    AllPaired (cs.flatMap WrittenCommand.arguments) := by
  induction h with
  | close => exact .nil
  | command s s₁ s' c cs first rest ih => exact .append first.paired ih

theorem BodyAt.paired {s s' : Scanner} {items : List BodyItem} (h : BodyAt s items s') :
    AllPaired (items.flatMap BodyItem.values) := by
  induction h with
  | close => exact .nil
  | assignment s s₁ s₂ s' name line value items head plain tokens rest ih =>
    have raw := readRawValue_paired s₁
    rw [tokens] at raw
    exact .append raw ih
  | handler s s₁ s₂ s' name line cs items head handler commands rest ih => exact .append commands.paired ih
  | command s s₁ s' c items first rest ih => exact .append first.paired ih

theorem StatementsAt.paired {s : Scanner} {statements : List Statement} (h : StatementsAt s statements) :
    AllPaired (statements.flatMap Statement.values) := by
  induction h with
  | done => exact .nil
  | assignment s s₁ s₂ name line value statements head plain tokens rest ih =>
    have raw := readRawValue_paired s₁
    rw [tokens] at raw
    exact .append raw ih
  | handler s s₁ s₂ name line cs statements head handler commands rest ih => exact .append commands.paired ih
  | definition s s₁ s₂ s₃ name line after parameters items statements head plain opens opening body rest ih =>
    exact .append body.paired ih

end Scanner

theorem quotePieces_paired (line : Int) (pending : Option Text) (ts : List Token)
    (guarded : ∀ text ∈ pending, text.Guarded) : AllPaired (quotePieces line pending ts) := by
  have string (pending : Option Text) (guarded : ∀ text ∈ pending, text.Guarded) :
      AllPaired (quotedString line pending) := by
    cases pending with
    | none => exact .nil
    | some text => exact .cons (fun _ => (guarded text rfl).not_endsBare) .nil
  induction ts generalizing pending with
  | nil => exact string pending guarded
  | cons t ts ih =>
    rw [quotePieces]
    split
    · refine .append (string pending guarded) (.cons (Token.paired_of_kind (by simp)) (ih none ?_))
      simp
    · split
      · exact ih pending guarded
      · refine ih _ ?_
        rintro _ ⟨⟩
        refine .append ?_ (Text.guarded_escapeQuotes t.text)
        cases pending with
        | none => exact .nil
        | some text => exact guarded text rfl

theorem quoteTokens_paired (ts : List Token) (line : Int) : AllPaired (quoteTokens ts line) := by
  have pieces := quotePieces_paired line none ts (by simp)
  rw [quoteTokens]
  split
  · exact .cons (fun _ => Text.Guarded.nil.not_endsBare) .nil
  · exact pieces

namespace Protocol

def allTokens (p : Protocol) : List Token := p.commands.value ++ p.bindings.flatMap Binding.value

/-- The token is one of these, or it is in what a reference stands for that is reached from them. -/
inductive Reached (p : Protocol) (ts : List Token) : Token → Prop
  | given {t : Token} (mem : t ∈ ts) : p.Reached ts t
  | inside {t u : Token} {value : List Token} (outer : p.Reached ts t) (reference : t.kind = .reference)
      (resolved : (p.resolve t).result = .ok value) (mem : u ∈ value) : p.Reached ts u

variable {p q : Protocol}

theorem value_subset_allTokens (b : Binding) (h : b ∈ p.bindings) : b.value ⊆ p.allTokens :=
  fun _ ht => List.mem_append_right _ (List.mem_flatMap.mpr ⟨b, h, ht⟩)

theorem allTokens_touch (uses : List Use) : (p.touch uses).allTokens = p.allTokens := by
  simp only [allTokens, touch, List.flatMap_map]
  rfl

theorem allTokens_copy (name : Text) (line : Int) (arguments : List Text) :
    (p.copy name line arguments).allTokens = p.allTokens := by
  simp only [allTokens, copy]
  split <;> rfl

theorem allTokens_assign (name : Text) (line : Int) (value : List Token) :
    (p.assign name line value).allTokens ⊆ value ++ p.allTokens := by
  intro t ht
  rcases List.mem_append.mp ht with ht | ht
  · rw [assign_commands] at ht
    exact List.mem_append_right _ (List.mem_append_left _ ht)
  · obtain ⟨b, hb, ht⟩ := List.mem_flatMap.mp ht
    rcases p.value_of_mem_assign name line value b hb with ⟨-, assigned⟩ | hb
    · rw [assigned] at ht
      exact List.mem_append_left _ ht
    · exact List.mem_append_right _ (value_subset_allTokens b hb ht)

theorem allTokens_addCommands (ts : List Token) : (p.addCommands ts).allTokens ⊆ ts ++ p.allTokens := by
  intro t ht
  simp only [allTokens, addCommands, List.mem_append] at ht ⊢
  tauto

theorem resolve_paired (hp : AllPaired p.allTokens) (t : Token) (value : List Token)
    (h : (p.resolve t).result = .ok value) : AllPaired value := by
  obtain ⟨i, -, h⟩ := (Traced.bind_eq_ok_iff _ _ _).mp h
  cases i with
  | some i =>
    dsimp only at h
    split at h
    · cases h
    · split at h
      · cases h
      · next text _ =>
        split at h
        · cases h
          exact .cons (fun _ => (Text.guarded_escapeQuotes text).not_endsBare) .nil
        · cases h
          exact .cons (Token.paired_of_kind (by simp)) .nil
  | none =>
    obtain ⟨found, consulted, h⟩ := (Traced.bind_eq_ok_iff _ _ _).mp h
    rw [consult_result] at consulted
    cases consulted
    cases bound : p.lookup t.text with
    | none =>
      rw [bound] at h
      cases h
    | some b =>
      rw [bound] at h
      cases h
      split
      · exact quoteTokens_paired b.value b.line
      · exact hp.subset (value_subset_allTokens b (p.mem_of_lookup t.text b bound))

theorem settleAfter_paired (hp : AllPaired p.allTokens) (front ts value : List Token) (hfront : AllPaired front)
    (hts : AllPaired ts) (h : (p.settleAfter front ts).result = .ok value) : AllPaired value := by
  induction ts generalizing front with
  | nil =>
    cases h
    exact hfront
  | cons t ts ih =>
    obtain ⟨first, rest⟩ := List.forall_mem_cons.mp hts
    have keep : AllPaired (front ++ [t]) := hfront.append (.cons first .nil)
    rw [settleAfter] at h
    split at h
    · obtain ⟨i, -, h⟩ := (Traced.bind_eq_ok_iff _ _ _).mp h
      cases i with
      | some i => exact ih _ keep rest h
      | none =>
        obtain ⟨own, resolved, h⟩ := (Traced.bind_eq_ok_iff _ _ _).mp h
        exact ih _ (hfront.append (resolve_paired hp t own resolved)) rest h
    · split at h
      · exact ih _ hfront rest h
      · exact ih _ keep rest h

theorem settled?_paired (name : Text) (line : Int) (value : List Token) (hp : AllPaired p.allTokens)
    (hv : AllPaired value) (h : p.settled? name line value = some q) : AllPaired q.allTokens := by
  obtain ⟨ts, settled, rfl⟩ := (p.settled?_eq_some_iff q name line value).mp h
  obtain ⟨whole, after, cut⟩ := (Traced.bind_eq_ok_iff _ _ _).mp settled
  cases cut
  have paired := (settleAfter_paired hp [] value whole .nil hv after).subset (dropTrailingBlanks_subset whole)
  refine (paired.append ?_).subset (allTokens_assign name line _)
  rwa [allTokens_touch]

theorem Reached.paired (hp : AllPaired p.allTokens) {t : Token} (h : p.Reached p.allTokens t) : t.Paired := by
  cases h with
  | given mem => exact hp t mem
  | @inside u _ value outer reference resolved mem => exact resolve_paired hp u value resolved t mem

end Protocol

theorem WrittenCommand.tokens_paired (protocols : List Protocol) (c : WrittenCommand)
    (hps : ∀ p ∈ protocols, AllPaired p.allTokens) (h : AllPaired c.arguments) : AllPaired (c.tokens protocols) := by
  rw [tokens]
  split
  · next p found =>
    have mem : p ∈ protocols := by
      split at found
      · exact ProtocolFile.mem_of_findIn found
      · cases found
    exact (hps p mem).subset (List.subset_append_left _ _)
  · exact .append (.cons (Token.paired_of_kind (by simp)) h) (.cons (Token.paired_of_kind (by simp)) .nil)

theorem flatMap_tokens_paired (protocols : List Protocol) (cs : List WrittenCommand)
    (hps : ∀ p ∈ protocols, AllPaired p.allTokens) (h : AllPaired (cs.flatMap WrittenCommand.arguments)) :
    AllPaired (cs.flatMap (WrittenCommand.tokens protocols)) := by
  intro t ht
  obtain ⟨c, hc, ht⟩ := List.mem_flatMap.mp ht
  exact c.tokens_paired protocols hps (h.subset fun u hu => List.mem_flatMap.mpr ⟨c, hc, hu⟩) t ht

theorem Protocol.extend?_paired (protocols : List Protocol) (item : BodyItem) (p q : Protocol)
    (hps : ∀ r ∈ protocols, AllPaired r.allTokens) (hp : AllPaired p.allTokens) (h : AllPaired item.values)
    (hq : extend? protocols p item = some q) : AllPaired q.allTokens := by
  cases item with
  | assignment name line value => exact settled?_paired name line value hp h hq
  | handler name line cs =>
    cases hq
    exact ((flatMap_tokens_paired protocols cs hps h).append hp).subset (allTokens_assign name line _)
  | command c =>
    cases hq
    exact ((c.tokens_paired protocols hps h).append hp).subset (allTokens_addCommands _)

namespace ProtocolFile

structure Paired (f : ProtocolFile) : Prop where
  globals : AllPaired f.globals.allTokens
  protocols : ∀ p ∈ f.protocols, AllPaired p.allTokens

theorem extend?_paired (statement : Statement) (f g : ProtocolFile) (hf : f.Paired) (h : AllPaired statement.values)
    (hg : f.extend? statement = some g) : g.Paired := by
  cases statement with
  | assignment name line value =>
    obtain ⟨p, hp, rfl⟩ := Option.map_eq_some_iff.mp hg
    exact ⟨Protocol.settled?_paired name line value hf.globals h hp, hf.protocols⟩
  | handler name line cs =>
    cases hg
    have commands := flatMap_tokens_paired f.protocols cs hf.protocols h
    exact ⟨(commands.append hf.globals).subset (Protocol.allTokens_assign name line _), hf.protocols⟩
  | definition name line parameters items =>
    obtain ⟨-, p, hp, rfl⟩ := (f.extend?_definition g name line parameters items).mp hg
    have start : AllPaired (f.template name line parameters).allTokens := by
      show AllPaired (f.globals.copy name line []).allTokens
      rw [Protocol.allTokens_copy]
      exact hf.globals
    refine ⟨hf.globals, List.forall_mem_append.mpr ⟨hf.protocols, ?_⟩⟩
    rw [List.forall_mem_singleton]
    refine Protocol.build?_keeps (fun r => AllPaired r.allTokens) f.protocols items ?_ _ p start hp
    intro item hitem q r hq hr
    exact Protocol.extend?_paired f.protocols item q r hf.protocols hq
      (h.subset fun t ht => List.mem_flatMap.mpr ⟨item, hitem, ht⟩) hr

theorem ofSource_paired (source : Text) (file : Option Text) (f : ProtocolFile) (hf : ofSource source file = .ok f) :
    f.Paired := by
  obtain ⟨statements, g, written, built, rfl⟩ := (ofSource_eq_ok_iff source file f).mp hf
  have empty_paired : (empty file).Paired := ⟨.nil, by simp [empty]⟩
  have paired : g.Paired := by
    refine build?_keeps Paired statements ?_ (empty file) g empty_paired built
    intro statement hs f g hf hg
    exact extend?_paired statement f g hf
      (written.paired.subset fun t ht => List.mem_flatMap.mpr ⟨statement, hs, ht⟩) hg
  exact ⟨paired.globals, paired.protocols⟩

end ProtocolFile

namespace Cell

theorem ofQuoted_usual (text : Text) (paired : ¬ text.EndsBare) : Blames Cause.Usual (ofQuoted text) := by
  fun_induction ofQuoted text with
  | case1 => exact blames_ok _
  | case2 => exact blames_fault _ (.of_kind rfl)
  | case3 cs allowed ih =>
    cases cs with
    | nil => exact absurd (by decide) paired
    | cons c cs =>
      refine (escape_usual c cs).bind fun r escaped => (ih r.2 ?_).bind fun _ _ => blames_ok _
      obtain ⟨d, e, x, split, taken, -, hex, -⟩ := escape_split _ r.1 r.2 escaped
      rw [split, List.cons_append, Text.endsBare_pair, Text.endsBare_digits e x hex] at paired
      rwa [split, taken, List.drop_left]
  | case4 c cs allowed other ih =>
    rw [Text.endsBare_char c cs other] at paired
    exact (ih paired).bind fun _ _ => blames_ok _

example : ofQuoted "a\\".toList = .error (.fault { cause := .backslashAtEnd }) := by decide +kernel

end Cell

theorem Protocol.Reached.admits {p : Protocol} {P : Cause → Prop} {limit : Int} {ts : List Token}
    (strings : ∀ t, p.Reached ts t → t.kind = .string → Blames P (Cell.ofQuoted t.text))
    (deep : P (.nestedTooDeep limit)) (n : Nat) (t : Token) (h : p.Reached ts t) : p.Admits P limit n t := by
  induction n generalizing t with
  | zero => exact ⟨strings t h, fun _ => deep⟩
  | succ n ih => exact ⟨strings t h, fun reference value resolved u hu => ih u (.inside h reference resolved hu)⟩

namespace Compiler

variable {k : Compiler} {P : Cause → Prop} (usual : ∀ c, c.Usual → P c) (deep : P (.nestedTooDeep k.depthLimit))
  (hk : ∀ text mode, Blames P (k.converter text mode))
include usual deep hk

theorem compileInstance_blames (p : Protocol)
    (strings : ∀ t, p.Reached p.allTokens t → t.kind = .string → Blames P (Cell.ofQuoted t.text)) :
    Blames P (k.compileInstance p).result := by
  have admits (ts : List Token) (sub : ts ⊆ p.allTokens) : k.Admits p P ts := fun t ht =>
    Protocol.Reached.admits strings deep _ t (.given (sub ht))
  have values (b : Binding) (hb : b ∈ p.bindings) := admits b.value (Protocol.value_subset_allTokens b hb)
  refine Traced.blames_bind (handlerPrograms_blames usual hk p values) fun _ _ => ?_
  exact Traced.blames_bind (ownProgram_blames usual hk (admits _ (List.subset_append_left _ _))) fun _ _ => blames_ok _

theorem compileSource_blames (source instantiation : Text) (file : Option Text)
    (strings : ∀ f p, ProtocolFile.ofSource source file = .ok f → f.instantiate instantiation = .ok p →
      ∀ t, p.Reached p.allTokens t → t.kind = .string → Blames P (Cell.ofQuoted t.text)) :
    Blames P (k.compileSource source instantiation file) := by
  refine ((ProtocolFile.ofSource_usual source file).mono usual).bind fun f hf => ?_
  refine ((f.instantiate_usual instantiation).mono usual).bind fun p hp => ?_
  have found : f.instantiate instantiation = .ok p := by
    cases result : f.instantiate instantiation with
    | error e =>
      rw [result] at hp
      cases hp
    | ok q =>
      rw [result] at hp
      cases hp
      rfl
  refine (compileInstance_blames usual deep hk p (strings f p hf found)).bind fun program _ => ?_
  exact ((p.requireUsed_usual _).mono usual).bind fun _ _ => blames_ok _

end Compiler

/-- No string that compiling a protocol comes upon ends with a backslash of its own, whether it was written, is an
argument or is put together from the value of a variable. So no compilation fails because of one. -/
theorem compileSource_backslash_followed (limit : Int) (fields : Option FieldTable) (source instantiation : Text)
    (file : Option Text) :
    (∀ f p, ProtocolFile.ofSource source file = .ok f → f.instantiate instantiation = .ok p →
      ∀ t, p.Reached p.allTokens t → t.kind = .string → ¬ t.text.EndsBare) ∧
    ∀ fault, ({ depthLimit := limit, fields := fields } : Compiler).compileSource source instantiation file =
      .error (.fault fault) → fault.cause ≠ .backslashAtEnd := by
  have paired (f : ProtocolFile) (p : Protocol) (hf : ProtocolFile.ofSource source file = .ok f)
      (hp : f.instantiate instantiation = .ok p) (t : Token) (reached : p.Reached p.allTokens t) : t.Paired := by
    refine reached.paired ?_
    obtain ⟨template, mem, arguments, rfl⟩ := f.mem_of_instantiate instantiation p hp
    rw [Protocol.allTokens_copy]
    exact (ProtocolFile.ofSource_paired source file f hf).protocols template mem
  have usual (c : Cause) (h : c.Usual) : c ≠ .backslashAtEnd := by
    rintro rfl
    cases h
  refine ⟨paired, Compiler.compileSource_blames usual (by simp) (fun text mode => ?_) source instantiation file ?_⟩
  · exact (Format.standard_usual text mode).mono usual
  · intro f p hf hp t reached string
    exact (Cell.ofQuoted_usual t.text (paired f p hf hp t reached string)).mono usual

example : ({} : Compiler).compileSource "p \x7b x = a\\; out \"$x\"; \x7d".toList ['p'] none =
    .ok ⟨[⟨.output, 1, [.string [.literal [97, 92]]]⟩]⟩ := by decide +kernel

end DeviceProtocol
