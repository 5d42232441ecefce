import DeviceProtocol.Proofs.FaultLines
import DeviceProtocol.Proofs.InsideBodies
set_option autoImplicit false

namespace DeviceProtocol

namespace Scanner

theorem CommandAt.onward {s s' : Scanner} {c : WrittenCommand} (h : CommandAt s c s') : Onward s s' := by
  cases h with
  | intro s₁ _ name line after arguments head assigns opens plain value =>
    obtain ⟨start, -, -, newline⟩ := (readHead_advances false s).of_ok head
    have rest := (readLazyValue_advances (s₁.unread? after)).of_ok value
    exact start.trans ((s₁.unread?_onward after newline).trans rest.1)

theorem HandlerAt.onward {s s' : Scanner} {cs : List WrittenCommand} (h : HandlerAt s cs s') : Onward s s' := by
  induction h with
  | close s s' head => exact readHead_onward head
  | command s s₁ s' c cs first rest ih => exact first.onward.trans ih

theorem ItemAt.onward {s s' : Scanner} {item : BodyItem} (h : ItemAt s item s') : Onward s s' := by
  cases h with
  | assignment s₁ _ name line value head plain tokens =>
    have start := readHead_onward head
    exact start.trans ((readRawValue_advances s₁).1.of_ok (by rw [tokens])).1
  | handler s₁ _ name line cs head handler commands =>
    exact (readHead_onward head).trans commands.onward
  | command _ c written => exact written.onward

/-- The text is one item of a body from its first character to its last one, and stands on one line. -/
structure OneItem (a : Text) (item : BodyItem) : Prop where
  oneLine : '\n' ∉ a
  complete : ∃ s, ItemAt (.ofSource a) item s ∧ s.rest = []

theorem OneItem.itemAt {a : Text} {item : BodyItem} (h : OneItem a item) : ItemAt (.ofSource a) item (.ofSource []) := by
  obtain ⟨s, written, whole⟩ := h.complete
  obtain ⟨outside, noted⟩ := written.calm ⟨rfl, rfl⟩
  have line : s.line = 1 := by
    have last := written.onward.last
    simpa [lastLine, whole, ofSource, List.count_eq_zero.mpr h.oneLine] using last
  obtain ⟨rest, line, quote, escapedDollar⟩ := s
  cases whole
  cases outside
  cases noted
  cases line
  exact written

theorem OneItem.bodyAt_iff {a : Text} {item : BodyItem} (h : OneItem a item) (n : Int) (r : Text)
    (items : List BodyItem) (s : Scanner) :
    BodyAt ((Scanner.ofSource (a ++ r)).later n) items s ↔
      ∃ rest, items = item.later n :: rest ∧ BodyAt ((Scanner.ofSource r).later n) rest s :=
  ((h.itemAt.followedBy r).later n).bodyAt_iff items s

end Scanner

namespace Protocol

theorem settleAfter_addCommands (p : Protocol) (ts front value : List Token) :
    (p.addCommands ts).settleAfter front value = p.settleAfter front value := by
  induction value generalizing front with
  | nil => rfl
  | cons t value ih =>
    simp only [settleAfter, ih]
    rfl

theorem assign_addCommands (p : Protocol) (ts : List Token) (name : Text) (line : Int) (value : List Token) :
    (p.addCommands ts).assign name line value = (p.assign name line value).addCommands ts := by
  have declared : (p.addCommands ts).declare name line = (p.declare name line).addCommands ts := by
    by_cases bound : (p.bindings.any fun b => b.name == Text.lower name) = true
    · simp only [declare, addCommands, bound, if_true]
    · simp only [declare, addCommands, bound, if_false, Bool.false_eq_true]
  rw [assign, declared]
  rfl

theorem settled?_addCommands (p : Protocol) (ts : List Token) (name : Text) (line : Int) (value : List Token) :
    (p.addCommands ts).settled? name line value = (p.settled? name line value).map (·.addCommands ts) := by
  have same : (p.addCommands ts).settle value = p.settle value := by rw [settle, settleAfter_addCommands, ← settle]
  rw [settled?, settled?, same]
  split
  · exact congrArg some ((p.touch _).assign_addCommands ts name line _)
  · rfl

theorem build?_assignment_command (protocols : List Protocol) (p : Protocol) (name : Text) (line : Int)
    (value : List Token) (c : WrittenCommand) (items : List BodyItem) :
    p.build? protocols (.assignment name line value :: .command c :: items) =
      p.build? protocols (.command c :: .assignment name line value :: items) := by
  show (p.settled? name line value >>= fun q => build? protocols (q.addCommands (c.tokens protocols)) items) =
    ((p.addCommands (c.tokens protocols)).settled? name line value >>= fun q => build? protocols q items)
  rw [settled?_addCommands]
  cases p.settled? name line value <;> rfl

end Protocol

namespace ProtocolFile

open Scanner (BodyAt EndsInBody OneItem)

theorem build?_definition_congr (f : ProtocolFile) (before behind : List Statement) (name : Text) (line : Int)
    (parameters : List Text) (items more more' : List BodyItem)
    (same : ∀ protocols (p : Protocol), p.build? protocols more = p.build? protocols more') :
    f.build? (before ++ .definition name line parameters (items ++ more) :: behind) =
      f.build? (before ++ .definition name line parameters (items ++ more') :: behind) := by
  have body (protocols : List Protocol) (p : Protocol) :
      p.build? protocols (items ++ more) = p.build? protocols (items ++ more') := by
    simp only [Protocol.build?, List.foldlM_append] at same ⊢
    simp only [same]
  have definition (g : ProtocolFile) : g.extend? (.definition name line parameters (items ++ more)) =
      g.extend? (.definition name line parameters (items ++ more')) := by
    rw [extend?, extend?, body]
  simp only [build?, List.foldlM_append, List.foldlM_cons, definition]

/-- What follows inside of a body may be replaced by what ends at the same place and comes to the same. -/
theorem ofSource_of_bodies {x u v : Text} (inside : EndsInBody x)
    (same : ∀ n more s, BodyAt ((Scanner.ofSource u).later n) more s → ∃ more',
      BodyAt ((Scanner.ofSource v).later n) more' s ∧
        ∀ protocols (p : Protocol), p.build? protocols more = p.build? protocols more')
    (file : Option Text) (f : ProtocolFile) (h : ofSource (x ++ u) file = .ok f) : ofSource (x ++ v) file = .ok f := by
  obtain ⟨before, name, line, parameters, items, n, outline⟩ := inside.statementsAt_iff
  obtain ⟨statements, g, written, built, rfl⟩ := (ofSource_eq_ok_iff (x ++ u) file f).mp h
  obtain ⟨more, s, behind, rfl, body, rest⟩ := (outline u statements).mp written
  obtain ⟨more', body', alike⟩ := same n more s body
  refine (ofSource_eq_ok_iff (x ++ v) file _).mpr ⟨_, g, (outline v _).mpr ⟨more', s, behind, rfl, body', rest⟩, ?_, rfl⟩
  rw [← built]
  exact (build?_definition_congr _ before behind name line parameters items more more' alike).symm

/-- Inside of a protocol, an assignment and a command next to it on the same line may change places: either way the same
file is read. -/
theorem ofSource_assignment_command_comm (x a c y : Text) (file : Option Text) (f : ProtocolFile) (inside : EndsInBody x)
    (name : Text) (line : Int) (value : List Token) (assigns : OneItem a (.assignment name line value))
    (d : WrittenCommand) (commands : OneItem c (.command d)) :
    ofSource (x ++ a ++ c ++ y) file = .ok f ↔ ofSource (x ++ c ++ a ++ y) file = .ok f := by
  simp only [List.append_assoc]
  constructor
  · refine ofSource_of_bodies inside (fun n more s body => ?_) file f
    obtain ⟨_, rfl, after⟩ := (assigns.bodyAt_iff n (c ++ y) more s).mp body
    obtain ⟨rest, rfl, behind⟩ := (commands.bodyAt_iff n y _ s).mp after
    refine ⟨_, (commands.bodyAt_iff n (a ++ y) _ s).mpr ⟨_, rfl, (assigns.bodyAt_iff n y _ s).mpr ⟨rest, rfl, behind⟩⟩, ?_⟩
    exact fun protocols p => p.build?_assignment_command protocols _ _ _ _ rest
  · refine ofSource_of_bodies inside (fun n more s body => ?_) file f
    obtain ⟨_, rfl, after⟩ := (commands.bodyAt_iff n (a ++ y) more s).mp body
    obtain ⟨rest, rfl, behind⟩ := (assigns.bodyAt_iff n y _ s).mp after
    refine ⟨_, (assigns.bodyAt_iff n (c ++ y) _ s).mpr ⟨_, rfl, (commands.bodyAt_iff n y _ s).mpr ⟨rest, rfl, behind⟩⟩, ?_⟩
    exact fun protocols p => (p.build?_assignment_command protocols _ _ _ _ rest).symm

/-- The command is the name of an earlier protocol, and the assignment refers to an earlier one. -/
theorem ofSource_assignment_command_comm_inlined :
    let x := "q \x7b wait 1; \x7d\np \x7b x = 1; # y\n ;".toList
    let a := "z = $x;".toList
    let c := " q;".toList
    let y := " out $z; \x7d".toList
    let word (text : String) (line : Int) : Token := ⟨.word, text.toList, line, none⟩
    let stop (line : Int) : Token := ⟨.terminator, [';'], line, none⟩
    let protocol (name : String) (line : Int) (commands : List Token) (bindings : List Binding) : Protocol :=
      { name := name.toList, line := line, self := some name.toList, commands := ⟨[], commands, line, false⟩,
        bindings := bindings }
    let wait := [word "wait" 1, word "1" 1, stop 1]
    let f : ProtocolFile := {
      valid := true
      protocols := [protocol "q" 1 wait [],
        protocol "p" 2 (wait ++ [word "out" 3, ⟨.reference, ['z'], 3, none⟩, stop 3])
          [⟨['x'], [word "1" 2], 2, true⟩, ⟨['z'], [word "1" 2], 3, false⟩]] }
    EndsInBody x ∧ ofSource (x ++ a ++ c ++ y) none = .ok f ∧ ofSource (x ++ c ++ a ++ y) none = .ok f := by
  intro x a c y word stop protocol wait f
  have inside : EndsInBody x := by
    refine .intro { rest := "\np \x7b x = 1; # y\n ;".toList } { rest := " x = 1; # y\n ;".toList, line := 2 } _
      { rest := " # y\n ;".toList, line := 2 } [.definition ['q'] 1 [] [.command ⟨"wait".toList, 1, false, [word "1" 1], 1⟩]]
      ['p'] 2 '\x7b' [] [.assignment ['x'] 2 [⟨.special, [' '], 2, none⟩, word "1" 2]]
      (.cons _ _ _ _ _ (.definition _ { rest := " wait 1; \x7d\np \x7b x = 1; # y\n ;".toList } _ _ _ _ (some '\x7b') _ _
        ?_ ?_ (.inl rfl) rfl (.command _ _ _ _ _ (.intro _ { rest := "; \x7d\np \x7b x = 1; # y\n ;".toList }
          { rest := " \x7d\np \x7b x = 1; # y\n ;".toList } _ _ (some '1') _ ?_ ?_ ?_ ?_ ?_) (.close _ _ ?_)))
        (.nil _)) ?_ ?_ (.inl rfl) rfl
      (.cons _ _ _ _ _ (.assignment _ { rest := " 1; # y\n ;".toList, line := 2 } _ _ _ _ ?_ ?_ ?_) (.nil _)) ?_
    all_goals decide +kernel
  have assigns : OneItem a (.assignment ['z'] 1 [⟨.special, [' '], 1, none⟩, ⟨.reference, ['x'], 1, none⟩]) := by
    refine ⟨by decide, { rest := [] }, .assignment _ { rest := " $x;".toList } _ _ _ _ ?_ ?_ ?_, rfl⟩
    all_goals decide +kernel
  have commands : OneItem c (.command ⟨['q'], 1, true, [], 1⟩) := by
    refine ⟨by decide, { rest := [] }, .command _ _ _ (.intro _ { rest := [] } { rest := [] } _ 1 (some ';') _ ?_ ?_ ?_ ?_ ?_),
      rfl⟩
    all_goals decide +kernel
  have read : ofSource (x ++ a ++ c ++ y) none = .ok f := by decide +kernel
  exact ⟨inside, read, (ofSource_assignment_command_comm x a c y none f inside _ _ _ assigns _ commands).mp read⟩

end ProtocolFile
end DeviceProtocol
