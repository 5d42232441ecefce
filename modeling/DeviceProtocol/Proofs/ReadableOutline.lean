import DeviceProtocol.Proofs.TextBehind
set_option autoImplicit false

namespace DeviceProtocol

namespace Scanner

def command? (s : Scanner) : Option (WrittenCommand × Scanner) :=
  match s.readHead false with
  | .ok (.named name line after) s₁ =>
    if after = some '=' || after = some '\x7b' || isHandlerName name then none
    else match (s₁.unread? after).readLazyValue with
      | .ok arguments s₂ => some (⟨name, line, endsCommand after, arguments, s₂.line⟩, s₂)
      | .error _ _ => none
  | _ => none

theorem command?_eq_some_iff (s s' : Scanner) (c : WrittenCommand) :
    s.command? = some (c, s') ↔ CommandAt s c s' := by
  constructor
  · intro h
    rw [command?] at h
    split at h
    · next name line after s₁ head =>
      split at h
      · cases h
      · next other =>
        simp only [Bool.or_eq_true, decide_eq_true_eq, not_or, Bool.not_eq_true] at other
        split at h
        · next arguments s₂ value =>
          cases h
          exact .intro s s₁ s' name line after arguments head other.1.1 other.1.2 other.2 value
        · cases h
    · cases h
  · rintro ⟨s₁, _, name, line, after, arguments, head, assigns, opens, plain, value⟩
    simp [command?, head, assigns, opens, plain, value]

/-- The commands of a handler, and where it ends if it can be read to its end. -/
def handlerOutline (s : Scanner) : List WrittenCommand × Option Scanner :=
  match s.readHead false with
  | .ok .close s' => ([], some s')
  | _ =>
    match _h : s.command? with
    | some (c, s₁) =>
      let rest := s₁.handlerOutline
      (c :: rest.1, rest.2)
    | none => ([], none)
termination_by s.rest.length
decreasing_by exact ((command?_eq_some_iff s s₁ c).mp _h).length

theorem handlerOutline_eq_iff (s s' : Scanner) (cs : List WrittenCommand) :
    s.handlerOutline = (cs, some s') ↔ HandlerAt s cs s' := by
  constructor
  · intro h
    fun_induction handlerOutline s generalizing cs with
    | case1 s s₁ head =>
      cases h
      exact .close s s' head
    | case2 s c s₁ first rest other ih =>
      obtain ⟨rfl, tail⟩ := Prod.mk.inj h
      exact .command s s₁ s' c _ ((command?_eq_some_iff s s₁ c).mp first) (ih _ (Prod.ext rfl tail))
    | case3 => cases h
  · intro h
    induction h with
    | close s s' head => rw [handlerOutline, head]
    | command s s₁ s' c cs first rest ih =>
      have found := (command?_eq_some_iff s s₁ c).mpr first
      rw [handlerOutline]
      split
      · next head => exact absurd head (first.head_ne (by simp))
      · split
        · next found' =>
          cases found.symm.trans found'
          rw [ih]
        · next found' => cases found.symm.trans found'

def bodyOutline (s : Scanner) : List BodyItem × Option Scanner :=
  match _h : s.readHead false with
  | .ok .close s' => ([], some s')
  | .ok (.named name line after) s₁ =>
    if after = some '=' then
      if isHandlerName name then ([], none)
      else match _hv : s₁.readRawValue with
        | (value, .ok () s₂) =>
          let rest := s₂.bodyOutline
          (.assignment name line value :: rest.1, rest.2)
        | (value, .error _ _) => ([.assignment name line value], none)
    else if after = some '\x7b' then
      if isHandlerName name then
        match _hh : s₁.handlerOutline with
        | (cs, some s₂) =>
          let rest := s₂.bodyOutline
          (.handler name line cs :: rest.1, rest.2)
        | (cs, none) => ([.handler name line cs], none)
      else ([], none)
    else match _hc : s.command? with
      | some (c, s₂) =>
        let rest := s₂.bodyOutline
        (.command c :: rest.1, rest.2)
      | none => ([], none)
  | .ok .endOfFile _ | .error _ _ => ([], none)
termination_by s.rest.length
decreasing_by
  · have := readHead_named_length false s s₁ name line after _h
    have := s₁.readRawValue_length s₂ (by rw [_hv])
    omega
  · have := readHead_named_length false s s₁ name line after _h
    have := ((handlerOutline_eq_iff s₁ s₂ cs).mp _hh).length
    omega
  · exact ((command?_eq_some_iff s s₂ c).mp _hc).length

theorem bodyOutline_close (s s' : Scanner) (head : s.readHead false = .ok .close s') :
    s.bodyOutline = ([], some s') := by
  rw [bodyOutline]
  split <;> rename_i h <;> cases head.symm.trans h
  rfl

theorem bodyOutline_assignment (s s₁ s₂ : Scanner) (name : Text) (line : Int) (value : List Token)
    (head : s.readHead false = .ok (.named name line (some '=')) s₁) (plain : isHandlerName name = false)
    (tokens : s₁.readRawValue = (value, .ok () s₂)) :
    s.bodyOutline = (.assignment name line value :: s₂.bodyOutline.1, s₂.bodyOutline.2) := by
  rw [bodyOutline]
  split <;> rename_i h <;> cases head.symm.trans h
  simp only [plain, if_true, Bool.false_eq_true, if_false]
  split <;> rename_i h <;> cases tokens.symm.trans h
  rfl

theorem bodyOutline_handler (s s₁ s₂ : Scanner) (name : Text) (line : Int) (cs : List WrittenCommand)
    (head : s.readHead false = .ok (.named name line (some '\x7b')) s₁) (handler : isHandlerName name = true)
    (commands : HandlerAt s₁ cs s₂) :
    s.bodyOutline = (.handler name line cs :: s₂.bodyOutline.1, s₂.bodyOutline.2) := by
  have outline := (handlerOutline_eq_iff s₁ s₂ cs).mpr commands
  rw [bodyOutline]
  split <;> rename_i h <;> cases head.symm.trans h
  simp only [handler, if_true, Option.some.injEq, show ('\x7b' = '=') = False by decide, if_false]
  split <;> rename_i h <;> cases outline.symm.trans h
  rfl

theorem bodyOutline_command (s s₁ : Scanner) (c : WrittenCommand) (first : CommandAt s c s₁) :
    s.bodyOutline = (.command c :: s₁.bodyOutline.1, s₁.bodyOutline.2) := by
  have found := (command?_eq_some_iff s s₁ c).mpr first
  cases first with
  | intro s₂ _ name line after arguments head assigns opens plain value =>
    rw [bodyOutline]
    split <;> rename_i h <;> cases head.symm.trans h
    simp only [assigns, opens, if_false]
    split <;> rename_i h <;> cases found.symm.trans h
    rfl

/-- An assignment whose value cannot be read to its end is in the outline with the tokens before that place. -/
theorem bodyOutline_assigned (s s₁ : Scanner) (name : Text) (line : Int)
    (head : s.readHead false = .ok (.named name line (some '=')) s₁) (plain : isHandlerName name = false) :
    .assignment name line s₁.readRawValue.1 ∈ s.bodyOutline.1 := by
  rw [bodyOutline]
  split <;> rename_i h <;> cases head.symm.trans h
  simp only [plain, if_true, Bool.false_eq_true, if_false]
  split
  · next tokens => simp [tokens]
  · next tokens => simp [tokens]

theorem bodyOutline_eq_iff (s s' : Scanner) (items : List BodyItem) :
    s.bodyOutline = (items, some s') ↔ BodyAt s items s' := by
  constructor
  · intro h
    fun_induction bodyOutline s generalizing items with
    | case1 s s₁ head =>
      cases h
      exact .close s s' head
    | case3 s name line s₁ plain value s₂ tokens rest head ih =>
      obtain ⟨rfl, tail⟩ := Prod.mk.inj h
      exact .assignment s s₁ s₂ s' name line value _ head (by simpa using plain) tokens (ih _ (Prod.ext rfl tail))
    | case5 s name line s₁ handler cs s₂ outline rest head _ ih =>
      obtain ⟨rfl, tail⟩ := Prod.mk.inj h
      exact .handler s s₁ s₂ s' name line cs _ head handler ((handlerOutline_eq_iff s₁ s₂ cs).mp outline)
        (ih _ (Prod.ext rfl tail))
    | case8 s name line after s₁ head assigns opens c s₂ found rest ih =>
      obtain ⟨rfl, tail⟩ := Prod.mk.inj h
      exact .command s s₂ s' c _ ((command?_eq_some_iff s s₂ c).mp found) (ih _ (Prod.ext rfl tail))
    | _ => cases h
  · intro h
    induction h with
    | close s s' head => exact bodyOutline_close s s' head
    | assignment s s₁ s₂ s' name line value items head plain tokens rest ih =>
      rw [bodyOutline_assignment s s₁ s₂ name line value head plain tokens, ih]
    | handler s s₁ s₂ s' name line cs items head handler commands rest ih =>
      rw [bodyOutline_handler s s₁ s₂ name line cs head handler commands, ih]
    | command s s₁ s' c items first rest ih => rw [bodyOutline_command s s₁ c first, ih]

def outline (s : Scanner) : List Statement :=
  match _h : s.readHead true with
  | .ok (.named name line after) s₁ =>
    if after = some '=' then
      if isHandlerName name then []
      else match _hv : s₁.readRawValue with
        | (value, .ok () s₂) => .assignment name line value :: s₂.outline
        | (value, .error _ _) => [.assignment name line value]
    else if isHandlerName name then
      if after = some '\x7b' then
        match _hh : s₁.handlerOutline with
        | (cs, some s₂) => .handler name line cs :: s₂.outline
        | (cs, none) => [.handler name line cs]
      else []
    else if after = some '\x7b' || after = some '(' then
      match _ho : ProtocolFile.readOpening name after s₁ with
      | .ok parameters s₂ =>
        match _hb : s₂.bodyOutline with
        | (items, some s₃) => .definition name line parameters items :: s₃.outline
        | (items, none) => [.definition name line parameters items]
      | .error _ _ => []
    else []
  | .ok .endOfFile _ | .ok .close _ | .error _ _ => []
termination_by s.rest.length
decreasing_by
  · have := readHead_named_length true s s₁ name line after _h
    have := s₁.readRawValue_length s₂ (by rw [_hv])
    omega
  · have := readHead_named_length true s s₁ name line after _h
    have := ((handlerOutline_eq_iff s₁ s₂ cs).mp _hh).length
    omega
  · have := readHead_named_length true s s₁ name line after _h
    have := ProtocolFile.readOpening_length name after s₁ s₂ parameters _ho
    have := ((bodyOutline_eq_iff s₂ s₃ items).mp _hb).length
    omega

theorem outline_assignment (s s₁ s₂ : Scanner) (name : Text) (line : Int) (value : List Token)
    (head : s.readHead true = .ok (.named name line (some '=')) s₁) (plain : isHandlerName name = false)
    (tokens : s₁.readRawValue = (value, .ok () s₂)) : s.outline = .assignment name line value :: s₂.outline := by
  rw [outline]
  split <;> rename_i h <;> cases head.symm.trans h
  simp only [plain, if_true, Bool.false_eq_true, if_false]
  split <;> rename_i h <;> cases tokens.symm.trans h
  rfl

theorem outline_handler (s s₁ s₂ : Scanner) (name : Text) (line : Int) (cs : List WrittenCommand)
    (head : s.readHead true = .ok (.named name line (some '\x7b')) s₁) (handler : isHandlerName name = true)
    (commands : HandlerAt s₁ cs s₂) : s.outline = .handler name line cs :: s₂.outline := by
  have found := (handlerOutline_eq_iff s₁ s₂ cs).mpr commands
  rw [outline]
  split <;> rename_i h <;> cases head.symm.trans h
  simp only [handler, if_true, Option.some.injEq, show ('\x7b' = '=') = False by decide, if_false]
  split <;> rename_i h <;> cases found.symm.trans h
  rfl

theorem outline_definition (s s₁ s₂ s₃ : Scanner) (name : Text) (line : Int) (after : Option Char)
    (parameters : List Text) (items : List BodyItem) (head : s.readHead true = .ok (.named name line after) s₁)
    (plain : isHandlerName name = false) (opens : after = some '\x7b' ∨ after = some '(')
    (opening : ProtocolFile.readOpening name after s₁ = .ok parameters s₂) (body : BodyAt s₂ items s₃) :
    s.outline = .definition name line parameters items :: s₃.outline := by
  have found := (bodyOutline_eq_iff s₂ s₃ items).mpr body
  have assigns : after ≠ some '=' := by rcases opens with rfl | rfl <;> decide
  rw [outline]
  split <;> rename_i h <;> cases head.symm.trans h
  simp only [assigns, plain, Bool.false_eq_true, if_false, Bool.or_eq_true, decide_eq_true_eq, opens, if_true]
  split <;> rename_i h <;> cases opening.symm.trans h
  split <;> rename_i h <;> cases found.symm.trans h
  rfl

theorem outline_assigned (s s₁ : Scanner) (name : Text) (line : Int)
    (head : s.readHead true = .ok (.named name line (some '=')) s₁) (plain : isHandlerName name = false) :
    .assignment name line s₁.readRawValue.1 ∈ s.outline := by
  rw [outline]
  split <;> rename_i h <;> cases head.symm.trans h
  simp only [plain, if_true, Bool.false_eq_true, if_false]
  split
  · next tokens => simp [tokens]
  · next tokens => simp [tokens]

theorem outline_defined (s s₁ s₂ : Scanner) (name : Text) (line : Int) (after : Option Char)
    (parameters : List Text) (head : s.readHead true = .ok (.named name line after) s₁)
    (plain : isHandlerName name = false) (opens : after = some '\x7b' ∨ after = some '(')
    (opening : ProtocolFile.readOpening name after s₁ = .ok parameters s₂) :
    .definition name line parameters s₂.bodyOutline.1 ∈ s.outline := by
  have assigns : after ≠ some '=' := by rcases opens with rfl | rfl <;> decide
  rw [outline]
  split <;> rename_i h <;> cases head.symm.trans h
  simp only [assigns, plain, Bool.false_eq_true, if_false, Bool.or_eq_true, decide_eq_true_eq, opens, if_true]
  split <;> rename_i h <;> cases opening.symm.trans h
  split
  · next body => simp [body]
  · next body => simp [body]

theorem outline_of_statementsAt (s : Scanner) (statements : List Statement) (h : StatementsAt s statements) :
    s.outline = statements := by
  induction h with
  | done s s' head =>
    rw [outline]
    split <;> rename_i h <;> cases head.symm.trans h
    rfl
  | assignment s s₁ s₂ name line value statements head plain tokens rest ih =>
    rw [outline_assignment s s₁ s₂ name line value head plain tokens, ih]
  | handler s s₁ s₂ name line cs statements head handler commands rest ih =>
    rw [outline_handler s s₁ s₂ name line cs head handler commands, ih]
  | definition s s₁ s₂ s₃ name line after parameters items statements head plain opens opening body rest ih =>
    rw [outline_definition s s₁ s₂ s₃ name line after parameters items head plain opens opening body, ih]

end Scanner
end DeviceProtocol
