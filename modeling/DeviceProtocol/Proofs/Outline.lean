import DeviceProtocol.ProtocolFile.Read
set_option autoImplicit false

/-!
A protocol file in two stages. Its outline is what stands in the text: which statements there are, with the tokens of
their values as they are written. What the file holds then comes from the outline alone, statement by statement.

How far a statement reaches does not depend on what came before it. The name of an earlier protocol that stands alone
takes the same text as a command without arguments.
-/
namespace DeviceProtocol

instance decidableEqResult {ε σ α : Type} [DecidableEq ε] [DecidableEq σ] [DecidableEq α] :
    DecidableEq (EStateM.Result ε σ α)
  | .ok a s, .ok b t => decidable_of_iff (a = b ∧ s = t) (by simp)
  | .error a s, .error b t => decidable_of_iff (a = b ∧ s = t) (by simp)
  | .ok _ _, .error _ _ => isFalse (by simp)
  | .error _ _, .ok _ _ => isFalse (by simp)

/-- A command in a protocol or a handler. -/
structure WrittenCommand where
  name : Text
  line : Int
  /-- Nothing stands between the name and the end of the command, so that the name may be that of a protocol. -/
  alone : Bool
  arguments : List Token
  endLine : Int
  deriving DecidableEq, Repr

inductive BodyItem where
  | assignment (name : Text) (line : Int) (value : List Token)
  | handler (name : Text) (line : Int) (commands : List WrittenCommand)
  | command (c : WrittenCommand)
  deriving DecidableEq, Repr

namespace BodyItem

def values : BodyItem → List Token
  | assignment _ _ value => value
  | handler _ _ cs => cs.flatMap WrittenCommand.arguments
  | command c => c.arguments

end BodyItem

inductive Statement where
  | assignment (name : Text) (line : Int) (value : List Token)
  | handler (name : Text) (line : Int) (commands : List WrittenCommand)
  | definition (name : Text) (line : Int) (parameters : List Text) (body : List BodyItem)
  deriving DecidableEq, Repr

namespace Statement

def values : Statement → List Token
  | assignment _ _ value => value
  | handler _ _ cs => cs.flatMap WrittenCommand.arguments
  | definition _ _ _ items => items.flatMap BodyItem.values

end Statement

namespace Scanner

/-- The character ends a command of which only the name has been read. -/
def endsCommand (after : Option Char) : Bool := after = some ';' || after = some '\x7d'

/-- A command stands here, and this is where it ends. -/
inductive CommandAt : Scanner → WrittenCommand → Scanner → Prop
  | intro (s s₁ s₂ : Scanner) (name : Text) (line : Int) (after : Option Char) (arguments : List Token)
      (head : s.readHead false = .ok (.named name line after) s₁)
      (assigns : after ≠ some '=') (opens : after ≠ some '\x7b') (plain : isHandlerName name = false)
      (value : (s₁.unread? after).readLazyValue = .ok arguments s₂) :
      CommandAt s ⟨name, line, endsCommand after, arguments, s₂.line⟩ s₂

inductive HandlerAt : Scanner → List WrittenCommand → Scanner → Prop
  | close (s s' : Scanner) (head : s.readHead false = .ok .close s') : HandlerAt s [] s'
  | command (s s₁ s' : Scanner) (c : WrittenCommand) (cs : List WrittenCommand) (first : CommandAt s c s₁)
      (rest : HandlerAt s₁ cs s') : HandlerAt s (c :: cs) s'

/-- The body of a protocol stands here. -/
inductive BodyAt : Scanner → List BodyItem → Scanner → Prop
  | close (s s' : Scanner) (head : s.readHead false = .ok .close s') : BodyAt s [] s'
  | assignment (s s₁ s₂ s' : Scanner) (name : Text) (line : Int) (value : List Token) (items : List BodyItem)
      (head : s.readHead false = .ok (.named name line (some '=')) s₁) (plain : isHandlerName name = false)
      (tokens : s₁.readRawValue = (value, .ok () s₂)) (rest : BodyAt s₂ items s') :
      BodyAt s (.assignment name line value :: items) s'
  | handler (s s₁ s₂ s' : Scanner) (name : Text) (line : Int) (cs : List WrittenCommand) (items : List BodyItem)
      (head : s.readHead false = .ok (.named name line (some '\x7b')) s₁) (handler : isHandlerName name = true)
      (commands : HandlerAt s₁ cs s₂) (rest : BodyAt s₂ items s') : BodyAt s (.handler name line cs :: items) s'
  | command (s s₁ s' : Scanner) (c : WrittenCommand) (items : List BodyItem) (first : CommandAt s c s₁)
      (rest : BodyAt s₁ items s') : BodyAt s (.command c :: items) s'

inductive StatementsAt : Scanner → List Statement → Prop
  | done (s s' : Scanner) (head : s.readHead true = .ok .endOfFile s') : StatementsAt s []
  | assignment (s s₁ s₂ : Scanner) (name : Text) (line : Int) (value : List Token) (statements : List Statement)
      (head : s.readHead true = .ok (.named name line (some '=')) s₁) (plain : isHandlerName name = false)
      (tokens : s₁.readRawValue = (value, .ok () s₂)) (rest : StatementsAt s₂ statements) :
      StatementsAt s (.assignment name line value :: statements)
  | handler (s s₁ s₂ : Scanner) (name : Text) (line : Int) (cs : List WrittenCommand) (statements : List Statement)
      (head : s.readHead true = .ok (.named name line (some '\x7b')) s₁) (handler : isHandlerName name = true)
      (commands : HandlerAt s₁ cs s₂) (rest : StatementsAt s₂ statements) :
      StatementsAt s (.handler name line cs :: statements)
  | definition (s s₁ s₂ s₃ : Scanner) (name : Text) (line : Int) (after : Option Char) (parameters : List Text)
      (items : List BodyItem) (statements : List Statement)
      (head : s.readHead true = .ok (.named name line after) s₁) (plain : isHandlerName name = false)
      (opens : after = some '\x7b' ∨ after = some '(')
      (opening : ProtocolFile.readOpening name after s₁ = .ok parameters s₂)
      (body : BodyAt s₂ items s₃) (rest : StatementsAt s₃ statements) :
      StatementsAt s (.definition name line parameters items :: statements)

theorem CommandAt.unique {s s' s'' : Scanner} {c d : WrittenCommand} (h : CommandAt s c s') (h' : CommandAt s d s'') :
    c = d ∧ s' = s'' := by
  cases h with
  | intro s₁ _ name line after arguments head assigns opens plain value =>
    cases h' with
    | intro s₂ _ name line after arguments head' assigns' opens' plain' value' =>
      cases head.symm.trans head'
      cases value.symm.trans value'
      exact ⟨rfl, rfl⟩

theorem CommandAt.head_ne {s s' s'' : Scanner} {c : WrittenCommand} {head : Head} (h : CommandAt s c s')
    (other : head = .close ∨ ∃ name line, head = .named name line (some '=') ∨ head = .named name line (some '\x7b')) :
    s.readHead false ≠ .ok head s'' := by
  intro h'
  cases h with
  | intro _ _ _ _ _ _ named assigns opens =>
    cases named.symm.trans h'
    simp [assigns, opens] at other

theorem HandlerAt.unique {s s' s'' : Scanner} {cs ds : List WrittenCommand} (h : HandlerAt s cs s')
    (h' : HandlerAt s ds s'') : cs = ds ∧ s' = s'' := by
  induction h generalizing ds with
  | close s s' head =>
    cases h' with
    | close _ _ head' =>
      cases head.symm.trans head'
      exact ⟨rfl, rfl⟩
    | command _ _ _ _ _ first' => exact absurd head (first'.head_ne (by simp))
  | command s s₁ s' c cs first rest ih =>
    cases h' with
    | close _ _ head' => exact absurd head' (first.head_ne (by simp))
    | command _ _ _ _ _ first' rest' =>
      obtain ⟨rfl, rfl⟩ := first.unique first'
      obtain ⟨rfl, rfl⟩ := ih rest'
      exact ⟨rfl, rfl⟩

theorem BodyAt.unique {s s' s'' : Scanner} {items items' : List BodyItem} (h : BodyAt s items s')
    (h' : BodyAt s items' s'') : items = items' ∧ s' = s'' := by
  induction h generalizing items' with
  | close s s' head =>
    cases h' with
    | close _ _ head' =>
      cases head.symm.trans head'
      exact ⟨rfl, rfl⟩
    | assignment _ _ _ _ _ _ _ _ head' => cases head.symm.trans head'
    | handler _ _ _ _ _ _ _ _ head' => cases head.symm.trans head'
    | command _ _ _ _ _ first' => exact absurd head (first'.head_ne (by simp))
  | assignment s s₁ s₂ s' name line value items head plain tokens rest ih =>
    cases h' with
    | close _ _ head' => cases head.symm.trans head'
    | assignment _ _ _ _ _ _ _ _ head' _ tokens' rest' =>
      cases head.symm.trans head'
      cases tokens.symm.trans tokens'
      obtain ⟨rfl, rfl⟩ := ih rest'
      exact ⟨rfl, rfl⟩
    | handler _ _ _ _ _ _ _ _ head' => cases head.symm.trans head'
    | command _ _ _ _ _ first' => exact absurd head (first'.head_ne (by simp))
  | handler s s₁ s₂ s' name line cs items head handler commands rest ih =>
    cases h' with
    | close _ _ head' => cases head.symm.trans head'
    | assignment _ _ _ _ _ _ _ _ head' => cases head.symm.trans head'
    | handler _ _ _ _ _ _ _ _ head' _ commands' rest' =>
      cases head.symm.trans head'
      obtain ⟨rfl, rfl⟩ := commands.unique commands'
      obtain ⟨rfl, rfl⟩ := ih rest'
      exact ⟨rfl, rfl⟩
    | command _ _ _ _ _ first' => exact absurd head (first'.head_ne (by simp))
  | command s s₁ s' c items first rest ih =>
    cases h' with
    | close _ _ head' => exact absurd head' (first.head_ne (by simp))
    | assignment _ _ _ _ _ _ _ _ head' => exact absurd head' (first.head_ne (by simp))
    | handler _ _ _ _ _ _ _ _ head' => exact absurd head' (first.head_ne (by simp))
    | command _ _ _ _ _ first' rest' =>
      obtain ⟨rfl, rfl⟩ := first.unique first'
      obtain ⟨rfl, rfl⟩ := ih rest'
      exact ⟨rfl, rfl⟩

theorem StatementsAt.unique {s : Scanner} {statements statements' : List Statement} (h : StatementsAt s statements)
    (h' : StatementsAt s statements') : statements = statements' := by
  induction h generalizing statements' with
  | done s s' head =>
    cases h' with
    | done => rfl
    | assignment _ _ _ _ _ _ _ head' => cases head.symm.trans head'
    | handler _ _ _ _ _ _ _ head' => cases head.symm.trans head'
    | definition _ _ _ _ _ _ _ _ _ _ head' => cases head.symm.trans head'
  | assignment s s₁ s₂ name line value statements head plain tokens rest ih =>
    cases h' with
    | done _ _ head' => cases head.symm.trans head'
    | assignment _ _ _ _ _ _ _ head' _ tokens' rest' =>
      cases head.symm.trans head'
      cases tokens.symm.trans tokens'
      rw [ih rest']
    | handler _ _ _ _ _ _ _ head' => cases head.symm.trans head'
    | definition _ _ _ _ _ _ _ _ _ _ head' _ opens' =>
      cases head.symm.trans head'
      simp at opens'
  | handler s s₁ s₂ name line cs statements head handler commands rest ih =>
    cases h' with
    | done _ _ head' => cases head.symm.trans head'
    | assignment _ _ _ _ _ _ _ head' => cases head.symm.trans head'
    | handler _ _ _ _ _ _ _ head' _ commands' rest' =>
      cases head.symm.trans head'
      obtain ⟨rfl, rfl⟩ := commands.unique commands'
      rw [ih rest']
    | definition _ _ _ _ _ _ _ _ _ _ head' plain' =>
      cases head.symm.trans head'
      simp [handler] at plain'
  | definition s s₁ s₂ s₃ name line after parameters items statements head plain opens opening body rest ih =>
    cases h' with
    | done _ _ head' => cases head.symm.trans head'
    | assignment _ _ _ _ _ _ _ head' =>
      cases head.symm.trans head'
      simp at opens
    | handler _ _ _ _ _ _ _ head' handler' =>
      cases head.symm.trans head'
      simp [handler'] at plain
    | definition _ _ _ _ _ _ _ _ _ _ head' _ _ opening' body' rest' =>
      cases head.symm.trans head'
      cases opening.symm.trans opening'
      obtain ⟨rfl, rfl⟩ := body.unique body'
      rw [ih rest']

end Scanner

namespace WrittenCommand

/-- The tokens a command gives, after these protocols. -/
def tokens (protocols : List Protocol) (c : WrittenCommand) : List Token :=
  match if c.alone then ProtocolFile.findIn protocols c.name else none with
  | some p => p.commands.value
  | none => ⟨.word, c.name, c.line, none⟩ :: c.arguments ++ [⟨.terminator, [';'], c.endLine, none⟩]

end WrittenCommand

namespace Protocol

/-- Binds a variable to a value as it is written. -/
def settled? (p : Protocol) (name : Text) (line : Int) (value : List Token) : Option Protocol :=
  match (p.settle value).result with
  | .ok ts => some ((p.touch (p.settle value).uses).assign name line ts)
  | .error _ => none

def extend? (protocols : List Protocol) (p : Protocol) : BodyItem → Option Protocol
  | .assignment name line value => p.settled? name line value
  | .handler name line cs => some (p.assign name line (cs.flatMap (·.tokens protocols)))
  | .command c => some (p.addCommands (c.tokens protocols))

def build? (protocols : List Protocol) (p : Protocol) (items : List BodyItem) : Option Protocol :=
  items.foldlM (extend? protocols) p

end Protocol

namespace ProtocolFile

def template (f : ProtocolFile) (name : Text) (line : Int) (parameters : List Text) : Protocol :=
  { f.globals.copy name line [] with parameters := parameters }

def extend? (f : ProtocolFile) : Statement → Option ProtocolFile
  | .assignment name line value => (f.globals.settled? name line value).map fun p => { f with globals := p }
  | .handler name line cs =>
    some { f with globals := f.globals.assign name line (cs.flatMap (·.tokens f.protocols)) }
  | .definition name line parameters items =>
    if f.protocols.any fun p => p.name == name then none
    else ((f.template name line parameters).build? f.protocols items).map fun p =>
      { f with protocols := f.protocols ++ [p] }

/-- The file after these statements. -/
def build? (f : ProtocolFile) (statements : List Statement) : Option ProtocolFile := statements.foldlM extend? f

end ProtocolFile

namespace Scanner

@[simp] theorem readRaw_quote (s : Scanner) : s.readRaw.2.quote = s.quote := by
  unfold readRaw
  split <;> rfl

theorem readChar_quote (s : Scanner) : s.readChar.2.quote = s.quote := by
  unfold readChar
  split
  · rfl
  · split
    · rfl
    · exact s.readRaw_quote

theorem readFirst_quote (s s' : Scanner) (c : Option Char) (h : s.readFirst = (c, s')) : s'.quote = s.quote := by
  have hs : s' = s.readFirst.2 := by rw [h]
  rw [hs, readFirst]
  split
  · exact s.readRaw_quote
  · exact s.readChar_quote

theorem readWord_quote (set : Specials) (s : Scanner) : (readWord set s).2.quote = s.quote := by
  fun_induction readWord set s with
  | case1 s s' h => rw [← s.readChar_quote, h]
  | case2 s c s' h hc => rw [← s.readChar_quote, h]; rfl
  | case3 s c s' h hc tail ih => rw [← s.readChar_quote, h]; exact ih

theorem readToken_bare (set : Specials) (eofAllowed : Bool) (s s' : Scanner) (t : Token)
    (h : readToken set eofAllowed s = .ok t s') (bare : t.kind = .word ∨ t.kind = .special) :
    ∃ c s₁, s.readFirst = (some c, s₁) ∧ s.quote = none ∧ c ≠ '$' ∧ Quote.ofChar? c = none ∧
      ((set.contains c = true ∧ t = ⟨.special, [c], s₁.line, none⟩ ∧ s' = s₁) ∨
        (set.contains c = false ∧ t = ⟨.word, lowerChar c ++ (readWord set s₁).1, s₁.line, none⟩ ∧
          s' = (readWord set s₁).2)) := by
  obtain ⟨quote, s₁, string⟩ | reference | ⟨rfl, -⟩ | token := readToken_ok_cases set eofAllowed s s' t h
  · simp [(readString_ok quote s₁ s' t string).1] at bare
  · simp [reference] at bare
  · simp at bare
  · exact token

theorem readToken_quote (set : Specials) (eofAllowed : Bool) (s s' : Scanner) (t : Token)
    (h : readToken set eofAllowed s = .ok t s') (bare : t.kind = .word ∨ t.kind = .special) : s'.quote = none := by
  obtain ⟨c, s₁, first, outside, -, -, ⟨-, -, rfl⟩ | ⟨-, -, rfl⟩⟩ := readToken_bare set eofAllowed s s' t h bare
  · exact (readFirst_quote s s' _ first).trans outside
  · exact (readWord_quote set s₁).trans ((readFirst_quote s s₁ _ first).trans outside)

theorem refuse_of_token {α : Type} {set : Specials} {eofAllowed : Bool} {s s' : Scanner} {t : Token} {cause : Cause}
    (h : readToken set eofAllowed s = .ok t s') : (s'.refuse t cause : Result α) = s'.fail cause := by
  refine if_neg ?_
  rw [Bool.and_eq_true, decide_eq_true_eq, List.isEmpty_iff]
  rintro ⟨word, empty⟩
  obtain ⟨c, s₁, -, -, -, -, ⟨-, rfl, -⟩ | ⟨-, rfl, -⟩⟩ := readToken_bare set eofAllowed s s' t h (.inl word)
  · cases word
  · exact lowerChar_ne_nil c (List.append_eq_nil_iff.mp empty).1

theorem readHead_quote (eofAllowed : Bool) (s s' : Scanner) (name : Text) (line : Int) (after : Option Char)
    (h : s.readHead eofAllowed = .ok (.named name line after) s') : s'.quote = none := by
  fun_induction readHead eofAllowed s with
  | case3 s t s₁ ht hk _ ih => exact ih h
  | case7 s t s₁ ht hk _ _ _ _ word =>
    simp only [EStateM.Result.ok.injEq] at h
    simp only [Bool.and_eq_true, decide_eq_true_eq] at word
    have quote := readToken_quote _ _ _ _ _ ht (.inl word.1)
    rw [← h.2, readNonblank, readRaw_quote]
    exact quote
  | _ => simp [fail] at h

theorem readToken_special (set : Specials) (eofAllowed : Bool) (s : Scanner) (c : Char) (cs : Text)
    (rest : s.rest = c :: cs) (outside : s.quote = none) (special : set.contains c = true)
    (gap : opensGap c = false) (dollar : c ≠ '$') (quote : Quote.ofChar? c = none) :
    readToken set eofAllowed s = .ok ⟨.special, [c], s.line, none⟩ { s with rest := cs } := by
  have newline : c ≠ '\n' := by
    rintro rfl
    revert gap
    decide
  have first : s.readFirst = (some c, { s with rest := cs }) := by
    simp [readFirst, outside, readChar, readRaw, rest, gap, newline]
  exact readToken_of_special set eofAllowed s c _ outside first dollar quote special

theorem readLazyValue_of_endsCommand (s : Scanner) (after : Option Char) (ends : endsCommand after = true)
    (outside : s.quote = none) :
    (s.unread? after).readLazyValue = .ok [] (if after = some '\x7d' then s.unread '\x7d' else s) := by
  have raw : (s.unread? after).readRawValue = ([], .ok () (if after = some '\x7d' then s.unread '\x7d' else s)) := by
    simp only [endsCommand, Bool.or_eq_true, decide_eq_true_eq] at ends
    rcases ends with rfl | rfl
    · have token := readToken_special .value false (s.unread ';') ';' s.rest rfl outside (by decide) (by decide)
        (by decide) (by decide)
      rw [unread?, readRawValue]
      split <;> rename_i h <;> cases token.symm.trans h
      rfl
    · have token := readToken_special .value false (s.unread '\x7d') '\x7d' s.rest rfl outside (by decide) (by decide)
        (by decide) (by decide)
      rw [unread?, readRawValue]
      split <;> rename_i h <;> cases token.symm.trans h
      rfl
  rw [readLazyValue, raw]
  rfl

variable (protocols : List Protocol)

theorem inlined?_eq (name : Text) (after : Option Char) :
    inlined? protocols name after =
      (if endsCommand after then ProtocolFile.findIn protocols name else none).map fun p => p.commands.value := by
  rw [inlined?, endsCommand]
  split <;> simp_all

/-- What a command gives depends on the protocols before it, how far it reaches does not. -/
theorem readCommand_eq_ok_iff (name : Text) (line : Int) (after : Option Char) (s s' : Scanner) (ts : List Token)
    (outside : s.quote = none) :
    readCommand protocols name line after s = .ok ts s' ↔
      ∃ arguments, (s.unread? after).readLazyValue = .ok arguments s' ∧
        ts = WrittenCommand.tokens protocols ⟨name, line, endsCommand after, arguments, s'.line⟩ := by
  rw [readCommand, inlined?_eq]
  simp only [WrittenCommand.tokens]
  cases found : if endsCommand after then ProtocolFile.findIn protocols name else none with
  | none =>
    simp only [Option.map_none]
    cases value : (s.unread? after).readLazyValue with
    | error e s₁ => simp [noted]
    | ok arguments s₁ =>
      simp only [noted, EStateM.Result.ok.injEq]
      constructor
      · rintro ⟨rfl, rfl⟩
        exact ⟨arguments, ⟨rfl, rfl⟩, rfl⟩
      · rintro ⟨_, ⟨rfl, rfl⟩, rfl⟩
        exact ⟨rfl, rfl⟩
  | some p =>
    have ends : endsCommand after = true := by
      cases ends : endsCommand after with
      | true => rfl
      | false => simp [ends] at found
    rw [s.readLazyValue_of_endsCommand after ends outside]
    simp only [Option.map_some, EStateM.Result.ok.injEq]
    constructor
    · rintro ⟨rfl, rfl⟩
      exact ⟨[], ⟨rfl, rfl⟩, rfl⟩
    · rintro ⟨_, ⟨rfl, rfl⟩, rfl⟩
      exact ⟨rfl, rfl⟩

theorem commandAt_iff_readCommand (s s' : Scanner) (ts : List Token) :
    (∃ c, CommandAt s c s' ∧ ts = c.tokens protocols) ↔
      ∃ name line after s₁, readHead false s = .ok (.named name line after) s₁ ∧ after ≠ some '=' ∧ after ≠ some '\x7b' ∧
        isHandlerName name = false ∧ readCommand protocols name line after s₁ = .ok ts s' := by
  constructor
  · rintro ⟨_, ⟨s₁, _, name, line, after, arguments, head, assigns, opens, plain, value⟩, rfl⟩
    have outside := readHead_quote false s s₁ name line after head
    exact ⟨name, line, after, s₁, head, assigns, opens, plain,
      (readCommand_eq_ok_iff protocols name line after s₁ s' _ outside).mpr ⟨arguments, value, rfl⟩⟩
  · rintro ⟨name, line, after, s₁, head, assigns, opens, plain, command⟩
    have outside := readHead_quote false s s₁ name line after head
    obtain ⟨arguments, value, rfl⟩ := (readCommand_eq_ok_iff protocols name line after s₁ s' ts outside).mp command
    exact ⟨_, .intro s s₁ s' name line after arguments head assigns opens plain value, rfl⟩

theorem readHead_ne_endOfFile (s s' : Scanner) : s.readHead false ≠ .ok .endOfFile s' := by
  intro h
  fun_induction readHead false s with
  | case2 s t s₁ ht hk =>
    rcases readToken_ok _ _ _ _ _ ht with h' | h'
    · simp at h'
    · exact h'.1 hk
  | case3 s t s₁ ht hk _ ih => exact ih h
  | _ => simp [fail] at h

theorem readHandler_eq_ok_iff (s s' : Scanner) (ts : List Token) :
    readHandler protocols s = .ok ts s' ↔
      ∃ cs, HandlerAt s cs s' ∧ ts = cs.flatMap (WrittenCommand.tokens protocols) := by
  constructor
  · intro h
    fun_induction readHandler protocols s generalizing ts with
    | case2 s s₁ head => exact absurd head (readHead_ne_endOfFile s s₁)
    | case3 s s₁ head =>
      cases h
      exact ⟨[], .close s s' head, rfl⟩
    | case10 s name line after s₁ head assigns opens plain command s₂ hc commands s₃ hr ih =>
      cases h
      obtain ⟨cs, rest, rfl⟩ := ih commands hr
      obtain ⟨c, first, rfl⟩ := (commandAt_iff_readCommand protocols s s₂ command).mpr
        ⟨name, line, after, s₁, head, assigns, opens, by simpa using plain, hc⟩
      exact ⟨c :: cs, .command s s₂ s' c cs first rest, rfl⟩
    | _ => simp [fail] at h
  · rintro ⟨cs, h, rfl⟩
    induction h with
    | close s s' head =>
      rw [readHandler]
      split <;> rename_i h <;> cases head.symm.trans h
      rfl
    | command s s₂ s' c cs first rest ih =>
      obtain ⟨name, line, after, s₁, head, assigns, opens, plain, command⟩ :=
        (commandAt_iff_readCommand protocols s s₂ _).mp ⟨c, first, rfl⟩
      rw [readHandler]
      split <;> rename_i h <;> cases head.symm.trans h
      simp only [assigns, opens, plain, if_false, Bool.false_eq_true]
      split <;> rename_i h <;> cases command.symm.trans h
      rw [ih, List.flatMap_cons]

end Scanner

open Scanner

theorem Protocol.readAssignment_eq_ok_iff (p q : Protocol) (name : Text) (line : Int) (s s' : Scanner) :
    p.readAssignment name line s = (q, .ok () s') ↔
      ∃ value, s.readRawValue = (value, .ok () s') ∧ p.settled? name line value = some q := by
  simp only [readAssignment, settled?]
  cases raw : s.readRawValue with
  | mk value ending =>
    cases ending with
    | error e s₁ => cases (p.settle value).result <;> simp
    | ok u s₁ =>
      cases result : (p.settle value).result with
      | error e => simp_all
      | ok ts =>
        simp only [Prod.mk.injEq, EStateM.Result.ok.injEq]
        constructor
        · rintro ⟨rfl, -, rfl⟩
          exact ⟨value, ⟨rfl, trivial, rfl⟩, by rw [result]⟩
        · rintro ⟨_, ⟨rfl, -, rfl⟩, h⟩
          rw [result] at h
          cases h
          exact ⟨rfl, trivial, rfl⟩

namespace Scanner

variable (protocols : List Protocol)

theorem noted_eq_ok_iff {α : Type} (line : Int) (note : Note) (r : Result α) (a : α) (s : Scanner) :
    noted line note r = .ok a s ↔ r = .ok a s := by
  constructor
  · exact noted_eq_ok line note r a s
  · rintro rfl
    rfl

theorem readBody_eq_ok_iff (p q : Protocol) (s s' : Scanner) :
    readBody protocols p s = .ok q s' ↔ ∃ items, BodyAt s items s' ∧ p.build? protocols items = some q := by
  constructor
  · intro h
    fun_induction readBody protocols p s with
    | case2 p s s₁ head => exact absurd head (readHead_ne_endOfFile s s₁)
    | case3 p s s₁ head =>
      cases h
      exact ⟨[], .close s s' head, rfl⟩
    | case6 p s name line s₁ plain p₁ s₂ ha head ih =>
      obtain ⟨items, rest, built⟩ := ih h
      obtain ⟨value, raw, settled⟩ := (p.readAssignment_eq_ok_iff p₁ name line s₁ s₂).mp ha
      refine ⟨_ :: items, .assignment s s₁ s₂ s' name line value items head (by simpa using plain) raw rest, ?_⟩
      rw [Protocol.build?, List.foldlM_cons, Protocol.extend?, settled]
      exact built
    | case8 p s name line s₁ handler ts s₂ hh head _ ih =>
      obtain ⟨items, rest, built⟩ := ih h
      obtain ⟨cs, commands, rfl⟩ := (readHandler_eq_ok_iff protocols s₁ s₂ ts).mp (noted_eq_ok _ _ _ _ _ hh)
      exact ⟨_ :: items, .handler s s₁ s₂ s' name line cs items head handler commands rest, built⟩
    | case12 p s name line after s₁ head assigns opens plain ts s₂ hc ih =>
      obtain ⟨items, rest, built⟩ := ih h
      obtain ⟨c, first, rfl⟩ := (commandAt_iff_readCommand protocols s s₂ ts).mpr
        ⟨name, line, after, s₁, head, assigns, opens, by simpa using plain, hc⟩
      exact ⟨.command c :: items, .command s s₂ s' c items first rest, built⟩
    | _ => simp [fail] at h
  · rintro ⟨items, h, built⟩
    induction h generalizing p with
    | close s s' head =>
      cases built
      rw [readBody]
      split <;> rename_i h <;> cases head.symm.trans h
      rfl
    | assignment s s₁ s₂ s' name line value items head plain raw rest ih =>
      obtain ⟨p₁, settled, built⟩ := Option.bind_eq_some_iff.mp built
      have assignment := (p.readAssignment_eq_ok_iff p₁ name line s₁ s₂).mpr ⟨value, raw, settled⟩
      rw [readBody]
      split <;> rename_i h <;> cases head.symm.trans h
      simp only [plain, if_true, Bool.false_eq_true, if_false]
      split <;> rename_i h <;> cases assignment.symm.trans h
      exact ih p₁ built
    | handler s s₁ s₂ s' name line cs items head handler commands rest ih =>
      have block := (noted_eq_ok_iff line (.inHandler name) _ _ _).mpr
        ((readHandler_eq_ok_iff protocols s₁ s₂ _).mpr ⟨cs, commands, rfl⟩)
      rw [readBody]
      split <;> rename_i h <;> cases head.symm.trans h
      simp only [handler, if_true, Option.some.injEq, show ('\x7b' = '=') = False by decide, if_false]
      split <;> rename_i h <;> cases block.symm.trans h
      exact ih _ built
    | command s s₂ s' c items first rest ih =>
      obtain ⟨name, line, after, s₁, head, assigns, opens, plain, command⟩ :=
        (commandAt_iff_readCommand protocols s s₂ _).mp ⟨c, first, rfl⟩
      rw [readBody]
      split <;> rename_i h <;> cases head.symm.trans h
      simp only [assigns, opens, plain, if_false, Bool.false_eq_true]
      split <;> rename_i h <;> cases command.symm.trans h
      exact ih _ built

end Scanner

namespace ProtocolFile

theorem readDefinition_eq_ok_iff (f : ProtocolFile) (name : Text) (line : Int) (parameters : List Text)
    (s s' : Scanner) (p : Protocol) :
    f.readDefinition name line parameters s = .ok p s' ↔
      ∃ items, BodyAt s items s' ∧
        (∀ q ∈ f.protocols, q.name ≠ name) ∧ (f.template name line parameters).build? f.protocols items = some p := by
  rw [readDefinition]
  cases defined : f.protocols.find? fun p => p.name == name with
  | none =>
    have fresh : ∀ q ∈ f.protocols, q.name ≠ name := by simpa using defined
    simp only [noted_eq_ok_iff, readBody_eq_ok_iff]
    constructor
    · rintro ⟨items, body, built⟩
      exact ⟨items, body, fresh, built⟩
    · rintro ⟨items, body, -, built⟩
      exact ⟨items, body, built⟩
  | some q =>
    have same := List.find?_some defined
    simp only [noted, fail, reduceCtorEq, false_iff]
    rintro ⟨items, body, fresh, built⟩
    exact fresh q (List.mem_of_find?_eq_some defined) (by simpa using same)

theorem extend?_definition (f g : ProtocolFile) (name : Text) (line : Int) (parameters : List Text)
    (items : List BodyItem) :
    f.extend? (.definition name line parameters items) = some g ↔
      (∀ q ∈ f.protocols, q.name ≠ name) ∧
        ∃ p, (f.template name line parameters).build? f.protocols items = some p ∧
          g = { f with protocols := f.protocols ++ [p] } := by
  rw [extend?]
  split
  · next h =>
    simp only [List.any_eq_true, beq_iff_eq] at h
    obtain ⟨q, hq, same⟩ := h
    simp only [reduceCtorEq, false_iff]
    rintro ⟨fresh, -⟩
    exact fresh q hq same
  · next h =>
    have fresh : ∀ q ∈ f.protocols, q.name ≠ name := by simpa using h
    rw [Option.map_eq_some_iff]
    constructor
    · rintro ⟨p, hp, rfl⟩
      exact ⟨fresh, p, hp, rfl⟩
    · rintro ⟨-, p, hp, rfl⟩
      exact ⟨p, hp, rfl⟩

theorem readStatements_eq_none_iff (f g : ProtocolFile) (s : Scanner) :
    f.readStatements s = (g, none) ↔
      ∃ statements h, StatementsAt s statements ∧ f.build? statements = some h ∧ g = { h with valid := true } := by
  constructor
  · intro h
    fun_induction readStatements f s with
    | case2 f s s₁ head =>
      cases h
      exact ⟨[], f, .done s s₁ head, rfl, rfl⟩
    | case6 f s name line s₁ plain p s₂ ha head ih =>
      obtain ⟨statements, g', rest, built, rfl⟩ := ih h
      obtain ⟨value, raw, settled⟩ := (f.globals.readAssignment_eq_ok_iff p name line s₁ s₂).mp ha
      refine ⟨_ :: statements, g', .assignment s s₁ s₂ name line value statements head (by simpa using plain) raw rest,
        ?_, rfl⟩
      rw [build?, List.foldlM_cons, extend?, settled]
      exact built
    | case8 f s name line s₁ handler ts s₂ hh head _ ih =>
      obtain ⟨statements, g', rest, built, rfl⟩ := ih h
      obtain ⟨cs, commands, rfl⟩ := (readHandler_eq_ok_iff f.protocols s₁ s₂ ts).mp (noted_eq_ok _ _ _ _ _ hh)
      exact ⟨_ :: statements, g', .handler s s₁ s₂ name line cs statements head handler commands rest, built, rfl⟩
    | case12 f s name line after s₁ head assigns plain opens parameters s₂ opening p s₃ hd ih =>
      obtain ⟨statements, g', rest, built, rfl⟩ := ih h
      obtain ⟨items, body, fresh, hp⟩ := (f.readDefinition_eq_ok_iff name line parameters s₂ s₃ p).mp hd
      refine ⟨_ :: statements, g', .definition s s₁ s₂ s₃ name line after parameters items statements head
        (by simpa using plain) (by simpa using opens) opening body rest, ?_, rfl⟩
      rw [build?, List.foldlM_cons, (f.extend?_definition _ name line parameters items).mpr ⟨fresh, p, hp, rfl⟩]
      exact built
    | _ => simp [stop] at h
  · rintro ⟨statements, h, stand, built, rfl⟩
    -- each constructor says which way the reader goes, and `built` that nothing stops it there
    induction stand generalizing f with
    | done s s' head =>
      cases built
      rw [readStatements]
      split <;> rename_i h <;> cases head.symm.trans h
      rfl
    | assignment s s₁ s₂ name line value statements head plain raw rest ih =>
      obtain ⟨f₁, extended, built⟩ := Option.bind_eq_some_iff.mp built
      obtain ⟨p, settled, rfl⟩ := Option.map_eq_some_iff.mp extended
      have assignment := (f.globals.readAssignment_eq_ok_iff p name line s₁ s₂).mpr ⟨value, raw, settled⟩
      rw [readStatements]
      split <;> rename_i h <;> cases head.symm.trans h
      simp only [plain, if_true, Bool.false_eq_true, if_false]
      split <;> rename_i h <;> cases assignment.symm.trans h
      exact ih _ built
    | handler s s₁ s₂ name line cs statements head handler commands rest ih =>
      have block := (noted_eq_ok_iff line (.inHandler name) _ _ _).mpr
        ((readHandler_eq_ok_iff f.protocols s₁ s₂ _).mpr ⟨cs, commands, rfl⟩)
      rw [readStatements]
      split <;> rename_i h <;> cases head.symm.trans h
      simp only [handler, if_true, Option.some.injEq, show ('\x7b' = '=') = False by decide, if_false]
      split <;> rename_i h <;> cases block.symm.trans h
      exact ih _ built
    | definition s s₁ s₂ s₃ name line after parameters items statements head plain opens opening body rest ih =>
      obtain ⟨f₁, extended, built⟩ := Option.bind_eq_some_iff.mp built
      obtain ⟨fresh, p, hp, rfl⟩ := (f.extend?_definition f₁ name line parameters items).mp extended
      have definition := (f.readDefinition_eq_ok_iff name line parameters s₂ s₃ p).mpr ⟨items, body, fresh, hp⟩
      have assigns : after ≠ some '=' := by
        rcases opens with rfl | rfl <;> decide
      rw [readStatements]
      split <;> rename_i h <;> cases head.symm.trans h
      simp only [assigns, plain, Bool.false_eq_true, if_false, Bool.or_eq_true, decide_eq_true_eq, opens, if_true]
      split <;> rename_i h <;> cases opening.symm.trans h
      split <;> rename_i h <;> cases definition.symm.trans h
      exact ih _ built

theorem ofSource_eq_ok_iff (source : Text) (file : Option Text) (f : ProtocolFile) :
    ofSource source file = .ok f ↔
      ∃ statements g, StatementsAt (.ofSource source) statements ∧ (empty file).build? statements = some g ∧
        f = { g with valid := true } := by
  rw [← readStatements_eq_none_iff, ofSource, read]
  cases (empty file).readStatements (.ofSource source) with
  | mk g failure => cases failure <;> simp

end ProtocolFile
end DeviceProtocol
