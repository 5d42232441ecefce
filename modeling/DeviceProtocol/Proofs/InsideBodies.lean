import DeviceProtocol.Proofs.LaterLines
import DeviceProtocol.Proofs.Lines
set_option autoImplicit false

namespace DeviceProtocol

namespace Scanner

inductive ItemAt : Scanner → BodyItem → Scanner → Prop
  | assignment (s s₁ s' : Scanner) (name : Text) (line : Int) (value : List Token)
      (head : s.readHead false = .ok (.named name line (some '=')) s₁) (plain : isHandlerName name = false)
      (tokens : s₁.readRawValue = (value, .ok () s')) : ItemAt s (.assignment name line value) s'
  | handler (s s₁ s' : Scanner) (name : Text) (line : Int) (cs : List WrittenCommand)
      (head : s.readHead false = .ok (.named name line (some '\x7b')) s₁) (handler : isHandlerName name = true)
      (commands : HandlerAt s₁ cs s') : ItemAt s (.handler name line cs) s'
  | command (s s' : Scanner) (c : WrittenCommand) (written : CommandAt s c s') : ItemAt s (.command c) s'

theorem bodyAt_cons_iff (s s' : Scanner) (item : BodyItem) (items : List BodyItem) :
    BodyAt s (item :: items) s' ↔ ∃ s₁, ItemAt s item s₁ ∧ BodyAt s₁ items s' := by
  constructor
  · intro h
    cases h with
    | assignment _ s₁ s₂ _ name line value _ head plain tokens rest =>
      exact ⟨s₂, .assignment s s₁ s₂ name line value head plain tokens, rest⟩
    | handler _ s₁ s₂ _ name line cs _ head handler commands rest =>
      exact ⟨s₂, .handler s s₁ s₂ name line cs head handler commands, rest⟩
    | command _ s₁ _ c _ first rest => exact ⟨s₁, .command s s₁ c first, rest⟩
  · rintro ⟨s₂, first, rest⟩
    cases first with
    | assignment s₁ _ name line value head plain tokens =>
      exact .assignment s s₁ s₂ s' name line value items head plain tokens rest
    | handler s₁ _ name line cs head handler commands =>
      exact .handler s s₁ s₂ s' name line cs items head handler commands rest
    | command _ c written => exact .command s s₂ s' c items written rest

theorem ItemAt.unique {s s' s'' : Scanner} {item other : BodyItem} (h : ItemAt s item s') (h' : ItemAt s other s'') :
    item = other ∧ s' = s'' := by
  cases h with
  | assignment s₁ _ name line value head plain tokens =>
    cases h' with
    | assignment _ _ _ _ _ head' _ tokens' =>
      cases head.symm.trans head'
      cases tokens.symm.trans tokens'
      exact ⟨rfl, rfl⟩
    | handler _ _ _ _ _ head' => cases head.symm.trans head'
    | command _ _ written => exact absurd head (written.head_ne (by simp))
  | handler s₁ _ name line cs head handler commands =>
    cases h' with
    | assignment _ _ _ _ _ head' => cases head.symm.trans head'
    | handler _ _ _ _ _ head' _ commands' =>
      cases head.symm.trans head'
      obtain ⟨rfl, rfl⟩ := commands.unique commands'
      exact ⟨rfl, rfl⟩
    | command _ _ written => exact absurd head (written.head_ne (by simp))
  | command _ c written =>
    cases h' with
    | assignment _ _ _ _ _ head' => exact absurd head' (written.head_ne (by simp))
    | handler _ _ _ _ _ head' => exact absurd head' (written.head_ne (by simp))
    | command _ _ written' =>
      obtain ⟨rfl, rfl⟩ := written.unique written'
      exact ⟨rfl, rfl⟩

theorem ItemAt.ne_close {s s' s'' : Scanner} {item : BodyItem} (h : ItemAt s item s') :
    s.readHead false ≠ .ok .close s'' := by
  intro close
  cases h with
  | assignment _ _ _ _ _ head => cases head.symm.trans close
  | handler _ _ _ _ _ head => cases head.symm.trans close
  | command _ _ written => exact written.head_ne (by simp) close

theorem ItemAt.bodyAt_iff {s s₁ : Scanner} {item : BodyItem} (h : ItemAt s item s₁) (items : List BodyItem)
    (s' : Scanner) : BodyAt s items s' ↔ ∃ rest, items = item :: rest ∧ BodyAt s₁ rest s' := by
  constructor
  · intro body
    cases items with
    | nil =>
      cases body with
      | close _ _ head => exact absurd head h.ne_close
    | cons first rest =>
      obtain ⟨s₂, here, more⟩ := (bodyAt_cons_iff s s' first rest).mp body
      obtain ⟨rfl, rfl⟩ := h.unique here
      exact ⟨rest, rfl, more⟩
  · rintro ⟨rest, rfl, more⟩
    exact (bodyAt_cons_iff s s' item rest).mpr ⟨s₁, h, more⟩

theorem StatementAt.unique {s s' s'' : Scanner} {statement other : Statement} (h : StatementAt s statement s')
    (h' : StatementAt s other s'') : statement = other ∧ s' = s'' := by
  cases h with
  | assignment s₁ _ name line value head plain tokens =>
    cases h' with
    | assignment _ _ _ _ _ head' _ tokens' =>
      cases head.symm.trans head'
      cases tokens.symm.trans tokens'
      exact ⟨rfl, rfl⟩
    | handler _ _ _ _ _ head' => cases head.symm.trans head'
    | definition _ _ _ _ _ _ _ _ head' _ opens' =>
      cases head.symm.trans head'
      simp at opens'
  | handler s₁ _ name line cs head handler commands =>
    cases h' with
    | assignment _ _ _ _ _ head' => cases head.symm.trans head'
    | handler _ _ _ _ _ head' _ commands' =>
      cases head.symm.trans head'
      obtain ⟨rfl, rfl⟩ := commands.unique commands'
      exact ⟨rfl, rfl⟩
    | definition _ _ _ _ _ _ _ _ head' plain' =>
      cases head.symm.trans head'
      simp [handler] at plain'
  | definition s₁ s₂ _ name line after parameters items head plain opens opening body =>
    cases h' with
    | assignment _ _ _ _ _ head' =>
      cases head.symm.trans head'
      simp at opens
    | handler _ _ _ _ _ head' handler' =>
      cases head.symm.trans head'
      simp [handler'] at plain
    | definition _ _ _ _ _ _ _ _ head' _ _ opening' body' =>
      cases head.symm.trans head'
      cases opening.symm.trans opening'
      obtain ⟨rfl, rfl⟩ := body.unique body'
      exact ⟨rfl, rfl⟩

theorem StatementAt.ne_endOfFile {s s' s'' : Scanner} {statement : Statement} (h : StatementAt s statement s') :
    s.readHead true ≠ .ok .endOfFile s'' := by
  intro last
  cases h with
  | assignment _ _ _ _ _ head => cases head.symm.trans last
  | handler _ _ _ _ _ head => cases head.symm.trans last
  | definition _ _ _ _ _ _ _ _ head => cases head.symm.trans last

theorem StatementAt.statementsAt_iff {s s₁ : Scanner} {statement : Statement} (h : StatementAt s statement s₁)
    (statements : List Statement) :
    StatementsAt s statements ↔ ∃ rest, statements = statement :: rest ∧ StatementsAt s₁ rest := by
  constructor
  · intro source
    cases statements with
    | nil =>
      cases source with
      | done _ _ head => exact absurd head h.ne_endOfFile
    | cons first rest =>
      obtain ⟨s₂, here, more⟩ := (statementsAt_cons_iff s first rest).mp source
      obtain ⟨rfl, rfl⟩ := h.unique here
      exact ⟨rest, rfl, more⟩
  · rintro ⟨rest, rfl, more⟩
    exact (statementsAt_cons_iff s statement rest).mpr ⟨s₁, h, more⟩

/-- Statements or items stand here one behind the other, and this is where the last one ends. -/
inductive Passed {α : Type} (At : Scanner → α → Scanner → Prop) : Scanner → List α → Scanner → Prop
  | nil (s : Scanner) : Passed At s [] s
  | cons (s s₁ s' : Scanner) (a : α) (as : List α) (first : At s a s₁) (rest : Passed At s₁ as s') :
    Passed At s (a :: as) s'

namespace Passed

variable {α : Type} {At : Scanner → α → Scanner → Prop} {s s' : Scanner} {as : List α}

theorem map {g : Scanner → Scanner} (step : ∀ {s a s'}, At s a s' → At (g s) a (g s')) (h : Passed At s as s') :
    Passed At (g s) as (g s') := by
  induction h with
  | nil s => exact .nil (g s)
  | cons s s₁ s' a as first rest ih => exact .cons (g s) (g s₁) (g s') a as (step first) ih

theorem keeps {P : Scanner → Prop} (step : ∀ {s a s'}, At s a s' → P s → P s') (h : Passed At s as s') (start : P s) :
    P s' := by
  induction h with
  | nil s => exact start
  | cons s s₁ s' a as first rest ih => exact ih (step first start)

theorem goes_on {R : Scanner → List α → Prop}
    (step : ∀ s a s₁, At s a s₁ → ∀ l, R s l ↔ ∃ rest, l = a :: rest ∧ R s₁ rest) (h : Passed At s as s')
    (l : List α) : R s l ↔ ∃ rest, l = as ++ rest ∧ R s' rest := by
  induction h generalizing l with
  | nil s => simp
  | cons s s₁ s' a as first more ih =>
    rw [step s a s₁ first]
    constructor
    · rintro ⟨rest, rfl, here⟩
      obtain ⟨rest, rfl, there⟩ := (ih rest).mp here
      exact ⟨rest, rfl, there⟩
    · rintro ⟨rest, rfl, there⟩
      exact ⟨as ++ rest, rfl, (ih (as ++ rest)).mpr ⟨rest, rfl, there⟩⟩

end Passed

def Calm (s : Scanner) : Prop := s.quote = none ∧ s.escapedDollar = false

theorem Calm.dollarNext {s : Scanner} (h : s.Calm) : s.DollarNext := dollarNext_of_false h.2

theorem readToken_calm (set : Specials) (eofAllowed : Bool) (s s' : Scanner) (t : Token)
    (h : readToken set eofAllowed s = .ok t s') (bare : t.kind = .word ∨ t.kind = .special) (start : s.DollarNext) :
    s'.Calm := by
  have outside := readToken_quote set eofAllowed s s' t h bare
  exact ⟨outside, (readToken_dollarNext set eofAllowed s s' t start h).of_quote outside⟩

theorem readNonblank_calm (s : Scanner) (h : s.Calm) : s.readNonblank.2.Calm := by
  refine ⟨?_, ?_⟩
  · rw [readNonblank, readRaw_quote]
    exact h.1
  · rw [readNonblank, readRaw_escapedDollar]
    exact h.2

theorem readHead_calm (eofAllowed : Bool) (s s' : Scanner) (head : Head) (h : readHead eofAllowed s = .ok head s')
    (more : head ≠ .endOfFile) (start : s.DollarNext) : s'.Calm := by
  fun_induction readHead eofAllowed s with
  | case2 =>
    cases h
    exact absurd rfl more
  | case3 s t s₁ token _ _ ih => exact ih h (readToken_dollarNext _ _ s s₁ t start token)
  | case4 s t s₁ token _ _ close =>
    cases h
    exact readToken_calm _ _ s _ t token (.inr (isSpecial_kind close)) start
  | case7 s t s₁ token _ _ _ _ _ word =>
    cases h
    simp only [Bool.and_eq_true, decide_eq_true_eq] at word
    exact s₁.readNonblank_calm (readToken_calm _ _ s s₁ t token (.inl word.1) start)
  | _ => simp [fail] at h

theorem readParameters_calm (protocol : Text) (names parameters : List Text) (s s' : Scanner)
    (h : readParameters protocol names s = .ok parameters s') (start : s.DollarNext) : s'.Calm := by
  fun_induction readParameters protocol names s with
  | case3 names s t s₁ token close =>
    cases h
    exact readToken_calm _ _ s _ t token (.inr (isSpecial_kind close)) start
  | case4 names s t s₁ token _ _ ih => exact ih h (readToken_dollarNext _ _ s s₁ t start token)
  | case6 names s t s₁ token _ _ _ _ ih => exact ih h (readToken_dollarNext _ _ s s₁ t start token)
  | _ => simp [fail] at h

theorem readOpening_calm (name : Text) (after : Option Char) (parameters : List Text) (s s' : Scanner)
    (h : ProtocolFile.readOpening name after s = .ok parameters s') (start : s.Calm) : s'.Calm := by
  rw [ProtocolFile.readOpening] at h
  split at h
  · rw [readSignature] at h
    split at h
    · cases h
    · next ps s₁ read =>
      have calm := s₁.readNonblank_calm (readParameters_calm name [] ps s s₁ read start.dollarNext)
      split at h
      · next s₂ brace =>
        cases h
        rwa [brace] at calm
      · cases h
  · cases h
    exact start

theorem CommandAt.calm {s s' : Scanner} {c : WrittenCommand} (h : CommandAt s c s') (start : s.Calm) : s'.Calm := by
  cases h with
  | intro s₁ _ name line after arguments head assigns opens plain value =>
    have calm := readHead_calm _ s s₁ _ head (by simp) start.dollarNext
    have noted : (s₁.unread? after).escapedDollar = false := by
      cases after with
      | none => exact calm.2
      | some c => exact calm.2
    rw [readLazyValue] at value
    split at value
    · next ts s₂ read =>
      cases value
      exact readRawValue_outside _ s' (dollarNext_of_false noted) (by rw [read])
    · cases value

theorem HandlerAt.calm {s s' : Scanner} {cs : List WrittenCommand} (h : HandlerAt s cs s') (start : s.Calm) :
    s'.Calm := by
  induction h with
  | close s s' head => exact readHead_calm _ s s' _ head (by simp) start.dollarNext
  | command s s₁ s' c cs first rest ih => exact ih (first.calm start)

theorem ItemAt.calm {s s' : Scanner} {item : BodyItem} (h : ItemAt s item s') (start : s.Calm) : s'.Calm := by
  cases h with
  | assignment s₁ _ name line value head plain tokens =>
    have calm := readHead_calm _ s s₁ _ head (by simp) start.dollarNext
    exact readRawValue_outside s₁ s' calm.dollarNext (by rw [tokens])
  | handler s₁ _ name line cs head handler commands =>
    exact commands.calm (readHead_calm _ s s₁ _ head (by simp) start.dollarNext)
  | command _ c written => exact written.calm start

theorem BodyAt.calm {s s' : Scanner} {items : List BodyItem} (h : BodyAt s items s') (start : s.Calm) : s'.Calm := by
  induction items generalizing s with
  | nil =>
    cases h with
    | close _ _ head => exact readHead_calm _ s s' _ head (by simp) start.dollarNext
  | cons item items ih =>
    obtain ⟨s₁, first, rest⟩ := (bodyAt_cons_iff s s' item items).mp h
    exact ih rest (first.calm start)

theorem StatementAt.calm {s s' : Scanner} {statement : Statement} (h : StatementAt s statement s') (start : s.Calm) :
    s'.Calm := by
  cases h with
  | assignment s₁ _ name line value head plain tokens =>
    have calm := readHead_calm _ s s₁ _ head (by simp) start.dollarNext
    exact readRawValue_outside s₁ s' calm.dollarNext (by rw [tokens])
  | handler s₁ _ name line cs head handler commands =>
    exact commands.calm (readHead_calm _ s s₁ _ head (by simp) start.dollarNext)
  | definition s₁ s₂ _ name line after parameters items head plain opens opening body =>
    have calm := readHead_calm _ s s₁ _ head (by simp) start.dollarNext
    exact body.calm (readOpening_calm name after parameters s₁ s₂ opening calm)

/-- White space, comments up to the end of their line, and semicolons. -/
def idle : Bool → Text → Bool
  | comment, [] => !comment
  | true, c :: cs => if c = '\n' then idle false cs else idle true cs
  | false, c :: cs => if c = '#' then idle true cs else (isSpace c || c == ';') && idle false cs

theorem readHead_semicolon (eofAllowed : Bool) (cs : Text) (line : Int) :
    readHead eofAllowed { rest := ';' :: cs, line := line } = readHead eofAllowed { rest := cs, line := line } := by
  have token := readToken_special .structural eofAllowed { rest := ';' :: cs, line := line } ';' cs rfl rfl (by decide)
    (by decide) (by decide) rfl
  rw [readHead_of_token eofAllowed _ _ _ token]
  rfl

theorem readHead_skipGap_idle (eofAllowed comment : Bool) (w r : Text) (line : Int) (h : idle comment w = true) :
    readHead eofAllowed { rest := (skipGap comment (w ++ r) line).1, line := (skipGap comment (w ++ r) line).2 } =
      readHead eofAllowed { rest := r, line := line + w.count '\n' } := by
  have gap (cs : Text) (line : Int) :=
    readHead_afterGap eofAllowed ({ rest := cs, line := line } : Scanner) rfl
  induction w generalizing comment line with
  | nil =>
    cases comment with
    | true => cases h
    | false =>
      rw [List.count_nil, Int.natCast_zero, Int.add_zero]
      exact gap r line
  | cons c w ih =>
    by_cases newline : c = '\n'
    · subst newline
      have space : isSpace '\n' = true := by decide
      have next : line + ('\n' :: w).count '\n' = line + 1 + w.count '\n' := by
        rw [List.count_cons_self]
        omega
      have rest : idle false w = true := by
        cases comment with
        | true => exact h
        | false => simpa [idle, space] using h
      rw [next, ← ih false (line + 1) rest]
      cases comment with
      | true => rfl
      | false => simp only [List.cons_append, skipGap, space, if_true, if_false, show ('\n' = '#') = False by decide]
    · rw [List.count_cons_of_ne newline]
      cases comment with
      | true =>
        simp only [idle, newline, if_false] at h
        simp only [List.cons_append, skipGap, newline, if_false]
        exact ih true line h
      | false =>
        simp only [idle] at h
        simp only [List.cons_append, skipGap, newline, if_false]
        split at h
        · next comment =>
          simp only [comment, if_true]
          exact ih true line h
        · next comment =>
          rw [Bool.and_eq_true, Bool.or_eq_true, beq_iff_eq] at h
          by_cases space : isSpace c = true
          · simp only [comment, space, if_true, if_false]
            exact ih false line h.2
          · obtain rfl := h.1.resolve_left space
            simp only [comment, space, if_false]
            -- the gap ends at a semicolon, and behind it another one may start
            exact (readHead_semicolon eofAllowed (w ++ r) line).trans ((gap _ line).symm.trans (ih false line h.2))

theorem readHead_idle (eofAllowed : Bool) (w r : Text) (line : Int) (h : idle false w = true) :
    readHead eofAllowed { rest := w ++ r, line := line } =
      readHead eofAllowed { rest := r, line := line + w.count '\n' } :=
  (readHead_afterGap eofAllowed { rest := w ++ r, line := line } rfl).symm.trans
    (readHead_skipGap_idle eofAllowed false w r line h)

theorem BodyAt.of_readHead {s t s' : Scanner} {items : List BodyItem} (h : BodyAt s items s')
    (same : t.readHead false = s.readHead false) : BodyAt t items s' := by
  cases h with
  | close _ _ head => exact .close t s' (same.trans head)
  | assignment _ s₁ s₂ _ name line value items head plain tokens rest =>
    exact .assignment t s₁ s₂ s' name line value items (same.trans head) plain tokens rest
  | handler _ s₁ s₂ _ name line cs items head handler commands rest =>
    exact .handler t s₁ s₂ s' name line cs items (same.trans head) handler commands rest
  | command _ s₁ _ c items first rest =>
    cases first with
    | intro s₂ _ name line after arguments head assigns opens plain value =>
      exact .command t s₁ s' _ items (.intro t s₂ s₁ name line after arguments (same.trans head) assigns opens plain value)
        rest

theorem ItemAt.later (n : Int) {s s' : Scanner} {item : BodyItem} (h : ItemAt s item s') :
    ItemAt (s.later n) (item.later n) (s'.later n) := by
  cases h with
  | assignment s₁ _ name line value head plain tokens =>
    refine .assignment _ (s₁.later n) _ name (line + n) _ ?_ plain ?_
    · rw [readHead_later, head]
      rfl
    · rw [readRawValue_later, tokens]
      rfl
  | handler s₁ _ name line cs head handler commands =>
    refine .handler _ (s₁.later n) _ name (line + n) _ ?_ handler (commands.later n)
    rw [readHead_later, head]
    rfl
  | command _ c written => exact .command _ _ _ (written.later n)

theorem ItemAt.followedBy (b : Text) {s s' : Scanner} {item : BodyItem} (h : ItemAt s item s') :
    ItemAt (s.followedBy b) item (s'.followedBy b) := by
  cases h with
  | assignment s₁ _ name line value head plain tokens =>
    exact .assignment _ (s₁.followedBy b) _ name line value (readHead_named_followedBy b false s s₁ name line '=' head)
      plain (readRawValue_followedBy b s₁ s' value tokens)
  | handler s₁ _ name line cs head handler commands =>
    exact .handler _ (s₁.followedBy b) _ name line cs (readHead_named_followedBy b false s s₁ name line '\x7b' head)
      handler (commands.followedBy b)
  | command _ c written => exact .command _ _ c (written.followedBy b)

/-- The text ends in the body of a protocol, between two of its statements: statements are complete, then a definition
is open, and behind the last item of its body nothing is left that matters. -/
inductive EndsInBody (x : Text) : Prop
  | intro (s s₁ s₂ s' : Scanner) (before : List Statement) (name : Text) (line : Int) (after : Char)
      (parameters : List Text) (items : List BodyItem) (statements : Passed StatementAt (.ofSource x) before s)
      (head : s.readHead true = .ok (.named name line (some after)) s₁) (plain : isHandlerName name = false)
      (opens : after = '\x7b' ∨ after = '(')
      (opening : ProtocolFile.readOpening name (some after) s₁ = .ok parameters s₂)
      (body : Passed ItemAt s₂ items s') (boundary : idle false s'.rest = true) : EndsInBody x

theorem definition_iff {s s₁ s₂ : Scanner} {name : Text} {line : Int} {after : Option Char} {parameters : List Text}
    (head : s.readHead true = .ok (.named name line after) s₁) (plain : isHandlerName name = false)
    (opens : after = some '\x7b' ∨ after = some '(') (opening : ProtocolFile.readOpening name after s₁ = .ok parameters s₂)
    (statements : List Statement) :
    StatementsAt s statements ↔ ∃ items s' rest,
      statements = .definition name line parameters items :: rest ∧ BodyAt s₂ items s' ∧ StatementsAt s' rest := by
  constructor
  · intro h
    cases h with
    | done _ _ head' => cases head.symm.trans head'
    | assignment _ _ _ _ _ _ _ head' =>
      cases head.symm.trans head'
      simp at opens
    | handler _ _ _ _ _ _ _ head' handler' =>
      cases head.symm.trans head'
      simp [handler'] at plain
    | definition _ _ _ s₃ _ _ _ _ items rest head' _ _ opening' body' rest' =>
      cases head.symm.trans head'
      cases opening.symm.trans opening'
      exact ⟨items, s₃, rest, rfl, body', rest'⟩
  · rintro ⟨items, s', rest, rfl, body, more⟩
    exact .definition s s₁ s₂ s' name line after parameters items rest head plain opens opening body more

/-- The outline of a source that starts with such a text is the outline of the text, then that of what follows, which
stands so many lines further down. -/
theorem EndsInBody.statementsAt_iff {x : Text} (h : EndsInBody x) :
    ∃ (before : List Statement) (name : Text) (line : Int) (parameters : List Text) (items : List BodyItem) (n : Int),
      ∀ r statements, StatementsAt (.ofSource (x ++ r)) statements ↔ ∃ more s behind,
        statements = before ++ .definition name line parameters (items ++ more) :: behind ∧
          BodyAt ((Scanner.ofSource r).later n) more s ∧ StatementsAt s behind := by
  cases h with
  | intro s s₁ s₂ s' before name line after parameters items passed head plain opens opening body boundary =>
    refine ⟨before, name, line, parameters, items, s'.lastLine - 1, fun r statements => ?_⟩
    have passed' : Passed StatementAt (.ofSource (x ++ r)) before (s.followedBy r) :=
      passed.map (StatementAt.followedBy r)
    have head' := readHead_named_followedBy r true s s₁ name line after head
    have opening' := ProtocolFile.readOpening_followedBy r name (some after) parameters s₁ s₂ opening
    have body' : Passed ItemAt (s₂.followedBy r) items (s'.followedBy r) := body.map (ItemAt.followedBy r)
    have calm : s'.Calm := by
      have start : s.Calm := passed.keeps StatementAt.calm ⟨rfl, rfl⟩
      have opened := readOpening_calm _ _ _ s₁ s₂ opening (readHead_calm _ s s₁ _ head (by simp) start.dollarNext)
      exact body.keeps ItemAt.calm opened
    -- what is idle at the end of the text does not matter but for its lines
    have here : ((Scanner.ofSource r).later (s'.lastLine - 1)).readHead false = (s'.followedBy r).readHead false := by
      have left : s'.followedBy r = { rest := s'.rest ++ r, line := s'.line } := by
        obtain ⟨rest, line, quote, escapedDollar⟩ := s'
        obtain ⟨rfl, rfl⟩ := calm
        rfl
      have line : 1 + (s'.lastLine - 1) = s'.line + s'.rest.count '\n' := by
        rw [lastLine]
        omega
      rw [left, readHead_idle false s'.rest r s'.line boundary, ← line]
      rfl
    rw [passed'.goes_on fun _ _ _ first => first.statementsAt_iff]
    constructor
    · rintro ⟨rest, rfl, source⟩
      obtain ⟨all, s₃, behind, rfl, whole, more⟩ :=
        (definition_iff head' plain (by simpa using opens) opening' rest).mp source
      obtain ⟨more', rfl, there⟩ := (body'.goes_on (fun _ _ _ first l => first.bodyAt_iff l s₃) all).mp whole
      exact ⟨more', s₃, behind, rfl, there.of_readHead here, more⟩
    · rintro ⟨more, s₃, behind, rfl, there, rest⟩
      refine ⟨_, rfl, (definition_iff head' plain (by simpa using opens) opening' _).mpr ⟨_, s₃, behind, rfl, ?_, rest⟩⟩
      exact (body'.goes_on (fun _ _ _ first l => first.bodyAt_iff l s₃) _).mpr ⟨more, rfl, there.of_readHead here.symm⟩

end Scanner
end DeviceProtocol
