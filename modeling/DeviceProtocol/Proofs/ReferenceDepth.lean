import DeviceProtocol.Proofs.SettledReferences
import DeviceProtocol.Proofs.StorableStrings
set_option autoImplicit false

namespace DeviceProtocol

/-- If the result is a fault, its cause is of this kind. -/
def Blames {α : Type} (P : Cause → Prop) (r : Except Failure α) : Prop := ∀ f, r = .error (.fault f) → P f.cause

section

variable {α β : Type} {P : Cause → Prop}

theorem blames_ok (a : α) : Blames P (.ok a : Except Failure α) := by
  rintro f ⟨⟩

theorem blames_fault (f : Fault) (h : P f.cause) : Blames P (.error (.fault f) : Except Failure α) := by
  rintro _ ⟨⟩
  exact h

theorem blames_crash (c : Crash) : Blames P (.error (.crash c) : Except Failure α) := by
  rintro f ⟨⟩

theorem Blames.mono {Q : Cause → Prop} {r : Except Failure α} (h : Blames P r) (implies : ∀ c, P c → Q c) :
    Blames Q r :=
  fun f hf => implies f.cause (h f hf)

theorem Blames.bind {x : Except Failure α} {f : α → Except Failure β} (hx : Blames P x)
    (hf : ∀ a, x = .ok a → Blames P (f a)) : Blames P (x >>= f) := by
  cases x with
  | ok a => exact hf a rfl
  | error e =>
    rintro fault ⟨⟩
    exact hx fault rfl

theorem Blames.map {r : Except Failure α} (h : Blames P r) (g : α → β) : Blames P (r.map g) := by
  cases r with
  | ok a => exact blames_ok _
  | error e =>
    rintro f ⟨⟩
    exact h f rfl

theorem Blames.mapError {r : Except Failure α} (h : Blames P r) (g : Fault → Fault)
    (keeps : ∀ f, (g f).cause = f.cause) : Blames P (r.mapError (·.mapFault g)) := by
  cases r with
  | ok a => exact blames_ok a
  | error e =>
    cases e with
    | fault f =>
      rintro _ ⟨⟩
      rw [keeps]
      exact h f rfl
    | crash c => exact blames_crash c

theorem blames_of_causes {r : Except Cause α} (g : Cause → Fault) (keeps : ∀ c, (g c).cause = c)
    (h : ∀ c, r = .error c → P c) : Blames P (r.mapError fun c => .fault (g c)) := by
  cases r with
  | ok a => exact blames_ok a
  | error c =>
    refine blames_fault _ ?_
    rw [keeps]
    exact h c rfl

namespace Traced

theorem blames_bind {x : Traced α} {f : α → Traced β} (hx : Blames P x.result)
    (hf : ∀ a, x.result = .ok a → Blames P (f a).result) : Blames P (x >>= f).result := by
  rw [result_bind]
  exact hx.bind hf

theorem blames_located {r : Except Failure α} (h : Blames P r) (line : Int) (file : Option Text) :
    Blames P (located line file r).result :=
  h.mapError _ fun _ => rfl

theorem blames_flatMap {f : α → Traced (List β)} (as : List α) (h : ∀ a ∈ as, Blames P (f a).result) :
    Blames P (flatMap f as).result := by
  induction as with
  | nil => exact blames_ok []
  | cons a as ih =>
    rw [List.forall_mem_cons] at h
    exact blames_bind h.1 fun front _ => blames_bind (ih h.2) fun back _ => blames_ok _

theorem blames_forAll {f : α → Traced β} (as : List α) (h : ∀ a ∈ as, Blames P (f a).result) :
    Blames P (forAll f as).result := by
  induction as with
  | nil => exact blames_ok []
  | cons a as ih =>
    rw [List.forall_mem_cons] at h
    exact blames_bind h.1 fun b _ => blames_bind (ih h.2) fun bs _ => blames_ok _

end Traced

theorem requireFewDigits_blames (digits : Text) : Blames P (requireFewDigits digits) := by
  unfold requireFewDigits
  split
  · exact blames_crash _
  · exact blames_ok _

theorem Text.integer_blames (s : Text) : Blames P s.integer :=
  (requireFewDigits_blames _).bind fun _ _ => blames_ok _

end

def FaultKind.isUsual : FaultKind → Bool
  | .recursionDepth | .fileNotFound | .invalidFile => false
  | _ => true

def Cause.isUsual : Cause → Bool
  | .backslashAtEnd => false
  | c => c.kind.isUsual

/-- A cause of a usual kind, other than a string that ends with a backslash. -/
def Cause.Usual (c : Cause) : Prop := c.isUsual = true

theorem Cause.Usual.of_kind {c : Cause} (h : c.isUsual = true) : c.Usual := h

theorem Cause.Usual.kind {c : Cause} (h : c.Usual) : c.kind.isUsual = true := by
  unfold Usual isUsual at h
  split at h
  · cases h
  · exact h

def Cause.Shallow (c : Cause) : Prop := c.kind ≠ .recursionDepth

theorem Cause.Usual.shallow {c : Cause} (h : c.Usual) : c.Shallow := by
  intro deep
  have kind := h.kind
  rw [deep] at kind
  cases kind

namespace Protocol

variable (p : Protocol)

/-- So many steps are enough to replace the token, the references in what it stands for, and so on. -/
def DepthWithin : Nat → Token → Prop
  | 0, t => t.kind ≠ .reference
  | n + 1, t => t.kind = .reference → ∀ value, (p.resolve t).result = .ok value → ∀ u ∈ value, DepthWithin n u

variable {p}

theorem DepthWithin.mono {n : Nat} {t : Token} (h : p.DepthWithin n t) (m : Nat) (le : n ≤ m) :
    p.DepthWithin m t := by
  induction n generalizing m t with
  | zero =>
    cases m with
    | zero => exact h
    | succ m => exact fun reference => absurd reference h
  | succ n ih =>
    cases m with
    | zero => exact absurd le (Nat.not_succ_le_zero n)
    | succ m =>
      intro reference value resolved u hu
      exact ih (h reference value resolved u hu) m (Nat.le_of_succ_le_succ le)

theorem depthWithin_positional (t : Token) (h : t.kind = .reference → p.Positional t.text) : p.DepthWithin 1 t := by
  intro reference value resolved u hu inner
  exact (resolve_positional t (h reference)).result value resolved u hu inner

theorem depthWithin_plain (hp : p.Settled) (t : Token) (h : t.kind = .reference → PlainName t.text) :
    p.DepthWithin 2 t := by
  intro reference value resolved u hu
  exact depthWithin_positional u ((resolve_settled hp t (h reference)).result value resolved u hu)

theorem parameterIndex_usual (name : Text) : Blames Cause.Usual (p.parameterIndex name) := by
  unfold parameterIndex
  split
  · split
    · split
      · exact blames_ok _
      · exact blames_crash _
    · exact blames_ok _
  · exact blames_ok _

theorem resolve_usual (t : Token) : Blames Cause.Usual (p.resolve t).result := by
  refine Traced.blames_bind (parameterIndex_usual t.text) fun i _ => ?_
  cases i with
  | some i =>
    dsimp only
    split
    · exact blames_crash _
    · split
      · exact blames_fault _ (.of_kind rfl)
      · split
        · exact blames_ok _
        · exact blames_ok _
  | none =>
    have consulted : Blames Cause.Usual (p.consult t.text).result := by
      rw [consult_result]
      exact blames_ok _
    refine Traced.blames_bind consulted fun b _ => ?_
    cases b with
    | none => exact blames_fault _ (.of_kind rfl)
    | some b => exact blames_ok _

theorem numberText_usual (ts : List Token) : Blames Cause.Usual (p.numberText ts).result := by
  induction ts with
  | nil => exact blames_ok _
  | cons t ts ih =>
    rw [numberText]
    split
    · exact Traced.blames_bind (resolve_usual t) fun _ _ => Traced.blames_bind ih fun _ _ => blames_ok _
    · split
      · exact Traced.blames_bind ih fun _ _ => blames_ok _
      · exact blames_ok _

theorem numberValue_usual (text : Text) (limit : Int) : Blames Cause.Usual (numberValue text limit) := by
  refine text.integer_blames.bind fun r _ => ?_
  dsimp only
  split
  · exact blames_fault _ (.of_kind rfl)
  · split
    · exact blames_fault _ (.of_kind rfl)
    · split
      · exact blames_fault _ (.of_kind rfl)
      · split
        · exact blames_fault _ (.of_kind rfl)
        · exact blames_ok _

theorem compileNumber_usual (a : Arguments) (limit : Int) : Blames Cause.Usual (p.compileNumber a limit).result := by
  refine Traced.blames_bind (numberText_usual a.rest) ?_
  rintro ⟨text, count⟩ _
  exact Traced.blames_bind (Traced.blames_located (numberValue_usual text limit) _ _) fun _ _ => blames_ok _

theorem commandNumber_usual (a : Arguments) : Blames Cause.Usual (p.commandNumber a).result := by
  refine Traced.blames_bind (compileNumber_usual a maxNumber) ?_
  rintro ⟨n, b⟩ _
  refine Traced.blames_bind ?_ fun _ _ => blames_ok _
  cases hn : Operand.word n with
  | ok word => exact blames_ok word
  | error e => exact blames_crash _

theorem eventOperands_usual (a : Arguments) : Blames Cause.Usual (p.eventOperands a).result := by
  have mask : Blames Cause.Usual (p.eventMask a).result := by
    rw [eventMask]
    split
    · exact blames_ok _
    · refine Traced.blames_bind (commandNumber_usual _) fun r _ => ?_
      dsimp only
      split
      · exact blames_ok _
      · exact blames_fault _ (.of_kind rfl)
  refine Traced.blames_bind mask fun r _ => ?_
  dsimp only
  split
  · exact blames_ok _
  · exact Traced.blames_bind (commandNumber_usual _) fun _ _ => blames_ok _

end Protocol

namespace Cell

theorem ofValue_blames {P : Cause → Prop} (value : Nat) : Blames P (ofValue value) := by
  unfold ofValue
  split
  · exact blames_ok _
  · exact blames_crash _

theorem ofNumber_blames {P : Cause → Prop} (value length : Nat) : Blames P (ofNumber value length) :=
  (ofValue_blames value).map _

theorem escape_usual (c : Char) (cs : Text) : Blames Cause.Usual (escape (c :: cs)) := by
  unfold escape
  split
  · next nothing => cases nothing
  · exact blames_ok _
  · exact blames_ok _
  · dsimp only
    split
    · exact blames_fault _ (.of_kind rfl)
    · exact ofNumber_blames _ _
  · dsimp only
    split
    · exact blames_fault _ (.of_kind rfl)
    · exact ofNumber_blames _ _
  · split
    · exact blames_ok _
    · split
      · dsimp only
        split
        · exact blames_fault _ (.of_kind rfl)
        · exact ofNumber_blames _ _
      · split
        · exact blames_crash _
        · exact blames_ok _

theorem ofQuoted_blames {P : Cause → Prop} (usual : ∀ c, c.Usual → P c) (bare : P .backslashAtEnd) (text : Text) :
    Blames P (ofQuoted text) := by
  have escaped (cs : Text) : Blames P (escape cs) := by
    cases cs with
    | nil => exact blames_fault _ bare
    | cons c cs => exact (escape_usual c cs).mono usual
  fun_induction ofQuoted text with
  | case1 => exact blames_ok _
  | case2 => exact blames_fault _ (usual _ (.of_kind rfl))
  | case3 cs allowed ih => exact (escaped cs).bind fun r _ => (ih r.2).bind fun _ _ => blames_ok _
  | case4 c cs allowed other ih => exact ih.bind fun _ _ => blames_ok _

theorem ofQuoted_shallow (text : Text) : Blames Cause.Shallow (ofQuoted text) :=
  ofQuoted_blames (fun _ => Cause.Usual.shallow) (show FaultKind.malformed ≠ .recursionDepth by decide) text

end Cell

namespace Format

theorem numberValue_usual (ds : Text) : Blames Cause.Usual (numberValue ds) := by
  refine (requireFewDigits_blames ds).bind fun _ _ => ?_
  split
  · exact blames_ok _
  · exact blames_crash _

theorem info_usual (conversion : Char) (source rest : Text) : Blames Cause.Usual (info conversion source rest) := by
  unfold info
  split
  · unfold charSet
    dsimp only
    split
    · exact blames_ok _
    · exact blames_fault _ (.of_kind rfl)
  · rw [choices]
    split
    · split
      · exact blames_fault _ (.of_kind rfl)
      · exact blames_ok _
    · exact blames_fault _ (.of_kind rfl)
  · rw [checksum]
    split
    · dsimp only
      split
      · exact blames_ok _
      · exact blames_fault _ (.of_kind rfl)
    · exact blames_fault _ (.of_kind rfl)
  · exact blames_ok _

theorem standard_usual (source : Text) (mode : Mode) : Blames Cause.Usual (standard source mode) := by
  have precise (cs : Text) : Blames Cause.Usual (precision cs) := by
    unfold precision
    split
    · exact (numberValue_usual _).bind fun _ _ => blames_ok _
    · exact blames_ok _
  unfold standard
  split
  · refine (numberValue_usual _).bind fun _ _ => (precise _).bind ?_
    rintro ⟨precision, rest⟩ _
    dsimp only
    split
    · exact blames_fault _ (.of_kind rfl)
    · split
      · exact blames_fault _ (.of_kind rfl)
      · split
        · exact blames_fault _ (.of_kind rfl)
        · split
          · exact blames_fault _ (.of_kind rfl)
          · exact (info_usual _ _ _).bind fun _ _ => blames_ok _
  · exact blames_fault _ (.of_kind rfl)

theorem standard_shallow (source : Text) (mode : Mode) : Blames Cause.Shallow (standard source mode) :=
  (standard_usual source mode).mono fun _ => Cause.Usual.shallow

end Format

theorem mem_of_mem_stringItems (ts : List Token) (t : Token) (h : .token t ∈ stringItems ts) : t ∈ ts := by
  fun_induction stringItems ts with
  | case1 => cases h
  | case2 u =>
    obtain rfl : t = u := by simpa using h
    exact List.mem_cons_self
  | case3 u v ts _ ih =>
    rcases List.mem_cons.mp h with h | h
    · cases h
    · exact List.mem_cons_of_mem _ (List.mem_cons_of_mem _ (ih h))
  | case4 u v ts _ ih =>
    rcases List.mem_cons.mp h with h | h
    · cases h
      exact List.mem_cons_self
    · exact List.mem_cons_of_mem _ (ih h)

namespace Protocol

variable {p : Protocol} {P : Cause → Prop} {limit : Int}

/-- So many steps deep, the token does not end in a fault of another kind than this: neither as a string, nor as a
reference that is nested too deeply, nor in what it stands for. -/
def Admits (p : Protocol) (P : Cause → Prop) (limit : Int) : Nat → Token → Prop
  | 0, t => (t.kind = .string → Blames P (Cell.ofQuoted t.text)) ∧ (t.kind = .reference → P (.nestedTooDeep limit))
  | n + 1, t => (t.kind = .string → Blames P (Cell.ofQuoted t.text)) ∧
      (t.kind = .reference → ∀ value, (p.resolve t).result = .ok value → ∀ u ∈ value, p.Admits P limit n u)

theorem Admits.string {n : Nat} {t : Token} (h : p.Admits P limit n t) (string : t.kind = .string) :
    Blames P (Cell.ofQuoted t.text) := by
  cases n with
  | zero => exact h.1 string
  | succ n => exact h.1 string

theorem DepthWithin.admits {n : Nat} {t : Token} (h : p.DepthWithin n t)
    (strings : ∀ text, Blames P (Cell.ofQuoted text)) : p.Admits P limit n t := by
  induction n generalizing t with
  | zero => exact ⟨fun _ => strings t.text, fun reference => absurd reference h⟩
  | succ n ih =>
    exact ⟨fun _ => strings t.text, fun reference value resolved u hu => ih (h reference value resolved u hu)⟩

theorem admits_of_causes (strings : ∀ text, Blames P (Cell.ofQuoted text)) (deep : P (.nestedTooDeep limit)) (n : Nat)
    (t : Token) : p.Admits P limit n t := by
  induction n generalizing t with
  | zero => exact ⟨fun _ => strings t.text, fun _ => deep⟩
  | succ n ih => exact ⟨fun _ => strings t.text, fun _ _ _ u _ => ih u⟩

end Protocol

namespace Compiler

theorem byteCell_usual (text : Text) : Blames Cause.Usual (byteCell text) := by
  refine text.integer_blames.bind fun r _ => ?_
  split
  · split
    · exact blames_crash _
    · exact blames_fault _ (.of_kind rfl)
  · split
    · exact blames_fault _ (.of_kind rfl)
    · split
      · exact blames_fault _ (.of_kind rfl)
      · exact Cell.ofValue_blames _

theorem wordCells_usual (mode : Mode) (text : Text) : Blames Cause.Usual (wordCells mode text) := by
  unfold wordCells
  split
  · exact blames_ok _
  · split
    · exact (byteCell_usual text).map _
    · split
      · split
        · exact blames_ok _
        · exact blames_fault _ (.of_kind rfl)
      · split
        · exact blames_ok _
        · exact blames_fault _ (.of_kind rfl)

variable {k : Compiler} {p : Protocol} {P : Cause → Prop}

theorem encode_blames (usual : ∀ c, c.Usual → P c) (mode : Mode) (depth : Nat) (i : StringItem)
    (h : ∀ t, i = .token t → p.Admits P k.depthLimit depth t) : Blames P (k.encode p mode depth i).result := by
  induction depth using Nat.strongRecOn generalizing i with
  | ind depth ih =>
    cases i with
    | signed sign number =>
      rw [encode]
      exact (Traced.blames_located ((byteCell_usual _).map _) _ _).mono usual
    | token t =>
      rw [encode]
      split
      · next string => exact Traced.blames_located ((h t rfl).string string) _ _
      · next reference =>
        refine Traced.blames_bind ((Protocol.resolve_usual t).mono usual) fun value resolved => ?_
        cases depth with
        | zero => exact blames_fault _ ((h t rfl).2 reference)
        | succ depth =>
          refine Traced.blames_flatMap _ fun i hi => ih depth (Nat.lt_succ_self depth) i ?_
          rintro u rfl
          exact (h t rfl).2 reference value resolved u (mem_of_mem_stringItems value u hi)
      · exact blames_ok _
      · exact (Traced.blames_located (wordCells_usual mode t.text) _ _).mono usual
      · split
        · exact blames_ok _
        · exact blames_fault _ (usual _ (.of_kind rfl))
      · exact blames_fault _ (usual _ (.of_kind rfl))

theorem splitField_usual (source : Text) (c : Cause) (h : k.splitField source = .error c) : c.Usual := by
  unfold splitField at h
  split at h
  · split at h
    · cases h
      exact .of_kind rfl
    · split at h
      · cases h
        exact .of_kind rfl
      · split at h
        · cases h
          exact .of_kind rfl
        · cases h
  · cases h

theorem illegal?_usual (name : Option Text) (d : Descriptor) (c : Cause) (h : illegal? name d = some c) :
    c.Usual := by
  unfold illegal? at h
  split at h
  · cases h
    exact .of_kind rfl
  · split at h
    · cases h
    · split at h
      · cases h
        exact .of_kind rfl
      · split at h
        · cases h
          exact .of_kind rfl
        · cases h

theorem compileFormats_blames (usual : ∀ c, c.Usual → P c) (hk : ∀ text mode, Blames P (k.converter text mode))
    (line : Int) (file : Option Text) (mode : Mode) (position : Nat) (cells : List Cell) :
    Blames P (k.compileFormats line file mode position cells) := by
  have format (source : Text) : Blames P (k.compileFormat line file mode source) := by
    refine (blames_of_causes _ (fun _ => rfl) fun c hc => usual c (k.splitField_usual source c hc)).bind ?_
    rintro ⟨target, text⟩ _
    refine (hk text mode).bind fun conversion _ => ?_
    dsimp only
    split
    · next c hc => exact blames_fault _ (usual c (illegal?_usual _ _ c hc))
    · exact blames_ok _
  fun_induction k.compileFormats line file mode position cells with
  | case1 => exact blames_ok _
  | case2 position rest ih => exact ih.bind fun _ _ => blames_ok _
  | case3 position rest _ source ih =>
    have noted := (format source).mapError
      (fun f => (f.locate (some line) file).addNote (some line) (.inFormat source)) fun _ => rfl
    refine noted.bind ?_
    rintro ⟨field, length⟩ _
    exact (ih length).bind fun _ _ => blames_ok _
  | case4 position cell rest _ _ ih => exact ih.bind fun _ _ => blames_ok _

def Reaches (k : Compiler) (p : Protocol) (ts : List Token) : Prop :=
  ∀ t ∈ ts, p.DepthWithin k.depthLimit.toNat t

def Admits (k : Compiler) (p : Protocol) (P : Cause → Prop) (ts : List Token) : Prop :=
  ∀ t ∈ ts, p.Admits P k.depthLimit k.depthLimit.toNat t

theorem Admits.subset {ts us : List Token} (h : k.Admits p P ts) (sub : us ⊆ ts) : k.Admits p P us :=
  fun t ht => h t (sub ht)

theorem Reaches.admits {ts : List Token} (h : k.Reaches p ts) (strings : ∀ text, Blames P (Cell.ofQuoted text)) :
    k.Admits p P ts :=
  fun t ht => (h t ht).admits strings

section

variable (usual : ∀ c, c.Usual → P c) (hk : ∀ text mode, Blames P (k.converter text mode))
include usual hk

theorem compileLines_blames (mode : Mode) (position : Nat) (runs : List (List StringItem))
    (h : ∀ t, .token t ∈ runs.flatten → p.Admits P k.depthLimit k.depthLimit.toNat t) :
    Blames P (k.compileLines p mode position runs).result := by
  induction runs generalizing position with
  | nil => exact blames_ok _
  | cons run runs ih =>
    have one : Blames P (k.compileLine p mode position run).result := by
      refine Traced.blames_bind (Traced.blames_flatMap run fun i hi => ?_) fun cells _ => ?_
      · refine encode_blames usual mode _ i ?_
        rintro t rfl
        exact h t (List.mem_append_left _ hi)
      · split
        · exact blames_ok _
        · exact blames_ok _
        · exact compileFormats_blames usual hk _ _ _ position cells
    refine Traced.blames_bind one fun front _ => ?_
    exact Traced.blames_bind (ih _ fun t ht => h t (List.mem_append_right _ ht)) fun _ _ => blames_ok _

theorem compileString_blames (mode : Mode) (ts : List Token) (h : k.Admits p P ts) :
    Blames P (k.compileString p mode ts).result := by
  refine Traced.blames_bind (compileLines_blames usual hk mode 0 _ fun t ht => ?_) ?_
  · rw [lineRuns_flatten] at ht
    exact h t (mem_of_mem_stringItems ts t ht)
  · exact fun _ _ => blames_ok _

theorem compileCommand_blames (segment : Token × List Token) (h : k.Admits p P segment.2) :
    Blames P (k.compileCommand p segment).result := by
  obtain ⟨word, arguments⟩ := segment
  have named (a : Arguments) (ha : k.Admits p P a.rest) :
      Blames P (k.compileNamed p word.text word.line a).result := by
    rw [compileNamed]
    split
    · exact Traced.blames_bind (compileString_blames usual hk _ a.rest ha) fun _ _ => blames_ok _
    · split
      · exact Traced.blames_bind ((Protocol.commandNumber_usual a).mono usual) fun _ _ => blames_ok _
      · split
        · exact Traced.blames_bind ((Protocol.eventOperands_usual a).mono usual) fun _ _ => blames_ok _
        · split
          · exact blames_ok _
          · exact blames_fault _ (usual _ (.of_kind rfl))
  have rest := h.subset (Arguments.ofTokens arguments).rest_skipBlanks
  refine Traced.blames_bind ((named _ rest).mapError _ fun _ => rfl) ?_
  rintro ⟨command, a⟩ _
  dsimp only
  split
  · exact blames_ok _
  · exact blames_fault _ (usual _ (.of_kind rfl))

theorem compileCommands_blames (ts : List Token) (h : k.Admits p P ts) :
    Blames P (k.compileCommands p ts).result := by
  rw [compileCommands]
  split
  · exact blames_fault _ (usual _ (.of_kind rfl))
  · refine Traced.blames_bind (Traced.blames_forAll (commandSegments ts) fun segment hs => ?_) fun _ _ => blames_ok _
    exact compileCommand_blames usual hk segment (h.subset (commandSegments_subset ts segment hs))

theorem ownProgram_blames (h : k.Admits p P p.commands.value) : Blames P (k.ownProgram p).result := by
  refine Traced.blames_bind (blames_ok ()) fun _ _ => ?_
  split
  · exact blames_ok _
  · exact Traced.blames_bind ((compileCommands_blames usual hk _ h).mapError _ fun _ => rfl) fun _ _ => blames_ok _

theorem handlerProgram_blames (name : Text) (h : ∀ b ∈ p.bindings, k.Admits p P b.value) :
    Blames P (k.handlerProgram p name).result := by
  rw [handlerProgram, Traced.result_bind, Protocol.consult_result]
  cases found : p.lookup name with
  | none => exact blames_ok _
  | some b =>
    have value := h b (p.mem_of_lookup name b found)
    show Blames _ (ite _ _ _ : Traced (Option Program)).result
    split
    · exact blames_ok _
    · refine Traced.blames_bind ?_ fun _ _ => blames_ok _
      exact (compileCommands_blames usual hk _ value).mapError _ fun _ => rfl

theorem stringVariable_blames (name : Text) (h : ∀ b ∈ p.bindings, k.Admits p P b.value) :
    Blames P (k.stringVariable p name).result := by
  rw [stringVariable, Traced.result_bind, Protocol.consult_result]
  cases found : p.lookup name with
  | none => exact blames_ok _
  | some b =>
    have value := h b (p.mem_of_lookup name b found)
    -- fields are off in the value of a variable, which changes neither the depth limit nor the converter
    have plain : Blames P ({ k with fields := none }.compileString p .plain b.value).result :=
      compileString_blames (k := { k with fields := none }) usual hk .plain b.value value
    exact Traced.blames_bind (plain.mapError _ fun _ => rfl) fun _ _ => blames_ok _

end

variable (hk : ∀ text mode, Blames Cause.Shallow (k.converter text mode))
include hk

theorem compileString_shallow (mode : Mode) (ts : List Token) (h : k.Reaches p ts) :
    Blames Cause.Shallow (k.compileString p mode ts).result :=
  compileString_blames (fun _ => Cause.Usual.shallow) hk mode ts (h.admits Cell.ofQuoted_shallow)

theorem ownProgram_shallow (h : k.Reaches p p.commands.value) : Blames Cause.Shallow (k.ownProgram p).result :=
  ownProgram_blames (fun _ => Cause.Usual.shallow) hk (h.admits Cell.ofQuoted_shallow)

theorem handlerProgram_shallow (name : Text) (h : ∀ b ∈ p.bindings, k.Reaches p b.value) :
    Blames Cause.Shallow (k.handlerProgram p name).result :=
  handlerProgram_blames (fun _ => Cause.Usual.shallow) hk name fun b hb => (h b hb).admits Cell.ofQuoted_shallow

theorem stringVariable_shallow (name : Text) (h : ∀ b ∈ p.bindings, k.Reaches p b.value) :
    Blames Cause.Shallow (k.stringVariable p name).result :=
  stringVariable_blames (fun _ => Cause.Usual.shallow) hk name fun b hb => (h b hb).admits Cell.ofQuoted_shallow

end Compiler

namespace ProtocolFile

/-- Reading a file leaves no reference in its variables but those to parameters, if no reference in it has an empty name
or that of a handler. Then no instance of its protocols nests references too deeply, at any limit from two on. -/
theorem ofSource_shallow (source : Text) (file : Option Text) (f : ProtocolFile) (statements : List Statement)
    (written : Scanner.StatementsAt (.ofSource source) statements)
    (plain : RefersTo PlainName (statements.flatMap Statement.values)) (hf : ofSource source file = .ok f) :
    f.globals.Settled ∧ (∀ t ∈ f.protocols, t.Settled) ∧
      ∀ (k : Compiler) (t : Protocol) (name : Text) (line : Int) (arguments : List Text),
        (∀ text mode, Blames Cause.Shallow (k.converter text mode)) → 2 ≤ k.depthLimit → t ∈ f.protocols →
        let p := t.copy name line arguments
        Blames Cause.Shallow (k.ownProgram p).result ∧
          (∀ handler, Blames Cause.Shallow (k.handlerProgram p handler).result) ∧
          (∀ variableName, Blames Cause.Shallow (k.stringVariable p variableName).result) ∧
          ∀ mode ts, ts ⊆ p.commands.value → Blames Cause.Shallow (k.compileString p mode ts).result := by
  obtain ⟨globals, protocols⟩ := ofSource_settled source file f statements written plain hf
  refine ⟨globals, protocols, ?_⟩
  intro k t name line arguments hk deep mem p
  have settled : p.Settled := protocols t mem
  have refers : p.Refers PlainName :=
    Protocol.copy_refers ((ofSource_refers source file f statements written plain hf).protocols t mem) _ _ _
  have reaches (ts : List Token) (h : RefersTo PlainName ts) : k.Reaches p ts := fun t ht =>
    (Protocol.depthWithin_plain settled t (h t ht)).mono _ (by omega)
  have bound (b : Binding) (hb : b ∈ p.bindings) : k.Reaches p b.value := reaches b.value (refers.bindings b hb)
  refine ⟨Compiler.ownProgram_shallow hk (reaches _ refers.commands), ?_, ?_, ?_⟩
  · exact fun handler => Compiler.handlerProgram_shallow hk handler bound
  · exact fun name => Compiler.stringVariable_shallow hk name bound
  · exact fun mode ts sub => Compiler.compileString_shallow hk mode ts (reaches ts (refers.commands.subset sub))

/-- The reference in the command needs both steps. -/
theorem ofSource_shallow_two :
    let source := "p(x) \x7b t = \"$x\"; out \"a$t\"; \x7d".toList
    let quoted (kind : TokenKind) (text : Text) : Token := ⟨kind, text, 1, some .double⟩
    let value := [quoted .string [], quoted .reference ['x'], quoted .string []]
    let arguments := [quoted .string ['a'], quoted .reference ['t'], quoted .string []]
    let p : Protocol := {
      name := ['p'], line := 1, self := some ['p'], parameters := [['x']], bindings := [⟨['t'], value, 1, false⟩]
      commands := ⟨[], ⟨.word, "out".toList, 1, none⟩ :: arguments ++ [⟨.terminator, [';'], 1, none⟩], 1, false⟩ }
    Scanner.StatementsAt (.ofSource source) [.definition ['p'] 1 [['x']] [
        .assignment ['t'] 1 (⟨.special, [' '], 1, none⟩ :: value),
        .command ⟨"out".toList, 1, false, arguments, 1⟩]] ∧
      p.Settled ∧
      Blames Cause.Shallow (({ depthLimit := 2 } : Compiler).ownProgram (p.copy "p(b)".toList 0 [['b']])).result ∧
      ¬ Blames Cause.Shallow (({ depthLimit := 1 } : Compiler).ownProgram (p.copy "p(b)".toList 0 [['b']])).result := by
  intro source quoted value arguments p
  have written : Scanner.StatementsAt (.ofSource source) [.definition ['p'] 1 [['x']] [
      .assignment ['t'] 1 (⟨.special, [' '], 1, none⟩ :: value),
      .command ⟨"out".toList, 1, false, arguments, 1⟩]] := by
    refine .definition _ { rest := "x) \x7b t = \"$x\"; out \"a$t\"; \x7d".toList }
      { rest := " t = \"$x\"; out \"a$t\"; \x7d".toList } { rest := [] } ['p'] 1 (some '(') [['x']] _ [] ?_ ?_
      (.inr rfl) ?_ ?_ (.done _ { rest := [] } ?_)
    case refine_4 =>
      refine .assignment _ { rest := " \"$x\"; out \"a$t\"; \x7d".toList } { rest := " out \"a$t\"; \x7d".toList }
        _ _ _ _ _ ?_ ?_ ?_ (.command _ _ _ _ _
          (.intro _ { rest := "a$t\"; \x7d".toList } { rest := " \x7d".toList } _ 1 (some '"') _ ?_ ?_ ?_ ?_ ?_)
          (.close _ _ ?_))
      all_goals decide +kernel
    all_goals decide +kernel
  have read : ofSource source none = .ok { protocols := [p], valid := true } := by decide +kernel
  obtain ⟨-, settled, shallow⟩ := ofSource_shallow source none _ _ written (by decide +kernel) read
  refine ⟨written, settled p List.mem_cons_self, ?_, ?_⟩
  · exact (shallow { depthLimit := 2 } p _ 0 [['b']] Format.standard_shallow (by decide) List.mem_cons_self).1
  · intro h
    refine h ⟨.nestedTooDeep 1, some 1, none, [(some 1, .inCommand "out".toList), (some 1, .inProtocol "p(b)".toList)]⟩
      ?_ rfl
    decide +kernel

end ProtocolFile
end DeviceProtocol
