import DeviceProtocol.Proofs.OrderlyReading
import DeviceProtocol.Proofs.SentArguments
import DeviceProtocol.Proofs.StorablePrograms
import DeviceProtocol.Proofs.WrittenFiles
set_option autoImplicit false

namespace DeviceProtocol

variable {deep : Prop}

namespace Instantiation

theorem extend_subset (c : Char) (r : List Text × Text) (cs : Text) (hc : c ∈ cs) (h : ∀ a ∈ r.1, a ⊆ cs) :
    ∀ a ∈ (extend c r).1, a ⊆ cs := by
  obtain ⟨as, rest⟩ := r
  cases as with
  | nil => exact List.forall_mem_singleton.mpr (List.cons_subset.mpr ⟨hc, List.nil_subset _⟩)
  | cons a as =>
    rw [List.forall_mem_cons] at h
    exact List.forall_mem_cons.mpr ⟨List.cons_subset.mpr ⟨hc, h.1⟩, h.2⟩

theorem readArguments_subset (depth : Nat) (cs : Text) (r : List Text × Text) (h : readArguments depth cs = some r) :
    ∀ a ∈ r.1, a ⊆ cs := by
  have longer (c : Char) (ds : Text) (as : List Text) (h : ∀ a ∈ as, a ⊆ ds) : ∀ a ∈ as, a ⊆ c :: ds :=
    fun a ha => List.Subset.trans (h a ha) (List.subset_cons_self c ds)
  fun_induction readArguments depth cs generalizing r with
  | case1 => cases h
  | case2 depth c cs ih =>
    obtain ⟨q, hq, rfl⟩ := Option.map_eq_some_iff.mp h
    exact extend_subset c q _ (by simp) (longer _ _ _ (longer _ _ _ (ih q hq)))
  | case4 cs =>
    cases h
    simp
  | case6 cs ih =>
    obtain ⟨q, hq, rfl⟩ := Option.map_eq_some_iff.mp h
    exact List.forall_mem_cons.mpr ⟨List.nil_subset _, longer _ _ _ (ih q hq)⟩
  | case3 depth cs ih | case5 cs depth ih | case7 cs depth ih | case8 depth c cs _ _ _ _ ih =>
    obtain ⟨q, hq, rfl⟩ := Option.map_eq_some_iff.mp h
    exact extend_subset _ q _ List.mem_cons_self (longer _ _ _ (ih q hq))

theorem ofText_ascii (text : Text) (i : Instantiation) (ascii : AsciiDigits text) (h : ofText text = .ok i) :
    ∀ a ∈ i.arguments, AsciiDigits a := by
  rw [ofText] at h
  split at h
  · cases h
    simp
  · next name cs cut =>
    split at h
    · cases h
    · next arguments rest hr =>
      split at h
      · cases h
        intro a ha
        obtain ⟨b, hb, rfl⟩ := List.mem_map.mp ha
        have inside : AsciiDigits cs := by
          rw [Text.cutAt?_eq_some '(' text name cs cut, asciiDigits_append, asciiDigits_cons] at ascii
          exact ascii.2.2
        exact (inside.subset (readArguments_subset 0 cs _ hr b hb)).strip
      · cases h

end Instantiation

theorem ProtocolFile.instantiate_ascii (f : ProtocolFile) (text : Text) (p : Protocol) (hf : f.Ascii)
    (ascii : AsciiDigits text) (h : f.instantiate text = .ok p) : p.Ascii := by
  rw [instantiate] at h
  split at h
  · cases h
  · next i hi =>
    split at h
    · cases h
    · next t found =>
      cases h
      rw [template?] at found
      split at found
      · cases found
      · exact (hf.protocols t (mem_of_findIn found)).copy text 0 i.arguments ascii
          (Instantiation.ofText_ascii text i ascii hi)

theorem requireFewDigits_orderly (digits : Text) (decimal : ∀ c ∈ digits, isDecimalDigit c = true) :
    Orderly deep (fun _ => True) (requireFewDigits digits) := by
  unfold requireFewDigits
  split
  · next many => exact ⟨many, decimal⟩
  · trivial

theorem Text.integer_orderly (s : Text) : Orderly deep (fun _ => True) s.integer :=
  (requireFewDigits_orderly _ fun _ => mem_decimalDigits).bind fun _ _ => trivial

namespace Protocol

variable {p : Protocol}

theorem numberText_orderly (hp : p.Ascii) (ts : List Token) (h : AsciiTokens ts) :
    Orderly deep (fun _ => True) (p.numberText ts).result := by
  induction ts with
  | nil => trivial
  | cons t ts ih =>
    rw [asciiTokens_cons] at h
    rw [numberText]
    split
    · exact Traced.orderly_bind (resolve_orderly hp t h.1) fun _ _ => Traced.orderly_bind (ih h.2) fun _ _ => trivial
    · split
      · exact Traced.orderly_bind (ih h.2) fun _ _ => trivial
      · trivial

theorem numberValue_orderly (text : Text) (limit : Int) :
    Orderly deep (fun n : Nat => (n : Int) ≤ limit) (numberValue text limit) := by
  refine text.integer_orderly.bind fun literal _ => ?_
  dsimp only
  split
  · trivial
  · split
    · trivial
    · next nonneg =>
      split
      · trivial
      · split
        · trivial
        · next small =>
          rw [Int.not_lt] at nonneg small
          exact (Int.toNat_of_nonneg nonneg).symm ▸ small

theorem compileNumber_orderly (hp : p.Ascii) (a : Arguments) (limit : Int) (h : AsciiTokens a.rest) :
    Orderly deep (fun r => (r.1 : Int) ≤ limit ∧ AsciiTokens r.2.rest) (p.compileNumber a limit).result := by
  rw [compileNumber]
  refine Traced.orderly_bind (numberText_orderly hp a.rest h) ?_
  rintro ⟨text, count⟩ _
  refine Traced.orderly_bind ((numberValue_orderly text limit).mapFault _) fun n small => ?_
  exact ⟨small, h.subset (a.rest_advance count)⟩

theorem commandNumber_orderly (hp : p.Ascii) (a : Arguments) (h : AsciiTokens a.rest) :
    Orderly deep (fun r => AsciiTokens r.2.rest) (p.commandNumber a).result := by
  refine Traced.orderly_bind (compileNumber_orderly hp a maxNumber h) ?_
  rintro ⟨n, b⟩ ⟨small, rest⟩
  have word : Operand.word n = .ok (UInt32.ofNat n) := by
    refine if_neg ?_
    simp only [maxNumber] at small
    simp only [Bool.or_eq_true, decide_eq_true_eq]
    omega
  refine Traced.orderly_bind (Q := fun _ => True) ?_ fun _ _ => rest
  rw [word]
  trivial

theorem eventMask_orderly (hp : p.Ascii) (a : Arguments) (h : AsciiTokens a.rest) :
    Orderly deep (fun r => AsciiTokens r.2.rest) (p.eventMask a).result := by
  have opened := h.subset (a.rest_expect ['('])
  rw [eventMask]
  split
  · next heq =>
    rw [heq] at opened
    exact opened
  · next b heq =>
    rw [heq] at opened
    refine Traced.orderly_bind (commandNumber_orderly hp _ (opened.subset b.rest_skipBlanks)) ?_
    rintro ⟨mask, c⟩ hc
    have closed := AsciiTokens.subset hc (c.rest_expect [')'])
    dsimp only
    split
    · next heq =>
      rw [heq] at closed
      exact closed
    · exact Traced.orderly_fault _ _ _

theorem eventOperands_orderly (hp : p.Ascii) (a : Arguments) (h : AsciiTokens a.rest) :
    Orderly deep (fun _ => True) (p.eventOperands a).result := by
  rw [eventOperands]
  refine Traced.orderly_bind (eventMask_orderly hp a h) ?_
  rintro ⟨mask, b⟩ hb
  dsimp only
  split
  · trivial
  · have rest := AsciiTokens.subset hb b.rest_skipBlanks
    exact Traced.orderly_bind (commandNumber_orderly hp _ rest) fun _ _ => trivial

end Protocol

namespace Cell

def Ascii : Cell → Prop
  | char c => AsciiDigit c
  | _ => True

theorem ofNumber_orderly (value length : Nat) (small : value < 0x100) :
    Orderly deep (fun r => ∀ cell ∈ r.1, cell.Ascii) (ofNumber value length) := by
  rw [ofNumber_of_lt value length small]
  exact List.forall_mem_singleton.mpr trivial

theorem hexDigitValue_lt (c : Char) (hex : isHexDigit c = true) : hexDigitValue c < 0x10 :=
  forall_ascii (fun c => isHexDigit c = true → hexDigitValue c < 0x10) (by decide) c (ascii_of_isHexDigit c hex) hex

theorem digitsValue_hex_lt (cs : Text) : digitsValue 16 ((cs.take 2).takeWhile isHexDigit) < 0x100 := by
  have hex := List.all_eq_true.mp (List.all_takeWhile (p := isHexDigit) (l := cs.take 2))
  have length := (List.takeWhile_prefix isHexDigit (l := cs.take 2)).length_le
  rw [List.length_take] at length
  -- there are two digits at most
  match hds : (cs.take 2).takeWhile isHexDigit with
  | [] => decide
  | [c] =>
    have := hexDigitValue_lt c (hex c (by simp [hds]))
    simp only [digitsValue, List.foldl_cons, List.foldl_nil]
    omega
  | [c, d] =>
    have := hexDigitValue_lt c (hex c (by simp [hds]))
    have := hexDigitValue_lt d (hex d (by simp [hds]))
    simp only [digitsValue, List.foldl_cons, List.foldl_nil]
    omega
  | c :: d :: e :: ds =>
    rw [hds] at length
    simp only [List.length_cons] at length
    omega

theorem escape_orderly (text : Text) (h : AsciiDigits text) :
    Orderly deep (fun r => ∀ cell ∈ r.1, cell.Ascii) (escape text) := by
  unfold escape
  split
  · trivial
  · exact List.forall_mem_singleton.mpr trivial
  · exact List.forall_mem_singleton.mpr trivial
  · dsimp only
    split
    · trivial
    · next small => exact ofNumber_orderly _ _ (Nat.lt_succ_of_le (Nat.le_of_not_lt small))
  · next cs =>
    dsimp only
    split
    · trivial
    · exact ofNumber_orderly _ _ (digitsValue_hex_lt cs)
  · next c cs _ _ _ _ =>
    split
    · exact List.forall_mem_singleton.mpr trivial
    · split
      · dsimp only
        split
        · trivial
        · next small => exact ofNumber_orderly _ _ (Nat.lt_succ_of_le (Nat.le_of_not_lt small))
      · next undecimal =>
        split
        · next digit => exact absurd (((asciiDigits_cons ..).mp h).1.decimal digit).1 undecimal
        · intro cell hc
          obtain ⟨b, -, rfl⟩ := List.mem_map.mp hc
          trivial

theorem ofQuoted_orderly (text : Text) (h : AsciiDigits text) :
    Orderly deep (fun cells => ∀ cell ∈ cells, cell.Ascii) (ofQuoted text) := by
  fun_induction ofQuoted text with
  | case1 => exact fun _ hc => absurd hc (List.not_mem_nil)
  | case2 => trivial
  | case3 cs allowed ih =>
    have tail := ((asciiDigits_cons ..).mp h).2
    refine (escape_orderly cs tail).bind ?_
    rintro ⟨front, length⟩ hf
    refine (ih length (tail.subset (List.drop_subset length cs))).bind fun back hb => ?_
    exact List.forall_mem_append.mpr ⟨hf, hb⟩
  | case4 c cs allowed other ih =>
    rw [asciiDigits_cons] at h
    exact (ih h.2).bind fun back hb => List.forall_mem_cons.mpr ⟨h.1, hb⟩

theorem leadingChars_ascii (cells : List Cell) (h : ∀ cell ∈ cells, cell.Ascii) : AsciiDigits (leadingChars cells) := by
  fun_induction leadingChars cells with
  | case1 c cells ih =>
    rw [List.forall_mem_cons] at h
    exact (asciiDigits_cons ..).mpr ⟨h.1, ih h.2⟩
  | case2 => exact asciiDigits_nil

end Cell

namespace Format

theorem numberValue_orderly (ds : Text) (digits : ∀ c ∈ ds, isDigit c = true) (h : AsciiDigits ds) :
    Orderly deep (fun _ => True) (numberValue ds) := by
  have run (acc : Nat) : ∃ n, ds.foldlM (fun acc c => (decimalValue? c).map (10 * acc + ·)) acc = some n := by
    induction ds generalizing acc with
    | nil => exact ⟨acc, rfl⟩
    | cons c ds ih =>
      rw [List.forall_mem_cons] at digits
      rw [asciiDigits_cons] at h
      obtain ⟨d, hd⟩ := Option.isSome_iff_exists.mp (h.1.decimal digits.1).2
      rw [List.foldlM_cons, hd]
      exact ih digits.2 h.2 _
  obtain ⟨n, hn⟩ := run 0
  refine (requireFewDigits_orderly ds fun c mem => ((h c mem).decimal (digits c mem)).1).bind fun _ _ => ?_
  rw [decimal?, hn]
  trivial

theorem isDigit_of_mem_takeWhile (cs : Text) : ∀ c ∈ cs.takeWhile isDigit, isDigit c = true :=
  List.all_eq_true.mp List.all_takeWhile

theorem precision_orderly (cs : Text) (h : AsciiDigits cs) : Orderly deep (fun _ => True) (precision cs) := by
  unfold precision
  split
  · next cs =>
    have tail := ((asciiDigits_cons ..).mp h).2
    have digits := tail.subset (List.takeWhile_subset isDigit)
    exact (numberValue_orderly _ (isDigit_of_mem_takeWhile cs) digits).bind fun _ _ => trivial
  · trivial

theorem info_orderly (conversion : Char) (source rest : Text) :
    Orderly deep (fun _ => True) (info conversion source rest) := by
  unfold info
  split
  · unfold charSet
    dsimp only
    split
    · trivial
    · trivial
  · rw [choices]
    split
    · split
      · trivial
      · trivial
    · trivial
  · rw [checksum]
    split
    · dsimp only
      split
      · trivial
      · trivial
    · trivial
  · trivial

theorem standard_orderly (source : Text) (mode : Mode) (h : AsciiDigits source) :
    Orderly deep (fun _ => True) (standard source mode) := by
  unfold standard
  split
  · next cs =>
    have tail : AsciiDigits (cs.dropWhile isFlag) :=
      ((asciiDigits_cons ..).mp h).2.subset (List.dropWhile_subset _)
    refine (numberValue_orderly _ (isDigit_of_mem_takeWhile (cs.dropWhile isFlag))
      (tail.subset (List.takeWhile_subset _))).bind fun _ _ => ?_
    refine (precision_orderly _ (tail.subset (List.dropWhile_subset _))).bind ?_
    rintro ⟨precision, rest⟩ _
    dsimp only
    split
    · trivial
    · split
      · trivial
      · split
        · trivial
        · split
          · trivial
          · exact (info_orderly _ _ _).bind fun _ _ => trivial
  · trivial

end Format

namespace StringItem

/-- The digits of a token are in the ASCII range, and behind a sign there are some. -/
def Ascii : StringItem → Prop
  | token t => AsciiDigits t.text
  | signed _ number => number.text ≠ []

end StringItem

theorem stringItems_ascii (ts : List Token) (h : AsciiTokens ts) : ∀ i ∈ stringItems ts, i.Ascii := by
  fun_induction stringItems ts with
  | case1 => exact fun _ hi => absurd hi (List.not_mem_nil)
  | case2 t => exact List.forall_mem_singleton.mpr ((asciiTokens_cons ..).mp h).1
  | case3 t u ts signed ih =>
    rw [asciiTokens_cons, asciiTokens_cons] at h
    refine List.forall_mem_cons.mpr ⟨?_, ih h.2.2⟩
    intro none
    simp [Token.isNumeric, startsWithDigit, none] at signed
  | case4 t u ts _ ih =>
    rw [asciiTokens_cons] at h
    exact List.forall_mem_cons.mpr ⟨h.1, ih h.2⟩

namespace Compiler

variable {k : Compiler} {p : Protocol}

theorem byteCell_orderly (text : Text) (some : text ≠ []) : Orderly deep Cell.Ascii (byteCell text) := by
  refine text.integer_orderly.bind fun literal _ => ?_
  split
  · rw [if_neg (by simpa using some)]
    trivial
  · split
    · trivial
    · split
      · trivial
      · rw [Cell.ofValue_of_lt _ (by omega)]
        trivial

theorem byteCells_orderly (text : Text) (some : text ≠ []) :
    Orderly deep (fun cells => ∀ cell ∈ cells, cell.Ascii) ((byteCell text).map ([·])) :=
  (byteCell_orderly text some).map fun _ ascii => List.forall_mem_singleton.mpr ascii

theorem wordCells_orderly (mode : Mode) (text : Text) :
    Orderly deep (fun cells => ∀ cell ∈ cells, cell.Ascii) (wordCells mode text) := by
  unfold wordCells
  split
  · exact fun _ hc => absurd hc List.not_mem_nil
  · next some =>
    split
    · exact byteCells_orderly text (by simpa using some)
    · split
      · split
        · exact List.forall_mem_singleton.mpr trivial
        · trivial
      · split
        · exact List.forall_mem_singleton.mpr trivial
        · trivial

theorem encode_orderly (hp : p.Ascii) (mode : Mode) (depth : Nat) (i : StringItem) (h : i.Ascii) :
    Orderly deep (fun cells => ∀ cell ∈ cells, cell.Ascii) (k.encode p mode depth i).result := by
  -- what a reference stands for is encoded at a smaller depth
  induction depth using Nat.strongRecOn generalizing i with
  | ind depth ih =>
    cases i with
    | signed sign number =>
      rw [encode]
      exact (byteCells_orderly _ fun none => h (List.append_eq_nil_iff.mp none).2).mapFault _
    | token t =>
      rw [encode]
      split
      · exact (Cell.ofQuoted_orderly t.text h).mapFault _
      · refine Traced.orderly_bind (Protocol.resolve_orderly hp t h) fun value hv => ?_
        cases depth with
        | zero => exact Traced.orderly_fault _ _ _
        | succ depth =>
          exact Traced.orderly_flatMap _ fun i hi =>
            ih depth (Nat.lt_succ_self depth) i (stringItems_ascii value hv i hi)
      · exact fun _ hc => absurd hc (List.not_mem_nil)
      · exact (wordCells_orderly mode t.text).mapFault _
      · split
        · exact fun _ hc => absurd hc (List.not_mem_nil)
        · exact Traced.orderly_fault _ _ _
      · exact Traced.orderly_fault _ _ _

theorem splitField_ascii (source text : Text) (target : Option (Text × Bytes)) (hs : AsciiDigits source)
    (h : k.splitField source = .ok (target, text)) : AsciiDigits text := by
  unfold splitField at h
  split at h
  · next cs =>
    split at h
    · cases h
    · split at h
      · cases h
      · next name rest cut =>
        split at h
        · cases h
        · cases h
          rw [asciiDigits_cons, asciiDigits_cons, Text.cutAt?_eq_some ')' cs name rest cut, asciiDigits_append,
            asciiDigits_cons] at hs
          exact (asciiDigits_cons ..).mpr ⟨by decide, hs.2.2.2.2⟩
  · cases h
    exact hs

def Standard (k : Compiler) : Prop := k.converter = Format.standard

theorem compileFormat_orderly (hk : k.Standard) (line : Int) (file : Option Text) (mode : Mode) (source : Text)
    (h : AsciiDigits source) : Orderly deep (fun _ => True) (k.compileFormat line file mode source) := by
  rw [compileFormat]
  dsimp only
  refine (Orderly.of_faults _ fun target ht => k.splitField_ascii source target.2 target.1 h ht).bind ?_
  rintro ⟨target, text⟩ ht
  dsimp only
  rw [hk]
  refine (Format.standard_orderly text mode ht).bind fun conversion _ => ?_
  split
  · trivial
  · trivial

theorem compileFormats_orderly (hk : k.Standard) (line : Int) (file : Option Text) (mode : Mode) (position : Nat)
    (cells : List Cell) (h : ∀ cell ∈ cells, cell.Ascii) :
    Orderly deep (fun _ => True) (k.compileFormats line file mode position cells) := by
  fun_induction k.compileFormats line file mode position cells with
  | case1 => trivial
  | case2 position rest ih =>
    rw [List.forall_mem_cons, List.forall_mem_cons] at h
    exact (ih h.2.2).bind fun _ _ => trivial
  | case3 position rest _ source ih =>
    have ascii : AsciiDigits source := Cell.leadingChars_ascii (.char '%' :: rest) h
    refine ((compileFormat_orderly hk line file mode source ascii).mapFault _).bind ?_
    rintro ⟨field, length⟩ _
    rw [List.forall_mem_cons] at h
    exact (ih length fun cell hc => h.2 cell (List.mem_of_mem_drop hc)).bind fun _ _ => trivial
  | case4 position cell rest _ _ ih =>
    rw [List.forall_mem_cons] at h
    exact (ih h.2).bind fun _ _ => trivial

theorem compileLine_orderly (hk : k.Standard) (hp : p.Ascii) (mode : Mode) (position : Nat) (run : List StringItem)
    (h : ∀ i ∈ run, i.Ascii) : Orderly deep (fun _ => True) (k.compileLine p mode position run).result := by
  rw [compileLine]
  refine Traced.orderly_bind (Traced.orderly_flatMap run fun i hi => encode_orderly hp mode _ i (h i hi)) ?_
  intro cells hc
  split
  · trivial
  · trivial
  · exact compileFormats_orderly hk _ _ _ position cells hc

theorem compileLines_orderly (hk : k.Standard) (hp : p.Ascii) (mode : Mode) (position : Nat)
    (runs : List (List StringItem)) (h : ∀ i ∈ runs.flatten, i.Ascii) :
    Orderly deep (fun _ => True) (k.compileLines p mode position runs).result := by
  induction runs generalizing position with
  | nil => trivial
  | cons run runs ih =>
    rw [List.flatten_cons, List.forall_mem_append] at h
    refine Traced.orderly_bind (compileLine_orderly hk hp mode position run h.1) fun front _ => ?_
    exact Traced.orderly_bind (ih _ h.2) fun _ _ => trivial

theorem compileString_orderly (hk : k.Standard) (hp : p.Ascii) (mode : Mode) (ts : List Token) (h : AsciiTokens ts) :
    Orderly deep (fun _ => True) (k.compileString p mode ts).result := by
  have items := stringItems_ascii ts h
  rw [← lineRuns_flatten (stringItems ts)] at items
  exact Traced.orderly_bind (compileLines_orderly hk hp mode 0 _ items) fun _ _ => trivial

theorem compileNamed_orderly (hk : k.Standard) (hp : p.Ascii) (name : Text) (line : Int) (a : Arguments)
    (h : AsciiTokens a.rest) : Orderly deep (fun _ => True) (k.compileNamed p name line a).result := by
  rw [compileNamed]
  split
  · exact Traced.orderly_bind (compileString_orderly hk hp _ a.rest h) fun _ _ => trivial
  · split
    · exact Traced.orderly_bind (Protocol.commandNumber_orderly hp a h) fun _ _ => trivial
    · split
      · exact Traced.orderly_bind (Protocol.eventOperands_orderly hp a h) fun _ _ => trivial
      · split
        · trivial
        · exact Traced.orderly_fault _ _ _

theorem compileCommand_orderly (hk : k.Standard) (hp : p.Ascii) (segment : Token × List Token)
    (h : AsciiTokens segment.2) : Orderly deep (fun _ => True) (k.compileCommand p segment).result := by
  obtain ⟨word, arguments⟩ := segment
  have rest : AsciiTokens (Arguments.ofTokens arguments).skipBlanks.rest :=
    AsciiTokens.subset h (Arguments.ofTokens arguments).rest_skipBlanks
  refine Traced.orderly_bind ((compileNamed_orderly hk hp word.text word.line _ rest).mapFault _) ?_
  rintro ⟨command, a⟩ _
  dsimp only
  split
  · trivial
  · exact Traced.orderly_fault _ _ _

theorem compileCommands_orderly (hk : k.Standard) (hp : p.Ascii) (ts : List Token) (h : AsciiTokens ts) :
    Orderly deep (fun _ => True) (k.compileCommands p ts).result := by
  rw [compileCommands]
  split
  · exact Traced.orderly_fault _ _ _
  · refine Traced.orderly_bind (Traced.orderly_forAll (commandSegments ts) fun segment hs => ?_) fun _ _ => trivial
    exact compileCommand_orderly hk hp segment (h.subset (commandSegments_subset ts segment hs))

theorem handlerProgram_orderly (hk : k.Standard) (hp : p.Ascii) (name : Text) :
    Orderly deep (fun _ => True) (k.handlerProgram p name).result := by
  rw [handlerProgram, Traced.result_bind, Protocol.consult_result]
  cases found : p.lookup name with
  | none => trivial
  | some b =>
    have value := hp.bindings b (p.mem_of_lookup name b found)
    show Orderly deep _ (ite _ _ _ : Traced (Option Program)).result
    split
    · trivial
    · exact Traced.orderly_bind ((compileCommands_orderly hk hp b.value value).mapFault _) fun _ _ => trivial

theorem handlerPrograms_orderly (hk : k.Standard) (hp : p.Ascii) :
    Orderly deep (fun _ => True) (k.handlerPrograms p).result := by
  have all : Orderly deep (fun bs => ∀ b ∈ bs, True) (k.handlerPrograms p).result := by
    refine Traced.orderly_flatMap _ fun name _ => Traced.orderly_bind (handlerProgram_orderly hk hp name) ?_
    intro program _
    cases program with
    | none => exact fun _ _ => trivial
    | some program => exact fun _ _ => trivial
  exact all.mono fun _ _ => trivial

theorem ownProgram_orderly (hk : k.Standard) (hp : p.Ascii) : Orderly deep (fun _ => True) (k.ownProgram p).result := by
  rw [ownProgram]
  refine Traced.orderly_bind (Q := fun _ => True) trivial fun _ _ => ?_
  split
  · trivial
  · exact Traced.orderly_bind ((compileCommands_orderly hk hp p.commands.value hp.commands).mapFault _)
      fun _ _ => trivial

theorem compileInstance_orderly (hk : k.Standard) (hp : p.Ascii) :
    Orderly deep (fun _ => True) (k.compileInstance p).result := by
  refine Traced.orderly_bind (handlerPrograms_orderly hk hp) fun _ _ => ?_
  exact Traced.orderly_bind (ownProgram_orderly hk hp) fun _ _ => trivial

end Compiler

theorem Protocol.requireUsed_orderly (p : Protocol) (uses : List Use) :
    Orderly deep (fun _ => True) (p.requireUsed uses) := by
  rw [requireUsed]
  split
  · trivial
  · trivial

theorem Scanner.replicate_isPrefix_of_openBraces (n : Nat) (cs : Text) (h : n ≤ openBraces cs) :
    (List.replicate n ['$', '\x7b']).flatten <+: '$' :: cs := by
  fun_induction openBraces cs generalizing n with
  | case1 cs ih =>
    cases n with
    | zero => exact List.nil_prefix
    | succ n =>
      have inner := ih n (Nat.le_of_succ_le_succ h)
      exact (List.prefix_append_right_inj ['$', '\x7b']).mpr inner
  | case2 cs =>
    obtain rfl | rfl : n = 0 ∨ n = 1 := by omega
    · exact List.nil_prefix
    · exact ⟨cs, rfl⟩
  | case3 =>
    cases Nat.le_zero.mp h
    exact List.nil_prefix

theorem Scanner.Nested.replicate {t : Text} (h : Nested t) :
    (List.replicate (maxNesting + 1) ['$', '\x7b']).flatten <:+: t := by
  obtain ⟨cs, inside, nested⟩ := h
  exact (replicate_isPrefix_of_openBraces _ cs nested).isInfix.trans inside.isInfix

namespace Compiler

/-- Compiling an instance of a protocol gives a program or ends in a fault, if the source and the instantiation have no
digits beyond the ASCII range, unless a number has more decimal digits than are converted, or more references in braces
open one right inside the other than are read. -/
theorem compileSource_orderly (table : FieldTable) (source instantiation : Text) (file : Option Text)
    (hs : AsciiDigits source) (hi : AsciiDigits instantiation) :
    let result := ({ fields := some table } : Compiler).compileSource source instantiation file
    (∃ program, result = .ok program) ∨ (∃ fault, result = .error (.fault fault)) ∨
      (∃ digits, result = .error (.crash (.longNumber digits)) ∧ maxDigits < digits.length ∧
        ∀ d ∈ digits, isDecimalDigit d = true) ∨
      (result = .error (.crash .deepNesting) ∧
        (List.replicate (Scanner.maxNesting + 1) ['$', '\x7b']).flatten <:+: source) := by
  intro result
  let k : Compiler := { fields := some table }
  have standard : k.Standard := rfl
  have orderly : Orderly (Scanner.Nested source) (fun _ => True) result := by
    refine (ProtocolFile.ofSource_orderly source file hs).bind fun f hf => ?_
    refine (Orderly.of_faults id fun p hp => f.instantiate_ascii instantiation p hf hi hp).bind fun p hp => ?_
    refine (compileInstance_orderly standard hp).bind fun program _ => ?_
    exact (p.requireUsed_orderly _).bind fun _ _ => trivial
  -- of the crashes, `orderly` leaves the two that come from a limit
  cases outcome : result with
  | ok program => exact .inl ⟨program, rfl⟩
  | error e =>
    rw [outcome] at orderly
    cases e with
    | fault f => exact .inr (.inl ⟨f, rfl⟩)
    | crash c =>
      cases c with
      | longNumber digits => exact .inr (.inr (.inl ⟨digits, rfl, orderly⟩))
      | deepNesting => exact .inr (.inr (.inr ⟨rfl, Scanner.Nested.replicate orderly⟩))
      | _ => exact orderly.elim

/-- The number behind `wait` is one more than 32 bits hold. -/
theorem compileSource_orderly_wide :
    let source := "mask = 0x$2; p(é) \x7b out \"é%03d\\x7\" $1 -1; event($mask) 4294967295; wait $1$2; \x7d".toList
    let instantiation := "p(42, 94967296)".toList
    let result := ({ fields := some [] } : Compiler).compileSource source instantiation none
    AsciiDigits source ∧ AsciiDigits instantiation ∧ ∃ fault, result = .error (.fault fault) ∧
      fault.cause = .numberOutOfRange "4294967296".toList maxNumber ∧ fault.line = some 1 := by
  intro source instantiation result
  have hs : AsciiDigits source := by decide +kernel
  have hi : AsciiDigits instantiation := by decide +kernel
  have outcome : result = .error (.fault {
      cause := .numberOutOfRange "4294967296".toList maxNumber
      line := some 1
      notes := [(some 1, .inCommand "wait".toList), (some 1, .inProtocol instantiation)] }) := by
    decide +kernel
  obtain ⟨program, ok⟩ | ⟨fault, failed⟩ | ⟨digits, crashed, -⟩ | ⟨crashed, -⟩ :=
    compileSource_orderly [] source instantiation none hs hi
  · cases outcome.symm.trans ok
  · refine ⟨hs, hi, fault, failed, ?_⟩
    cases outcome.symm.trans failed
    exact ⟨rfl, rfl⟩
  · cases outcome.symm.trans crashed
  · cases outcome.symm.trans crashed

section

variable (k : Compiler)

theorem compileInstance_crash (table : FieldTable) (p : Protocol) (hk : k.fields = some table)
    (handlers : ∀ b ∈ p.bindings, b.isHandler = false) (command : CompleteCommand)
    (only : p.commands.value = command.tokens) (c : Crash)
    (crash : (k.compileNamed p command.word.text command.word.line
        (Arguments.ofTokens command.arguments).skipBlanks).result =
      .error (.crash c)) :
    (k.compileInstance p).result = .error (.crash c) := by
  have passed {α : Type} (x : Traced α) (g : Fault → Fault) (h : x.result = .error (.crash c)) :
      (x.mapFault g).result = .error (.crash c) := by
    rw [Traced.mapFault, h]
    rfl
  have segments : commandSegments p.commands.value = [(command.word, command.arguments)] := by
    rw [only, ← List.append_nil command.tokens]
    exact commandSegments_complete [command]
  have commands : (k.compileCommands p p.commands.value).result = .error (.crash c) := by
    rw [compileCommands, hk, segments]
    exact Traced.bind_of_error _ _ _ (Traced.bind_of_error _ _ _ (Traced.bind_of_error _ _ _ (passed _ _ crash)))
  have filled : p.commands.value.isEmpty = false := by
    rw [only]
    rfl
  rw [compileInstance, Traced.bind_of_ok _ _ _ (k.handlerPrograms_of_no_handlers p handlers), ownProgram]
  refine Traced.bind_of_error _ _ _ ?_
  rw [Traced.bind_of_ok _ _ () (Traced.result_use _), filled, if_neg Bool.false_ne_true]
  exact Traced.bind_of_error _ _ _ (passed _ _ commands)

theorem compileNamed_wait_ones (p : Protocol) (line : Int) (n : Nat) (many : maxDigits ≤ n) :
    (k.compileNamed p "wait".toList line (Arguments.ofTokens [⟨.word, List.replicate (n + 1) '1', line, none⟩])).result =
      .error (.crash (.longNumber (List.replicate (n + 1) '1'))) := by
  let digits : Text := List.replicate (n + 1) '1'
  have text : (p.numberText [⟨.word, digits, line, none⟩]).result = .ok (digits ++ [], 0 + 1) := by
    have numeric : (⟨.word, digits, line, none⟩ : Token).isNumeric = true := rfl
    rw [Protocol.numberText, if_neg (by rintro ⟨⟩), if_pos numeric]
    rfl
  have counted : digits.decimalDigits = digits := by
    show digits.takeWhile isDecimalDigit = digits
    exact List.takeWhile_replicate_eq_filter.trans (List.filter_replicate_of_pos rfl)
  have many' : maxDigits < digits.length := by
    rw [List.length_replicate]
    exact Nat.lt_succ_of_le many
  have long : Protocol.numberValue (digits ++ []) maxNumber = .error (.crash (.longNumber digits)) := by
    rw [List.append_nil, Protocol.numberValue, Text.integer, counted, requireFewDigits, if_pos many']
    rfl
  refine Traced.bind_of_error _ _ _ (Traced.bind_of_error _ _ _ ?_)
  refine (Traced.bind_of_ok _ _ _ text).trans (Traced.bind_of_error _ _ _ ?_)
  rw [Traced.located, long]
  rfl

open ProtocolFile in
/-- Waiting for a time of more digits than are converted. -/
theorem compileSource_wait_long :
    let digits : Text := List.replicate (maxDigits + 1) '1'
    let source : Text := "p \x7b wait ".toList ++ digits ++ "; \x7d".toList
    AsciiDigits source ∧ compileSource {} source ['p'] none = .error (.crash (.longNumber digits)) := by
  intro digits source
  have word : digits.all Grammar.isWordChar = true := by
    rw [List.all_replicate]
    rfl
  let c : Grammar.Command := ⟨⟨"wait".toList, by decide, by decide⟩, ⟨.word digits word (by simp [digits]), []⟩⟩
  have text : source = single c := by
    unfold single
    simp [source, c, Grammar.Value.render, Grammar.Atom.render]
  obtain ⟨f, p, hf, hp, bare, -, -, -, only⟩ := ofSource_single c none
  let command : CompleteCommand := {
    word := ⟨.word, "wait".toList, 1, none⟩
    arguments := [⟨.word, digits, 1, none⟩]
    stop := ⟨.terminator, [';'], 1, none⟩
    named := rfl
    inside := by simp
    stops := rfl }
  have handlers : ∀ b ∈ p.bindings, b.isHandler = false := by simp [bare]
  refine ⟨?_, ?_⟩
  · simp only [source, asciiDigits_append]
    refine ⟨⟨by decide +kernel, fun d mem => ?_⟩, by decide +kernel⟩
    rw [List.eq_of_mem_replicate mem]
    decide
  · rw [text, compileSource_of_no_handlers {} _ _ _ _ f hf hp handlers]
    exact compileInstance_crash {} [] _ rfl handlers command only _
      (compileNamed_wait_ones {} _ 1 maxDigits (Nat.le_refl _))

end

/-- A superscript digit behind a backslash makes compiling fail, and not with a fault. -/
example : ({} : Compiler).compileSource "p \x7b out \"\\²\"; \x7d".toList ['p'] none =
    .error (.crash .undecimalEscape) := by
  decide +kernel

end Compiler
end DeviceProtocol
