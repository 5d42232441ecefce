import DeviceProtocol.Proofs.StringItems
import DeviceProtocol.Proofs.StringStream
import DeviceProtocol.Proofs.TextAppended
set_option autoImplicit false

namespace DeviceProtocol

namespace Instruction

theorem merge_append_merge (is js : List Instruction) : merge (is ++ merge js) = merge (is ++ js) := by
  induction is with
  | nil => exact merge_of_apart _ (merge_apart js)
  | cons i is ih => exact merge_cons_congr i _ _ ih

theorem merge_merge_append (is js : List Instruction) : merge (merge is ++ js) = merge (is ++ js) := by
  fun_induction merge is with
  | case1 => rfl
  | case2 a is b tail h ih =>
    rw [h] at ih
    calc merge (.literal (a ++ b) :: (tail ++ js))
      _ = merge (.literal a :: (.literal b :: tail ++ js)) := (merge_literals a b _).symm
      _ = merge (.literal a :: (is ++ js)) := merge_cons_congr _ _ _ ih
  | case3 a is h ih => exact merge_cons_congr _ _ _ ih
  | case4 i is h ih => exact merge_cons_congr _ _ _ ih

end Instruction

theorem Cell.toInstructions_append (as bs : List Cell) :
    toInstructions (as ++ bs) = Instruction.merge (toInstructions as ++ toInstructions bs) := by
  rw [toInstructions, toInstructions, toInstructions, Instruction.merge_merge_append,
    Instruction.merge_append_merge, List.map_append]

/-- The converter looks at the format and not at what stands behind it, and a format is at least one character behind a
percent sign. -/
structure Converter.Local (convert : Converter) : Prop where
  append : ∀ source more mode c, convert source mode = .ok c → convert (source ++ more) mode = .ok c
  extent : ∀ source mode c, convert source mode = .ok c → 1 < c.consumed ∧ c.consumed ≤ source.length

theorem Text.cutAt?_append (sep : Char) (t more front rest : Text) (h : cutAt? sep t = some (front, rest)) :
    cutAt? sep (t ++ more) = some (front, rest ++ more) ∧ rest.length < t.length := by
  have length := congrArg List.length (cutAt?_eq_some sep t front rest h)
  simp only [List.length_append, List.length_cons] at length
  refine ⟨?_, by omega⟩
  unfold cutAt? at h ⊢
  split at h
  · cases h
  · rename_i c tail hdrop
    cases h
    obtain ⟨taken, dropped⟩ := Scanner.takeWhile_followedBy more (· != sep) t (by simp [hdrop])
    rw [dropped, taken, hdrop]
    rfl

namespace Format

theorem charSet_opening (rest : Text) (empty : rest ≠ []) (caret : rest ≠ ['^']) :
    ∃ front tail, rest = front ++ tail ∧ ∀ source more, charSet source (rest ++ more) =
      (Text.cutAt? ']' (tail ++ more)).elim (fault (.charSetUnclosed source))
        fun cut => .ok (Wire.zeroTerminated (front ++ cut.1), cut.2) := by
  obtain ⟨c, cs, rfl⟩ := List.exists_cons_of_ne_nil empty
  by_cases opens : c = '^'
  · subst opens
    obtain ⟨d, ds, rfl⟩ := List.exists_cons_of_ne_nil (l := cs) (by rintro rfl; exact caret rfl)
    by_cases bracket : d = ']'
    · subst bracket
      refine ⟨['^', ']'], ds, rfl, fun source more => ?_⟩
      rw [List.cons_append, List.cons_append, charSet]
      cases Text.cutAt? ']' (ds ++ more) <;> rfl
    · refine ⟨['^'], d :: ds, rfl, fun source more => ?_⟩
      simp [charSet, bracket]
      cases Text.cutAt? ']' (d :: (ds ++ more)) <;> rfl
  · by_cases bracket : c = ']'
    · subst bracket
      refine ⟨[']'], cs, rfl, fun source more => ?_⟩
      rw [List.cons_append, charSet]
      cases Text.cutAt? ']' (cs ++ more) <;> rfl
    · refine ⟨[], c :: cs, rfl, fun source more => ?_⟩
      simp [charSet, opens, bracket]
      cases Text.cutAt? ']' (c :: (cs ++ more)) <;> rfl

theorem charSet_append (source source' rest more after : Text) (bs : Bytes)
    (h : charSet source rest = .ok (bs, after)) :
    charSet source' (rest ++ more) = .ok (bs, after ++ more) ∧ after.length ≤ rest.length := by
  have empty : rest ≠ [] := by
    rintro rfl
    cases h
  have caret : rest ≠ ['^'] := by
    rintro rfl
    cases h
  obtain ⟨front, tail, rfl, opening⟩ := charSet_opening rest empty caret
  have alone := opening source []
  rw [List.append_nil, List.append_nil, h] at alone
  rw [opening source' more]
  cases hcut : Text.cutAt? ']' tail with
  | none =>
    rw [hcut] at alone
    cases alone
  | some cut =>
    obtain ⟨body, rest⟩ := cut
    rw [hcut] at alone
    cases alone
    obtain ⟨longer, length⟩ := Text.cutAt?_append ']' tail more body rest hcut
    refine ⟨by rw [longer]; rfl, ?_⟩
    show rest.length ≤ _
    rw [List.length_append]
    omega

theorem choices_append (source source' rest more after : Text) (bs : Bytes)
    (h : choices source rest = .ok (bs, after)) :
    choices source' (rest ++ more) = .ok (bs, after ++ more) ∧ after.length ≤ rest.length := by
  unfold choices at h ⊢
  split at h
  · rename_i body tail hcut
    split at h
    · cases h
    · rename_i spelled
      cases h
      obtain ⟨longer, length⟩ := Text.cutAt?_append _ _ more _ _ hcut
      rw [longer]
      exact ⟨if_neg spelled, by omega⟩
  · cases h

theorem checksum_append (source source' rest more after : Text) (bs : Bytes)
    (h : checksum source rest = .ok (bs, after)) :
    checksum source' (rest ++ more) = .ok (bs, after ++ more) ∧ after.length ≤ rest.length := by
  unfold checksum at h ⊢
  split at h
  · rename_i body tail hcut
    dsimp only at h
    split at h
    · rename_i known
      cases h
      obtain ⟨longer, length⟩ := Text.cutAt?_append _ _ more _ _ hcut
      rw [longer]
      exact ⟨if_pos known, by omega⟩
    · cases h
  · cases h

theorem info_append (conversion : Char) (source source' rest more after : Text) (bs : Bytes)
    (h : info conversion source rest = .ok (bs, after)) :
    info conversion source' (rest ++ more) = .ok (bs, after ++ more) ∧ after.length ≤ rest.length := by
  unfold info at h ⊢
  split at h
  · exact charSet_append source source' rest more after bs h
  · exact choices_append source source' rest more after bs h
  · exact checksum_append source source' rest more after bs h
  · cases h
    exact ⟨rfl, Nat.le_refl _⟩

theorem precision_append (cs more rest : Text) (n : Int) (h : precision cs = .ok (n, rest)) (left : rest ≠ []) :
    precision (cs ++ more) = .ok (n, rest ++ more) ∧ rest.length ≤ cs.length := by
  unfold precision at h
  split at h
  · rename_i cs
    obtain ⟨m, hm, h⟩ := (Except.bind_eq_ok_iff _ _ _).mp h
    cases h
    obtain ⟨taken, dropped⟩ := Scanner.takeWhile_followedBy more isDigit cs left
    rw [List.cons_append, precision, taken, hm, dropped]
    exact ⟨rfl, Nat.le_succ_of_le (List.dropWhile_sublist _).length_le⟩
  · rename_i other
    cases h
    obtain ⟨c, cs, rfl⟩ := List.exists_cons_of_ne_nil left
    refine ⟨?_, Nat.le_refl _⟩
    unfold precision
    split
    · rename_i ds hcs
      cases hcs
      exact absurd rfl (other cs)
    · rfl

theorem standard_append (source more : Text) (mode : Mode) (c : Conversion) (h : standard source mode = .ok c) :
    standard (source ++ more) mode = .ok c := by
  obtain ⟨cs, width, precision, conversion, type, tail, after, rfl, hw, hp, wide, precise, ht, hs, hi, descriptor,
    consumed⟩ := standard_cases source mode c h
  have digitsEnd : (cs.dropWhile isFlag).dropWhile isDigit ≠ [] := by
    intro none
    rw [none] at hp
    cases hp
  have flagsEnd : cs.dropWhile isFlag ≠ [] := by
    intro none
    exact digitsEnd (by rw [none]; rfl)
  obtain ⟨flags, behindFlags⟩ := Scanner.takeWhile_followedBy more isFlag cs flagsEnd
  obtain ⟨digits, behindDigits⟩ := Scanner.takeWhile_followedBy more isDigit _ digitsEnd
  have ⟨hp', _⟩ := precision_append _ more _ _ hp (List.cons_ne_nil _ _)
  have ⟨hi', _⟩ := info_append conversion _ ('%' :: cs ++ more) tail more after c.info hi
  have reach : (('%' :: cs ++ more).length : Int) - (after ++ more).length = ('%' :: cs).length - after.length := by
    simp only [List.length_append]
    omega
  have read := standard_of_parts (cs ++ more) (tail ++ more) (after ++ more) mode width precision conversion type c.info
    (by rw [behindFlags, digits, hw]) (by rw [behindFlags, behindDigits, hp', List.cons_append]) wide precise ht
    (by rwa [flags]) hi'
  rw [flags, ← List.cons_append, reach, ← descriptor, ← consumed] at read
  exact read

theorem standard_local : Converter.Local standard where
  append := standard_append
  extent source mode c h := by
    obtain ⟨cs, width, precision, conversion, type, tail, after, rfl, -, hp, -, -, -, -, hi, -, consumed⟩ :=
      standard_cases source mode c h
    have digits := (List.dropWhile_sublist (l := cs.dropWhile isFlag) isDigit).length_le
    have flags := (List.dropWhile_sublist (l := cs) isFlag).length_le
    have left := (precision_append _ [] _ _ hp (List.cons_ne_nil _ _)).2
    have info := (info_append conversion _ [] tail [] after c.info hi).2
    simp only [List.length_cons] at left consumed ⊢
    omega

end Format

theorem Cell.leadingChars_append (as bs : List Cell) :
    ∃ more, leadingChars (as ++ bs) = leadingChars as ++ more := by
  fun_induction leadingChars as with
  | case1 c as ih =>
    obtain ⟨more, h⟩ := ih
    exact ⟨more, by rw [List.cons_append, leadingChars, h]; rfl⟩
  | case2 as other => exact ⟨leadingChars (as ++ bs), rfl⟩

theorem Cell.leadingChars_length (cells : List Cell) : (leadingChars cells).length ≤ cells.length := by
  fun_induction leadingChars cells with
  | case1 c cells ih => exact Nat.succ_le_succ ih
  | case2 cells other => exact Nat.zero_le _

namespace Compiler

theorem splitField_append (k : Compiler) (source more text : Text) (target : Option (Text × Bytes))
    (h : k.splitField source = .ok (target, text)) (long : 1 < text.length) :
    k.splitField (source ++ more) = .ok (target, text ++ more) := by
  unfold splitField at h
  split at h
  · rename_i c cs
    split at h
    · cases h
    · rename_i table htable
      split at h
      · cases h
      · rename_i name rest hcut
        split at h
        · cases h
        · rename_i address haddress
          cases h
          simp [splitField, htable, Text.cutAt?_append _ _ more _ _ hcut, haddress]
  · rename_i other
    cases h
    obtain ⟨c, tail, rfl⟩ := List.exists_cons_of_length_pos (Nat.lt_trans Nat.zero_lt_one long)
    obtain ⟨d, cs, rfl⟩ := List.exists_cons_of_length_pos (Nat.lt_of_succ_lt_succ long)
    have plain : d ≠ '(' := by
      rintro rfl
      exact other c cs rfl
    simp [splitField, plain]

/-- The cells of items, each line of them compiled as if it were the first one. -/
def compileItems (k : Compiler) (p : Protocol) (mode : Mode) (is : List StringItem) : Traced (List Cell) :=
  Traced.flatMap (k.compileLine p mode 0) (lineRuns is)

theorem compileItems_single (k : Compiler) (p : Protocol) (mode : Mode) (is : List StringItem) (line : Int)
    (same : ∀ i ∈ is, i.line = line) : (k.compileItems p mode is).result = (k.compileLine p mode 0 is).result := by
  by_cases given : is = []
  · subst given
    cases mode <;> rfl
  · rw [compileItems, lineRuns_single is line same given, Traced.flatMap, Traced.result_bind]
    cases (k.compileLine p mode 0 is).result with
    | error e => rfl
    | ok cells =>
      show Except.ok (cells ++ []) = _
      rw [List.append_nil]

theorem compileItems_apart (k : Compiler) (p : Protocol) (mode : Mode) (is js : List StringItem)
    (apart : ∀ i ∈ is.getLast?, ∀ j ∈ js.head?, i.line ≠ j.line) (out : List Cell) :
    (k.compileItems p mode (is ++ js)).result = .ok out ↔
      ∃ front back, (k.compileItems p mode is).result = .ok front ∧ (k.compileItems p mode js).result = .ok back ∧
        out = front ++ back := by
  rw [compileItems, lineRuns_append is js apart, Traced.flatMap_append_eq_ok_iff]
  rfl

section

variable {k : Compiler} (hk : k.converter.Local)
include hk

/-- A format that was compiled is compiled in the same way with more text behind it, on any line. It takes no more than
its own text. -/
theorem compileFormat_append (line line' : Int) (file : Option Text) (mode : Mode) (source more : Text) (f : Field)
    (n : Int) (h : k.compileFormat line file mode source = .ok (f, n)) :
    k.compileFormat line' file mode (source ++ more) = .ok (f, n) ∧ 1 < n ∧ n ≤ source.length := by
  unfold compileFormat at h ⊢
  dsimp only at h ⊢
  obtain ⟨⟨target, text⟩, ht, h⟩ := (Except.bind_eq_ok_iff _ _ _).mp h
  obtain ⟨c, hc, h⟩ := (Except.bind_eq_ok_iff _ _ _).mp h
  obtain ⟨least, most⟩ := hk.extent text mode c hc
  have parts := (Except.mapError_eq_ok_iff _ _ _).mp ht
  have parts' := k.splitField_append source more text target parts (by omega)
  have own : Text.upTo c.consumed (text ++ more) = Text.upTo c.consumed text := by
    have reached : c.consumed.toNat ≤ text.length := by omega
    simp only [Text.upTo, if_pos (show 0 ≤ c.consumed by omega), List.take_append_of_le_length reached]
  rw [Except.bind_eq_ok_iff]
  refine ⟨⟨(target, text ++ more), (Except.mapError_eq_ok_iff _ _ _).mpr parts', ?_⟩, ?_⟩
  · rw [Except.bind_eq_ok_iff]
    refine ⟨c, hk.append text more mode c hc, ?_⟩
    dsimp only at h ⊢
    rw [own]
    split at h
    · cases h
    · exact h
  · dsimp only at h
    split at h
    · cases h
    · cases h
      obtain ⟨rfl, rfl⟩ | ⟨d, name, rest, address, table, rfl, rfl, -, -, rfl⟩ :=
        k.splitField_cases source text target parts
      · dsimp only
        omega
      · simp only [List.length_cons, List.length_append] at most ⊢
        omega

theorem compileFormats_append (line line' : Int) (file : Option Text) (mode : Mode) (position position' : Nat)
    (as bs out back : List Cell) (ha : k.compileFormats line file mode position as = .ok out)
    (hb : ∀ position, k.compileFormats line' file mode position bs = .ok back) :
    k.compileFormats line' file mode position' (as ++ bs) = .ok (out ++ back) := by
  fun_induction k.compileFormats line file mode position as generalizing out position' with
  | case1 position =>
    cases ha
    exact hb position'
  | case2 position rest ih =>
    obtain ⟨front, hf, ha⟩ := (Except.bind_eq_ok_iff _ _ _).mp ha
    cases ha
    rw [List.cons_append, List.cons_append, compileFormats, ih (position' + 1) front hf]
    rfl
  | case3 position rest single source ih =>
    obtain ⟨⟨f, n⟩, hf, ha⟩ := (Except.bind_eq_ok_iff _ _ _).mp ha
    obtain ⟨front, hfront, ha⟩ := (Except.bind_eq_ok_iff _ _ _).mp ha
    cases ha
    obtain ⟨more, hmore⟩ := Cell.leadingChars_append rest bs
    obtain ⟨same, least, most⟩ :=
      compileFormat_append hk line line' file mode source more f n ((Except.mapError_eq_ok_iff _ _ _).mp hf)
    -- the format has more characters than the percent sign, so the seam is not right behind it
    have length : source.length = (Cell.leadingChars rest).length + 1 := rfl
    have fits := Cell.leadingChars_length rest
    obtain ⟨c, tail, rfl⟩ := List.exists_cons_of_length_pos (l := rest) (by omega)
    have formats : formatSpan position ((c :: tail).length + 1) n = ⟨1, n.toNat⟩ :=
      formatSpan_of_pos _ _ n (by omega)
    have formats' : formatSpan position' ((c :: tail ++ bs).length + 1) n = ⟨1, n.toNat⟩ :=
      formatSpan_of_pos _ _ n (by omega)
    have reached : n.toNat - 1 ≤ (c :: tail).length := by omega
    rw [List.cons_append, compileFormats]
    · refine (Except.bind_eq_ok_iff _ _ _).mpr ⟨(f, n), (Except.mapError_eq_ok_iff _ _ _).mpr (hmore ▸ same), ?_⟩
      have rest := ih n (position' + 1) front hfront
      rw [formats] at rest
      dsimp only
      rw [formats', List.drop_append_of_le_length reached]
      refine (Except.bind_eq_ok_iff _ _ _).mpr ⟨front ++ back, rest, ?_⟩
      rw [formats, ← List.append_assoc]
      rfl
    · intro rest' htail
      cases htail
      exact single tail rfl
  | case4 position cell rest pair percent ih =>
    obtain ⟨front, hf, ha⟩ := (Except.bind_eq_ok_iff _ _ _).mp ha
    cases ha
    rw [List.cons_append, compileFormats, ih (position' + 1) front hf]
    · rfl
    · exact fun rest' hcell _ => percent hcell
    · exact percent

theorem compileFormats_elsewhere (line line' : Int) (file : Option Text) (mode : Mode) (position position' : Nat)
    (cells out : List Cell) (h : k.compileFormats line file mode position cells = .ok out) :
    k.compileFormats line' file mode position' cells = .ok out := by
  have empty (position : Nat) : k.compileFormats line' file mode position [] = .ok [] := by
    rw [compileFormats]
  simpa using compileFormats_append hk line line' file mode position position' cells [] out [] h empty

theorem compileLine_eq_ok_iff (p : Protocol) (mode : Mode) (position : Nat) (run : List StringItem) (out : List Cell) :
    (k.compileLine p mode position run).result = .ok out ↔
      ∃ cells, (Traced.flatMap (k.encode p mode k.depthLimit.toNat) run).result = .ok cells ∧
        if mode = .plain then out = cells else k.compileFormats 0 p.file mode 0 cells = .ok out := by
  rw [compileLine, Traced.bind_eq_ok_iff]
  refine exists_congr fun cells => and_congr_right fun hcells => ?_
  cases run with
  | nil =>
    cases hcells
    cases mode <;> simp [compileFormats, eq_comm]
  | cons i run =>
    have formats : k.compileFormats i.line p.file mode position cells = .ok out ↔
        k.compileFormats 0 p.file mode 0 cells = .ok out :=
      ⟨compileFormats_elsewhere hk _ _ _ _ _ _ cells out, compileFormats_elsewhere hk _ _ _ _ _ _ cells out⟩
    cases mode with
    | plain => simp [eq_comm]
    | scan => exact formats
    | print => exact formats

theorem compileLine_append (p : Protocol) (mode : Mode) (as bs : List StringItem) (front back : List Cell)
    (ha : (k.compileLine p mode 0 as).result = .ok front) (hb : (k.compileLine p mode 0 bs).result = .ok back) :
    (k.compileLine p mode 0 (as ++ bs)).result = .ok (front ++ back) := by
  obtain ⟨acells, hacells, ha⟩ := (compileLine_eq_ok_iff hk p mode 0 as front).mp ha
  obtain ⟨bcells, hbcells, hb⟩ := (compileLine_eq_ok_iff hk p mode 0 bs back).mp hb
  refine (compileLine_eq_ok_iff hk p mode 0 _ _).mpr ⟨acells ++ bcells, ?_, ?_⟩
  · rw [Traced.flatMap_append, hacells, hbcells]
    rfl
  · split at ha
    · rename_i plain
      rw [if_pos plain] at hb ⊢
      rw [ha, hb]
    · rename_i formats
      rw [if_neg formats] at hb ⊢
      exact compileFormats_append hk 0 0 p.file mode 0 0 acells bcells front back ha
        fun position => compileFormats_elsewhere hk 0 0 p.file mode 0 position bcells back hb

theorem compileLines_eq_ok_iff (p : Protocol) (mode : Mode) (position : Nat) (runs : List (List StringItem))
    (out : List Cell) :
    (k.compileLines p mode position runs).result = .ok out ↔
      (Traced.flatMap (k.compileLine p mode 0) runs).result = .ok out := by
  induction runs generalizing position out with
  | nil => rfl
  | cons run runs ih =>
    rw [compileLines, Traced.flatMap, Traced.bind_eq_ok_iff, Traced.bind_eq_ok_iff]
    refine exists_congr fun front => and_congr ?_ ?_
    · rw [compileLine_eq_ok_iff hk, compileLine_eq_ok_iff hk]
    · rw [Traced.bind_eq_ok_iff, Traced.bind_eq_ok_iff]
      exact exists_congr fun back => and_congr (ih _ back) Iff.rfl

theorem compileString_eq_ok_iff (p : Protocol) (mode : Mode) (ts : List Token) (is : List Instruction) :
    (k.compileString p mode ts).result = .ok is ↔
      ∃ cells, (k.compileItems p mode (stringItems ts)).result = .ok cells ∧ is = Cell.toInstructions cells := by
  rw [compileString, Traced.bind_eq_ok_iff]
  refine exists_congr fun cells => and_congr (compileLines_eq_ok_iff hk p mode 0 _ cells) ?_
  simp [eq_comm]

theorem compileItems_append (p : Protocol) (mode : Mode) (is js : List StringItem) (front back : List Cell)
    (hi : (k.compileItems p mode is).result = .ok front) (hj : (k.compileItems p mode js).result = .ok back) :
    (k.compileItems p mode (is ++ js)).result = .ok (front ++ back) := by
  cases js with
  | nil =>
    cases hj
    rwa [List.append_nil, List.append_nil]
  | cons j js =>
    obtain ⟨run, runs, hruns⟩ := lineRuns_cons j js
    rw [compileItems, hruns, Traced.flatMap_cons_eq_ok_iff] at hj
    obtain ⟨first, others, hfirst, hothers, rfl⟩ := hj
    obtain ⟨start, ending, rfl, same, apart⟩ := exists_line_ending is j.line
    have before : ∀ i ∈ start.getLast?, ∀ e ∈ ending.head?, i.line ≠ e.line := by
      intro i last e he
      rw [same e (List.mem_of_mem_head? he)]
      exact apart i last
    obtain ⟨cells, last, hcells, hlast, rfl⟩ := (k.compileItems_apart p mode start ending before front).mp hi
    rw [k.compileItems_single p mode ending j.line same] at hlast
    have joined : (k.compileItems p mode (ending ++ j :: js)).result = .ok (last ++ first ++ others) := by
      rw [compileItems, lineRuns_prepend ending (j :: js) run j runs hruns same, Traced.flatMap_cons_eq_ok_iff]
      exact ⟨_, _, compileLine_append hk p mode ending (j :: run) last first hlast hfirst, hothers, rfl⟩
    have behind : ∀ i ∈ start.getLast?, ∀ e ∈ (ending ++ j :: js).head?, i.line ≠ e.line := by
      intro i last e he
      cases ending with
      | nil =>
        cases he
        exact apart i last
      | cons d ending => exact before i last e he
    rw [List.append_assoc, k.compileItems_apart p mode start _ behind]
    exact ⟨cells, _, hcells, joined, by simp⟩

theorem compileString_append (p : Protocol) (mode : Mode) (as bs : List Token) (is js : List Instruction)
    (ha : (k.compileString p mode as).result = .ok is) (hb : (k.compileString p mode bs).result = .ok js) :
    (k.compileString p mode (as ++ bs)).result = .ok (Instruction.merge (is ++ js)) := by
  -- strings that can be compiled are cut into items at the seam, because the first one does not end with a sign
  have unsigned := k.unsigned_of_encode p mode _ as (k.encode_of_compileString p mode as is ha)
  obtain ⟨front, hfront, rfl⟩ := (compileString_eq_ok_iff hk p mode as is).mp ha
  obtain ⟨back, hback, rfl⟩ := (compileString_eq_ok_iff hk p mode bs js).mp hb
  refine (compileString_eq_ok_iff hk p mode _ _).mpr ⟨front ++ back, ?_, ?_⟩
  · rw [stringItems_append_of_unsigned as bs unsigned]
    exact compileItems_append hk p mode _ _ front back hfront hback
  · exact (Cell.toInstructions_append front back).symm

end

/-- Where the first tokens of a string do not end with a sign, it is cut into items behind them: the two signs together
are a sign, too, but there is no number that they belong to. -/
theorem stringItems_seam (k : Compiler) (p : Protocol) (mode : Mode) (as bs : List Token) (is : List Instruction)
    (unsigned : ∀ t ∈ as.getLast?, ¬ (t.kind = .special ∧ (t.text = ['+'] ∨ t.text = ['-'])))
    (h : (k.compileString p mode (as ++ bs)).result = .ok is) :
    stringItems (as ++ bs) = stringItems as ++ stringItems bs := by
  refine stringItems_append as bs fun t last u first sign => ?_
  rw [Bool.eq_false_iff]
  intro number
  obtain ⟨init, rfl⟩ := List.getLast?_eq_some_iff.mp last
  obtain ⟨tail, rfl⟩ := List.head?_eq_some_iff.mp first
  have signs : t.text = ['+', '-'] := by
    have special := t.kind_of_isSign sign
    obtain text | text | text := t.text_of_isSign sign
    · exact absurd ⟨special, .inl text⟩ (unsigned t last)
    · exact absurd ⟨special, .inr text⟩ (unsigned t last)
    · exact text
  have item : .signed t u ∈ stringItems (init ++ [t] ++ u :: tail) := by
    rw [List.append_assoc]
    exact signed_mem_stringItems init tail t u sign number
  obtain ⟨cells, hcells⟩ := k.encode_of_compileString p mode _ is h _ item
  rw [encode, Traced.located_eq_ok_iff, signs] at hcells
  cases hcells

/-- Strings compile part by part. Two strings that can be compiled can be compiled as one, and what comes out are the
instructions of the first and then those of the second. A string can be cut again where a line ends, unless this cuts a
sign off from its number: no format of the first part takes anything from the second. -/
theorem compileString_parts (depth : Int) (fields : Option FieldTable) (p : Protocol) (mode : Mode)
    (as bs : List Token) :
    let k : Compiler := ⟨Format.standard, depth, fields⟩
    (∀ is js, (k.compileString p mode as).result = .ok is → (k.compileString p mode bs).result = .ok js →
      (k.compileString p mode (as ++ bs)).result = .ok (Instruction.merge (is ++ js))) ∧
    ((as ++ bs).Pairwise (fun t u => t.line ≤ u.line) →
      (∀ t ∈ as.getLast?, (∀ u ∈ bs.head?, t.line < u.line) ∧
        ¬ (t.kind = .special ∧ (t.text = ['+'] ∨ t.text = ['-']))) →
      ∀ out, (k.compileString p mode (as ++ bs)).result = .ok out →
        ∃ is js, (k.compileString p mode as).result = .ok is ∧ (k.compileString p mode bs).result = .ok js ∧
          out = Instruction.merge (is ++ js)) := by
  intro k
  have hk : k.converter.Local := Format.standard_local
  refine ⟨compileString_append hk p mode as bs, fun ordered seam out h => ?_⟩
  have items := stringItems_seam k p mode as bs out (fun t last => (seam t last).2) h
  have apart : ∀ i ∈ (stringItems as).getLast?, ∀ j ∈ (stringItems bs).head?, i.line ≠ j.line := by
    have earlier := line_lt_of_stringItems as bs (List.pairwise_append.mp ordered).1 fun t last => (seam t last).1
    exact fun i last j first => Int.ne_of_lt (earlier i last j first)
  obtain ⟨cells, hcells, rfl⟩ := (compileString_eq_ok_iff hk p mode _ out).mp h
  rw [items, k.compileItems_apart p mode _ _ apart] at hcells
  obtain ⟨front, back, hfront, hback, rfl⟩ := hcells
  refine ⟨_, _, ?_, ?_, Cell.toInstructions_append front back⟩
  · exact (compileString_eq_ok_iff hk p mode as _).mpr ⟨front, hfront, rfl⟩
  · exact (compileString_eq_ok_iff hk p mode bs _).mpr ⟨back, hback, rfl⟩

/-- A field that is named in one token and formatted in the next, a percent sign that is written twice, and a number with
its sign on the line before; then a format with a percent sign in it. -/
theorem compileString_parts_percent :
    let k : Compiler := { fields := some [("low".toList, [0x00, 0x03])] }
    let string (text : String) (line : Int) : Token := ⟨.string, text.toList, line, some .double⟩
    let as := [string "%(low)" 1, string "5d%%" 1, ⟨.special, ['-'], 1, none⟩, ⟨.word, "2".toList, 2, none⟩]
    let bs := [string "%[^]%]s" 3]
    let field (d : Descriptor) (source : String) (info : Bytes) (target : Option (Text × Bytes)) : Instruction :=
      .field ⟨d, source.toList, info, target.map Prod.fst, target.map Prod.snd⟩
    let is := [field ⟨.signed, 'd', .empty, 5, -1, 0⟩ "5d" [] (some ("low".toList, [0x00, 0x03])),
      .literal [0x25, 0xFE]]
    let js := [field ⟨.string, '[', .empty, 0, -1, 4⟩ "[^]%]" [0x5E, 0x5D, 0x25, 0x00] none, .literal [0x73]]
    (k.compileString {} .print as).result = .ok is ∧ (k.compileString {} .print bs).result = .ok js ∧
      (k.compileString {} .print (as ++ bs)).result = .ok (is ++ js) ∧
      ∃ first second, (k.compileString {} .print as).result = .ok first ∧
        (k.compileString {} .print bs).result = .ok second ∧ is ++ js = Instruction.merge (first ++ second) := by
  intro k string as bs field is js
  have ha : (k.compileString {} .print as).result = .ok is := by decide +kernel
  have hb : (k.compileString {} .print bs).result = .ok js := by decide +kernel
  have whole : Instruction.merge (is ++ js) = is ++ js := by decide +kernel
  obtain ⟨join, cut⟩ := compileString_parts 32 k.fields {} .print as bs
  have joined := join is js ha hb
  rw [whole] at joined
  refine ⟨ha, hb, joined, cut (by decide) ?_ _ joined⟩
  rintro t ⟨⟩
  exact ⟨by rintro u ⟨⟩; decide, by decide⟩

end Compiler
end DeviceProtocol
