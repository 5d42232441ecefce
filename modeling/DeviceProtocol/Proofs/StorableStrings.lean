import DeviceProtocol.Compile.Strings
import DeviceProtocol.Proofs.Canonical
import DeviceProtocol.Proofs.Success
set_option autoImplicit false

namespace DeviceProtocol

namespace Cell

/-- The cell gives a canonical instruction, as long as the info of a field is not too long. -/
def Storable : Cell → Prop
  | char c => c ≠ Char.ofNat 0
  | byte _ => True
  | control code => code = .skip ∨ code = .whitespace
  | field f => f.info.length < 0x10000 → f.Canonical

/-- The cell is as tokens give it: no character that a string refuses, and no field yet. -/
def Raw : Cell → Prop
  | char c => isForbidden c = false
  | byte _ => True
  | control code => code = .skip ∨ code = .whitespace
  | field _ => False

theorem escape_cells (text : Text) (cells : List Cell) (n : Nat) (h : escape text = .ok (cells, n)) :
    (∃ code, (code = .skip ∨ code = .whitespace) ∧ cells = [control code]) ∨
      ∃ bs : Bytes, cells = bs.map byte := by
  unfold escape at h
  split at h
  · cases h
  · cases h
    exact .inl ⟨_, .inl rfl, rfl⟩
  · cases h
    exact .inl ⟨_, .inr rfl, rfl⟩
  · dsimp only at h
    split at h
    · cases h
    · exact .inr ⟨[_], (ofNumber_eq_ok h).1⟩
  · dsimp only at h
    split at h
    · cases h
    · exact .inr ⟨[_], (ofNumber_eq_ok h).1⟩
  · split at h
    · cases h
      exact .inr ⟨[_], rfl⟩
    · split at h
      · dsimp only at h
        split at h
        · cases h
        · exact .inr ⟨[_], (ofNumber_eq_ok h).1⟩
      · split at h
        · cases h
        · cases h
          exact .inr ⟨_, rfl⟩

theorem escape_raw (text : Text) (cells : List Cell) (n : Nat)
    (h : escape text = .ok (cells, n)) : ∀ c ∈ cells, c.Raw := by
  obtain ⟨code, hc, rfl⟩ | ⟨bs, rfl⟩ := escape_cells text cells n h
  · simpa [Raw] using hc
  · simp [Raw]

theorem ne_null_of_allowed (c : Char) (h : isForbidden c = false) : c ≠ Char.ofNat 0 := by
  rintro rfl
  exact absurd h (by decide)

theorem ofQuoted_raw (text : Text) (cells : List Cell) (h : ofQuoted text = .ok cells) :
    ∀ c ∈ cells, c.Raw := by
  fun_induction ofQuoted text generalizing cells with
  | case1 =>
    rw [Except.ok.injEq] at h
    simp [← h]
  | case2 c cs hc => cases h
  | case3 cs hf ih =>
    obtain ⟨⟨front, length⟩, he, h⟩ := (Except.bind_eq_ok_iff _ _ _).mp h
    obtain ⟨back, hb, h⟩ := (Except.bind_eq_ok_iff _ _ _).mp h
    cases h
    exact List.forall_mem_append.mpr ⟨escape_raw cs front length he, ih length back hb⟩
  | case4 c cs hf hc ih =>
    obtain ⟨back, hb, h⟩ := (Except.bind_eq_ok_iff _ _ _).mp h
    cases h
    exact List.forall_mem_cons.mpr ⟨by simpa [Raw] using hf, ih back hb⟩

theorem Raw.storable {c : Cell} (h : c.Raw) : c.Storable := by
  cases c with
  | char c => exact ne_null_of_allowed c h
  | byte b => trivial
  | control code => exact h
  | field f => exact h.elim

theorem leadingChars_free (cells : List Cell) (h : ∀ c ∈ cells, c.Raw) :
    Char.ofNat 0 ∉ leadingChars cells := by
  fun_induction leadingChars cells with
  | case1 c cells ih =>
    rw [List.forall_mem_cons] at h
    rw [List.mem_cons, not_or]
    exact ⟨(ne_null_of_allowed c h.1).symm, ih h.2⟩
  | case2 => simp

end Cell

/-- The numbers of a conversion fit the stream; the length of its info is left to the compiler. -/
structure Conversion.InRange (c : Conversion) : Prop where
  conversion : c.descriptor.conversion.toNat < 0x100
  flags : c.descriptor.flags.bits < 0x10000
  width : -0x8000 ≤ c.descriptor.width ∧ c.descriptor.width < 0x8000
  precision : -0x8000 ≤ c.descriptor.precision ∧ c.descriptor.precision < 0x8000

namespace Format

theorem type?_ascii (c : Char) (t : FormatType) (h : type? c = some t) : c.toNat < 0x80 := by
  unfold type? at h
  split at h <;> cases h <;> decide

theorem flag?_lt (c : Char) (f : Flags) (h : flag? c = some f) : f.bits < 0x200 := by
  unfold flag? at h
  split at h <;> cases h <;> decide

theorem flags_lt (cs : Text) : (flags cs).bits < 0x200 := by
  have run (fs : List Flags) (hf : ∀ f ∈ fs, f.bits < 0x200) (acc : Flags) (ha : acc.bits < 0x200) :
      (fs.foldl Flags.union acc).bits < 0x200 := by
    induction fs generalizing acc with
    | nil => exact ha
    | cons f fs ih =>
      rw [List.forall_mem_cons] at hf
      exact ih hf.2 _ (Nat.or_lt_two_pow (n := 9) ha hf.1)
  refine run _ ?_ _ (by decide)
  intro f hf
  obtain ⟨c, _, hc⟩ := List.mem_filterMap.mp hf
  exact flag?_lt c f hc

theorem precision_ge (cs rest : Text) (n : Int) (h : precision cs = .ok (n, rest)) : -1 ≤ n := by
  unfold precision at h
  split at h
  · obtain ⟨m, _, h⟩ := (Except.bind_eq_ok_iff _ _ _).mp h
    cases h
    omega
  · cases h
    omega

theorem standard_cases (source : Text) (mode : Mode) (c : Conversion) (h : standard source mode = .ok c) :
    ∃ cs width precision conversion type tail after,
      source = '%' :: cs ∧
      numberValue ((cs.dropWhile isFlag).takeWhile isDigit) = .ok width ∧
      Format.precision ((cs.dropWhile isFlag).dropWhile isDigit) = .ok (precision, conversion :: tail) ∧
      width ≤ limit ∧ precision ≤ limit ∧ type? conversion = some type ∧
      ((flags (cs.takeWhile isFlag)).skips = true → mode = .scan) ∧
      info conversion source tail = .ok (c.info, after) ∧
      c.descriptor = ⟨type, conversion, flags (cs.takeWhile isFlag), width, precision, c.info.length⟩ ∧
      c.consumed = source.length - after.length := by
  unfold standard at h
  split at h
  · rename_i cs
    obtain ⟨width, hw, h⟩ := (Except.bind_eq_ok_iff _ _ _).mp h
    obtain ⟨⟨precision, rest⟩, hp, h⟩ := (Except.bind_eq_ok_iff _ _ _).mp h
    dsimp only at h
    split at h
    · cases h
    · rename_i hl
      split at h
      · cases h
      · rename_i conversion tail
        split at h
        · cases h
        · rename_i type ht
          split at h
          · cases h
          · rename_i hs
            obtain ⟨⟨info, after⟩, hi, h⟩ := (Except.bind_eq_ok_iff _ _ _).mp h
            cases h
            simp only [Bool.or_eq_true, decide_eq_true_eq, not_or, Nat.not_lt, Int.not_lt] at hl
            refine ⟨cs, width, precision, conversion, type, tail, after, rfl, hw, hp, hl.1, hl.2, ht, ?_, hi, rfl, rfl⟩
            intro skips
            simpa [skips] using hs
  · cases h

theorem standard_of_parts (cs tail after : Text) (mode : Mode) (width : Nat) (precision : Int) (conversion : Char)
    (type : FormatType) (bs : Bytes) (hw : numberValue ((cs.dropWhile isFlag).takeWhile isDigit) = .ok width)
    (hp : Format.precision ((cs.dropWhile isFlag).dropWhile isDigit) = .ok (precision, conversion :: tail))
    (wide : width ≤ limit) (precise : precision ≤ limit) (ht : type? conversion = some type)
    (hs : (flags (cs.takeWhile isFlag)).skips = true → mode = .scan)
    (hi : info conversion ('%' :: cs) tail = .ok (bs, after)) :
    standard ('%' :: cs) mode = .ok {
      descriptor := ⟨type, conversion, flags (cs.takeWhile isFlag), width, precision, bs.length⟩
      consumed := ('%' :: cs).length - after.length
      info := bs } := by
  have inRange : ¬ (decide (limit < width) || decide ((limit : Int) < precision)) = true := by
    simp only [Bool.or_eq_true, decide_eq_true_eq]
    omega
  have allowed : ¬ ((flags (cs.takeWhile isFlag)).skips && mode != .scan) = true := by
    rw [Bool.and_eq_true]
    rintro ⟨skips, output⟩
    rw [hs skips] at output
    cases output
  simp only [standard, hw, hp, bind, Except.bind]
  rw [if_neg inRange]
  simp only [ht]
  rw [if_neg allowed, hi]
  rfl

theorem standard_inRange (source : Text) (mode : Mode) (c : Conversion)
    (h : standard source mode = .ok c) : c.InRange := by
  obtain ⟨cs, width, precision, conversion, type, tail, after, -, -, hp, wide, precise, ht, -, -, descriptor, -⟩ :=
    standard_cases source mode c h
  have low := precision_ge _ _ _ hp
  have ascii := type?_ascii conversion type ht
  have small := flags_lt (cs.takeWhile isFlag)
  have top : limit = 0x7FFF := rfl
  constructor
  all_goals rw [descriptor]
  all_goals dsimp only
  all_goals omega

end Format

theorem Text.cutAt?_eq_some (sep : Char) (t front rest : Text) (h : cutAt? sep t = some (front, rest)) :
    t = front ++ sep :: rest := by
  unfold cutAt? at h
  split at h
  · cases h
  · rename_i c tail hd
    cases h
    exact eq_takeWhile_append sep c t _ hd

theorem Text.mem_of_mem_upTo (c : Char) (n : Int) (t : Text) (h : c ∈ upTo n t) : c ∈ t := by
  unfold upTo at h
  split at h <;> exact List.mem_of_mem_take h

namespace Compiler

/-- What the compiler takes from outside has a place in the stream: the numbers of formats, and the addresses of
fields. -/
structure Storable (k : Compiler) : Prop where
  converter : ∀ text mode c, k.converter text mode = .ok c → c.InRange
  addresses : ∀ table ∈ k.fields, ∀ entry ∈ table, entry.2.length < 0x10000

variable (k : Compiler)

theorem splitField_cases (source text : Text) (target : Option (Text × Bytes))
    (h : k.splitField source = .ok (target, text)) :
    target = none ∧ text = source ∨
      ∃ c name rest address table, source = c :: '(' :: (name ++ ')' :: rest) ∧ text = '%' :: rest ∧
        k.fields = some table ∧ table.lookup name = some address ∧ target = some (name, address) := by
  unfold splitField at h
  split at h
  · rename_i c cs
    split at h
    · cases h
    · rename_i table htable
      split at h
      · cases h
      · rename_i name rest hcut
        split at h
        · cases h
        · rename_i address hlookup
          cases h
          rw [Text.cutAt?_eq_some ')' cs name rest hcut]
          exact .inr ⟨c, name, rest, address, table, rfl, rfl, htable, hlookup, rfl⟩
  · cases h
    exact .inl ⟨rfl, rfl⟩

theorem splitField_free (hk : k.Storable) (source text : Text) (target : Option (Text × Bytes))
    (hs : Char.ofNat 0 ∉ source) (h : k.splitField source = .ok (target, text)) :
    Char.ofNat 0 ∉ text ∧ ∀ t ∈ target, Char.ofNat 0 ∉ t.1 ∧ t.2.length < 0x10000 := by
  obtain ⟨rfl, rfl⟩ | ⟨c, name, rest, address, table, rfl, rfl, htable, hlookup, rfl⟩ :=
    k.splitField_cases source text target h
  · exact ⟨hs, by simp⟩
  · obtain ⟨before, after, htab, -⟩ := List.lookup_eq_some_iff.mp hlookup
    have haddress := hk.addresses table htable (name, address) (by simp [htab])
    simp only [List.mem_cons, List.mem_append, not_or] at hs
    refine ⟨?_, ?_⟩
    · rw [List.mem_cons, not_or]
      exact ⟨by decide, hs.2.2.2.2⟩
    · rintro t ht
      cases ht
      exact ⟨hs.2.2.1, haddress⟩

theorem compileFormat_cases (line : Int) (file : Option Text) (mode : Mode) (source : Text) (f : Field) (n : Int)
    (h : k.compileFormat line file mode source = .ok (f, n)) :
    ∃ target text c, k.splitField source = .ok (target, text) ∧ k.converter text mode = .ok c ∧
      illegal? (target.map Prod.fst) c.descriptor = none ∧
      f = {
        format := { c.descriptor with infoLength := (closeInfo c.info).length }
        source := (Text.upTo c.consumed text).drop 1
        info := closeInfo c.info
        name := target.map Prod.fst
        address := target.map Prod.snd } := by
  unfold compileFormat at h
  dsimp only at h
  obtain ⟨⟨target, text⟩, ht, h⟩ := (Except.bind_eq_ok_iff _ _ _).mp h
  obtain ⟨c, hc, h⟩ := (Except.bind_eq_ok_iff _ _ _).mp h
  split at h
  · cases h
  · rename_i legal
    cases h
    exact ⟨target, text, c, (Except.mapError_eq_ok_iff _ _ _).mp ht, hc, legal, rfl⟩

/-- The field is what a format is compiled to, in a text without null characters. -/
def Compiles (file : Option Text) (mode : Mode) (f : Field) : Prop :=
  ∃ line source n, Char.ofNat 0 ∉ source ∧ k.compileFormat line file mode source = .ok (f, n)

theorem Compiles.storable {k : Compiler} {file : Option Text} {mode : Mode} {f : Field} (h : k.Compiles file mode f)
    (hk : k.Storable) : (Cell.field f).Storable := by
  obtain ⟨line, source, n, hs, h⟩ := h
  obtain ⟨target, text, c, ht, hc, -, rfl⟩ := k.compileFormat_cases line file mode source f n h
  obtain ⟨htext, htarget⟩ := k.splitField_free hk source text target hs ht
  have hr := hk.converter text mode c hc
  intro short
  constructor
  · exact ⟨hr.conversion, hr.flags, hr.width, hr.precision, short⟩
  · intro hm
    exact htext (Text.mem_of_mem_upTo _ _ text (List.mem_of_mem_drop hm))
  · intro name hname
    obtain ⟨t, ht, rfl⟩ := Option.map_eq_some_iff.mp hname
    exact (htarget t ht).1
  · simp
  · intro address haddress
    obtain ⟨t, ht, rfl⟩ := Option.map_eq_some_iff.mp haddress
    exact (htarget t ht).2
  · rfl

theorem compileFormats_cells (line : Int) (file : Option Text) (mode : Mode) (position : Nat) (cells out : List Cell)
    (hs : ∀ c ∈ cells, c.Raw) (h : k.compileFormats line file mode position cells = .ok out) :
    ∀ c ∈ out, c.Raw ∨ ∃ f, c = .field f ∧ k.Compiles file mode f := by
  fun_induction k.compileFormats line file mode position cells generalizing out with
  | case1 position =>
    cases h
    simp
  | case2 position rest ih =>
    obtain ⟨back, hb, h⟩ := (Except.bind_eq_ok_iff _ _ _).mp h
    cases h
    simp only [List.forall_mem_cons] at hs
    exact List.forall_mem_cons.mpr ⟨.inl trivial, ih back hs.2.2 hb⟩
  | case3 position rest _ source ih =>
    -- the format may use the characters up to the next cell that is none, and those hold no null character
    obtain ⟨⟨f, n⟩, hf, h⟩ := (Except.bind_eq_ok_iff _ _ _).mp h
    obtain ⟨back, hb, h⟩ := (Except.bind_eq_ok_iff _ _ _).mp h
    cases h
    have free : Char.ofNat 0 ∉ source := Cell.leadingChars_free (.char '%' :: rest) hs
    have back_cells := ih n back (fun c hc => hs c (List.mem_cons_of_mem _ (List.mem_of_mem_drop hc))) hb
    rw [List.forall_mem_append]
    refine ⟨fun c hc => ?_, back_cells⟩
    rw [List.eq_of_mem_replicate hc]
    exact .inr ⟨f, rfl, line, source, n, free, (Except.mapError_eq_ok_iff _ _ _).mp hf⟩
  | case4 position cell rest _ _ ih =>
    obtain ⟨back, hb, h⟩ := (Except.bind_eq_ok_iff _ _ _).mp h
    cases h
    rw [List.forall_mem_cons] at hs
    exact List.forall_mem_cons.mpr ⟨.inl hs.1, ih back hs.2 hb⟩

theorem byteCell_eq_byte (text : Text) (c : Cell) (h : byteCell text = .ok c) : ∃ b, c = .byte b := by
  obtain ⟨literal, -, h⟩ := (Except.bind_eq_ok_iff _ _ _).mp h
  split at h
  · split at h
    · cases h
    · cases h
  · split at h
    · cases h
    · split at h
      · cases h
      · exact ⟨_, Cell.ofValue_eq_ok h⟩

theorem wordCells_raw (mode : Mode) (text : Text) (cells : List Cell)
    (h : wordCells mode text = .ok cells) : ∀ c ∈ cells, c.Raw := by
  unfold wordCells at h
  split at h
  · cases h
    simp
  · split at h
    · obtain ⟨c, hc, rfl⟩ := (Except.map_eq_ok_iff _ _ _).mp h
      obtain ⟨b, rfl⟩ := byteCell_eq_byte text c hc
      simp [Cell.Raw]
    · split at h
      · split at h
        · cases h
          simp [Cell.Raw]
        · cases h
      · split at h
        · cases h
          simp [Cell.Raw]
        · cases h

theorem encode_cases (p : Protocol) (mode : Mode) (depth : Nat) (item : StringItem)
    (cells : List Cell) (h : (k.encode p mode depth item).result = .ok cells) :
    (∃ sign number c, item = .signed sign number ∧ byteCell (sign.text ++ number.text) = .ok c ∧
      cells = [c]) ∨
    ∃ t, item = .token t ∧
      (t.kind = .string ∧ Cell.ofQuoted t.text = .ok cells ∨
       t.kind = .word ∧ wordCells mode t.text = .ok cells ∨
       (t.kind = .terminator ∨ t.isBlank = true) ∧ cells = [] ∨
       t.kind = .reference ∧ ∃ value d, (p.resolve t).result = .ok value ∧ depth = d + 1 ∧
         (Traced.flatMap (k.encode p mode d) (stringItems value)).result = .ok cells) := by
  cases item with
  | signed sign number =>
    rw [encode, Traced.located_eq_ok_iff, Except.map_eq_ok_iff] at h
    obtain ⟨c, hc, rfl⟩ := h
    exact .inl ⟨sign, number, c, rfl, hc, rfl⟩
  | token t =>
    refine .inr ⟨t, rfl, ?_⟩
    rw [encode] at h
    split at h
    · rename_i hk
      exact .inl ⟨hk, (Traced.located_eq_ok_iff _ _ _ _).mp h⟩
    · rename_i hk
      obtain ⟨value, hv, h⟩ := (Traced.bind_eq_ok_iff _ _ _).mp h
      split at h
      · exact absurd h (Traced.fault_ne_ok _ _ _ _)
      · exact .inr (.inr (.inr ⟨hk, value, _, hv, rfl, h⟩))
    · rename_i hk
      cases h
      exact .inr (.inr (.inl ⟨.inl hk, rfl⟩))
    · rename_i hk
      exact .inr (.inl ⟨hk, (Traced.located_eq_ok_iff _ _ _ _).mp h⟩)
    · split at h
      · rename_i hb
        cases h
        exact .inr (.inr (.inl ⟨.inr hb, rfl⟩))
      · exact absurd h (Traced.fault_ne_ok _ _ _ _)
    · exact absurd h (Traced.fault_ne_ok _ _ _ _)

theorem encode_raw (p : Protocol) (mode : Mode) (depth : Nat) (item : StringItem)
    (cells : List Cell) (h : (k.encode p mode depth item).result = .ok cells) :
    ∀ c ∈ cells, c.Raw := by
  -- what a reference stands for is encoded at a smaller depth
  induction depth using Nat.strongRecOn generalizing item cells with
  | ind depth ih =>
    obtain ⟨sign, number, c, rfl, hc, rfl⟩ |
      ⟨t, rfl, ⟨_, ht⟩ | ⟨_, ht⟩ | ⟨_, rfl⟩ | ⟨_, value, d, hv, rfl, hs⟩⟩ :=
      k.encode_cases p mode depth item cells h
    · obtain ⟨b, rfl⟩ := byteCell_eq_byte _ c hc
      simp [Cell.Raw]
    · exact Cell.ofQuoted_raw t.text cells ht
    · exact wordCells_raw mode t.text cells ht
    · simp
    · exact Traced.flatMap_forall _ _ _ _ (fun i _ cs hcs => ih d (Nat.lt_succ_self d) i cs hcs) hs

theorem compileLine_cells (p : Protocol) (mode : Mode) (position : Nat) (run : List StringItem) (out : List Cell)
    (h : (k.compileLine p mode position run).result = .ok out) :
    ∀ c ∈ out, c.Raw ∨ mode ≠ .plain ∧ ∃ f, c = .field f ∧ k.Compiles p.file mode f := by
  unfold compileLine at h
  obtain ⟨cells, hc, h⟩ := (Traced.bind_eq_ok_iff _ _ _).mp h
  have raw : ∀ c ∈ cells, c.Raw :=
    Traced.flatMap_forall _ _ _ _ (fun i _ cs hcs => k.encode_raw p mode _ i cs hcs) hc
  split at h
  · cases h
    exact fun c hc => .inl (raw c hc)
  · cases h
    exact fun c hc => .inl (raw c hc)
  · rename_i formatted _
    intro c hc
    refine (k.compileFormats_cells _ _ _ position cells out raw h c hc).imp_right fun field => ⟨?_, field⟩
    exact formatted

theorem compileLines_cells (p : Protocol) (mode : Mode) (position : Nat) (runs : List (List StringItem))
    (out : List Cell) (h : (k.compileLines p mode position runs).result = .ok out) :
    ∀ c ∈ out, c.Raw ∨ mode ≠ .plain ∧ ∃ f, c = .field f ∧ k.Compiles p.file mode f := by
  induction runs generalizing position out with
  | nil =>
    cases h
    simp
  | cons run runs ih =>
    obtain ⟨front, hf, h⟩ := (Traced.bind_eq_ok_iff _ _ _).mp h
    obtain ⟨back, hb, h⟩ := (Traced.bind_eq_ok_iff _ _ _).mp h
    cases h
    rw [List.forall_mem_append]
    exact ⟨k.compileLine_cells p mode position run front hf, ih _ back hb⟩

theorem compileLines_storable (hk : k.Storable) (p : Protocol) (mode : Mode) (position : Nat)
    (runs : List (List StringItem)) (out : List Cell)
    (h : (k.compileLines p mode position runs).result = .ok out) : ∀ c ∈ out, c.Storable := by
  intro c hc
  obtain raw | ⟨-, f, rfl, field⟩ := k.compileLines_cells p mode position runs out h c hc
  · exact raw.storable
  · exact field.storable hk

end Compiler
end DeviceProtocol
