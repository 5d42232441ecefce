import Mathlib.Data.List.DropRight
import DeviceProtocol.Proofs.PlainStrings
import DeviceProtocol.Proofs.StorableStrings
set_option autoImplicit false

/-!
How the tokens of a string are cut: first into items, where a sign goes with the number behind it, then into runs of
items on one line. A list that is joined from two is cut at the seam, unless a sign meets a number there, or two items
of one line.
-/
namespace DeviceProtocol

namespace Token

theorem isNumeric_eq_false (t : Token) (h : t.kind ≠ .word) : t.isNumeric = false := by
  simp [isNumeric, h]

theorem kind_of_isSign (t : Token) (h : t.isSign = true) : t.kind = .special := by
  simp only [isSign, isSpecial, Bool.and_eq_true, beq_iff_eq] at h
  exact h.1.1

theorem isSign_eq_false (t : Token) (h : t.kind ≠ .special) : t.isSign = false :=
  Bool.eq_false_iff.mpr fun sign => h (t.kind_of_isSign sign)

theorem isNumeric_of_isSign (t : Token) (h : t.isSign = true) : t.isNumeric = false :=
  t.isNumeric_eq_false (by simp [t.kind_of_isSign h])

theorem text_of_isSign (t : Token) (h : t.isSign = true) : t.text = ['+'] ∨ t.text = ['-'] ∨ t.text = ['+', '-'] := by
  simp only [isSign, isBlank, isSpecial, Bool.and_eq_true, Bool.not_eq_true', beq_iff_eq] at h
  obtain ⟨⟨special, inside⟩, visible⟩ := h
  have written : t.text ≠ [] := by
    intro empty
    rw [special, empty] at visible
    cases visible
  have parts : t.text <+: ['+', '-'] ∨ t.text <+: ['-'] := by
    simpa [Text.occursIn, written] using inside
  simp only [List.prefix_cons_iff, List.prefix_nil, written, false_or] at parts
  obtain ⟨_, text, rfl | ⟨_, rfl, rfl⟩⟩ | ⟨_, text, rfl⟩ := parts
  · exact .inl text
  · exact .inr (.inr text)
  · exact .inr (.inl text)

end Token

def StringItem.map (f : Token → Token) : StringItem → StringItem
  | token t => token (f t)
  | signed sign number => signed (f sign) (f number)

theorem stringItems_map (f : Token → Token) (sign : ∀ t, (f t).isSign = t.isSign)
    (number : ∀ t, (f t).isNumeric = t.isNumeric) (ts : List Token) :
    stringItems (ts.map f) = (stringItems ts).map (.map f) := by
  fun_induction stringItems ts with
  | case1 => rfl
  | case2 t => rfl
  | case3 t u ts signed ih =>
    rw [List.map_cons, List.map_cons, stringItems, sign, number, if_pos signed, ih]
    rfl
  | case4 t u ts unsigned ih =>
    rw [List.map_cons, List.map_cons, stringItems, sign, number, if_neg unsigned, ← List.map_cons, ih]
    rfl

theorem stringItems_cons (t : Token) (ts : List Token) (h : ∀ u ∈ ts.head?, t.isSign = true → u.isNumeric = false) :
    stringItems (t :: ts) = .token t :: stringItems ts := by
  cases ts with
  | nil => rfl
  | cons u ts =>
    have unsigned : ¬ ((t.isSign && u.isNumeric) = true) := by
      intro both
      simp only [Bool.and_eq_true] at both
      exact absurd both.2 (by simp [h u rfl both.1])
    rw [stringItems, if_neg unsigned]

theorem stringItems_append (ts us : List Token)
    (apart : ∀ t ∈ ts.getLast?, ∀ u ∈ us.head?, t.isSign = true → u.isNumeric = false) :
    stringItems (ts ++ us) = stringItems ts ++ stringItems us := by
  fun_induction stringItems ts with
  | case1 => rfl
  | case2 t => exact stringItems_cons t us (apart t rfl)
  | case3 t u ts signed ih =>
    have tail : ∀ v ∈ ts.getLast?, v ∈ (t :: u :: ts).getLast? := by
      intro v hv
      cases ts with
      | nil => cases hv
      | cons w ts => simpa [List.getLast?_cons_cons] using hv
    rw [List.cons_append, List.cons_append, stringItems, if_pos signed, ih fun v hv => apart v (tail v hv)]
    rfl
  | case4 t u ts unsigned ih =>
    rw [List.cons_append, List.cons_append, stringItems, if_neg unsigned, ← List.cons_append,
      ih fun v hv => apart v (by simpa [List.getLast?_cons_cons] using hv)]
    rfl

theorem stringItems_append_of_unsigned (ts us : List Token) (unsigned : ∀ t ∈ ts.getLast?, t.isSign = false) :
    stringItems (ts ++ us) = stringItems ts ++ stringItems us :=
  stringItems_append ts us fun t last _ _ sign => absurd sign (by simp [unsigned t last])

theorem stringItems_around (front back : List Token) (t : Token) (sign : t.isSign = false)
    (number : t.isNumeric = false) :
    stringItems (front ++ t :: back) = stringItems front ++ .token t :: stringItems back := by
  have seam : ∀ s ∈ front.getLast?, ∀ u ∈ (t :: back).head?, s.isSign = true → u.isNumeric = false := by
    rintro s - u ⟨⟩ -
    exact number
  rw [stringItems_append front (t :: back) seam, stringItems_cons t back (by simp [sign])]

theorem sign_mem_stringItems (ts : List Token) (t : Token) (last : t ∈ ts.getLast?) (sign : t.isSign = true) :
    .token t ∈ stringItems ts := by
  obtain ⟨init, rfl⟩ := List.getLast?_eq_some_iff.mp last
  have seam : ∀ s ∈ init.getLast?, ∀ u ∈ [t].head?, s.isSign = true → u.isNumeric = false := by
    rintro s - u ⟨⟩ -
    exact t.isNumeric_of_isSign sign
  simp [stringItems_append init [t] seam, stringItems]

theorem signed_mem_stringItems (front back : List Token) (t u : Token) (sign : t.isSign = true)
    (number : u.isNumeric = true) : .signed t u ∈ stringItems (front ++ t :: u :: back) := by
  have seam : ∀ s ∈ front.getLast?, ∀ v ∈ (t :: u :: back).head?, s.isSign = true → v.isNumeric = false := by
    rintro s - v ⟨⟩ -
    exact t.isNumeric_of_isSign sign
  simp [stringItems_append front (t :: u :: back) seam, stringItems, sign, number]

theorem reference_mem_stringItems (ts : List Token) (t : Token) (mem : t ∈ ts) (reference : t.kind = .reference) :
    .token t ∈ stringItems ts := by
  obtain ⟨front, back, rfl⟩ := List.append_of_mem mem
  rw [stringItems_around front back t (t.isSign_eq_false (by simp [reference]))
    (t.isNumeric_eq_false (by simp [reference]))]
  simp

theorem exists_line_of_mem_stringItems (ts : List Token) (i : StringItem) (h : i ∈ stringItems ts) :
    ∃ t ∈ ts, t.line = i.line := by
  fun_induction stringItems ts with
  | case1 => simp at h
  | case2 t =>
    rw [List.mem_singleton.mp h]
    exact ⟨t, List.mem_cons_self .., rfl⟩
  | case3 t u ts _ ih =>
    obtain rfl | h := List.mem_cons.mp h
    · exact ⟨t, List.mem_cons_self .., rfl⟩
    · obtain ⟨v, hv, line⟩ := ih h
      exact ⟨v, List.mem_cons_of_mem _ (List.mem_cons_of_mem _ hv), line⟩
  | case4 t u ts _ ih =>
    obtain rfl | h := List.mem_cons.mp h
    · exact ⟨t, List.mem_cons_self .., rfl⟩
    · obtain ⟨v, hv, line⟩ := ih h
      exact ⟨v, List.mem_cons_of_mem _ hv, line⟩

theorem exists_line_of_head?_stringItems (ts : List Token) (i : StringItem) (h : i ∈ (stringItems ts).head?) :
    ∃ t ∈ ts.head?, t.line = i.line := by
  fun_cases stringItems ts with
  | case1 => cases h
  | case2 t =>
    cases h
    exact ⟨t, rfl, rfl⟩
  | case3 t u ts signed =>
    rw [stringItems, if_pos signed] at h
    cases h
    exact ⟨t, rfl, rfl⟩
  | case4 t u ts unsigned =>
    rw [stringItems, if_neg unsigned] at h
    cases h
    exact ⟨t, rfl, rfl⟩

theorem line_lt_of_stringItems (ts us : List Token) (ordered : ts.Pairwise fun t u => t.line ≤ u.line)
    (earlier : ∀ t ∈ ts.getLast?, ∀ u ∈ us.head?, t.line < u.line) :
    ∀ i ∈ (stringItems ts).getLast?, ∀ j ∈ (stringItems us).head?, i.line < j.line := by
  intro i hi j hj
  obtain ⟨t, ht, line⟩ := exists_line_of_mem_stringItems ts i (List.mem_of_mem_getLast? hi)
  obtain ⟨u, hu, line'⟩ := exists_line_of_head?_stringItems us j hj
  obtain ⟨init, last, rfl⟩ : ∃ init last, ts = init ++ [last] :=
    ⟨_, _, (List.dropLast_append_getLast (List.ne_nil_of_mem ht)).symm⟩
  have least : last.line < u.line := earlier last (by simp) u hu
  have most : t.line ≤ last.line := by
    obtain before | same := List.mem_append.mp ht
    · exact (List.pairwise_append.mp ordered).2.2 t before last (List.mem_singleton_self last)
    · exact Int.le_of_eq (congrArg Token.line (List.mem_singleton.mp same))
  omega

theorem lineRuns_cons (i : StringItem) (is : List StringItem) :
    ∃ run runs, lineRuns (i :: is) = (i :: run) :: runs := by
  rw [lineRuns]
  split
  · split
    · exact ⟨_, _, rfl⟩
    · exact ⟨_, _, rfl⟩
  · exact ⟨_, _, rfl⟩

theorem lineRuns_cons_same (i j : StringItem) (is js : List StringItem) (runs : List (List StringItem))
    (h : lineRuns is = (j :: js) :: runs) (same : i.line = j.line) :
    lineRuns (i :: is) = (i :: j :: js) :: runs := by
  rw [lineRuns, h]
  simp [same]

theorem lineRuns_cons_other (i : StringItem) (is : List StringItem) (other : ∀ j ∈ is.head?, i.line ≠ j.line) :
    lineRuns (i :: is) = [i] :: lineRuns is := by
  cases is with
  | nil => rfl
  | cons j is =>
    obtain ⟨run, runs, h⟩ := lineRuns_cons j is
    rw [lineRuns, h]
    simp [other j rfl]

theorem lineRuns_map (f : StringItem → StringItem) (line : ∀ i, (f i).line = i.line) (is : List StringItem) :
    lineRuns (is.map f) = (lineRuns is).map (List.map f) := by
  induction is with
  | nil => rfl
  | cons i is ih =>
    cases is with
    | nil => rfl
    | cons j is =>
      obtain ⟨run, runs, h⟩ := lineRuns_cons j is
      rw [h] at ih
      by_cases same : i.line = j.line
      · rw [lineRuns_cons_same i j _ run runs h same, List.map_cons,
          lineRuns_cons_same (f i) (f j) _ (run.map f) (runs.map (List.map f)) ih (by simp [line, same])]
        rfl
      · rw [lineRuns_cons_other i _ (by simpa using same), List.map_cons,
          lineRuns_cons_other (f i) _ (by simpa [line] using same), ih, h]
        rfl

theorem lineRuns_append (is js : List StringItem) (apart : ∀ i ∈ is.getLast?, ∀ j ∈ js.head?, i.line ≠ j.line) :
    lineRuns (is ++ js) = lineRuns is ++ lineRuns js := by
  induction is with
  | nil => rfl
  | cons i is ih =>
    cases is with
    | nil => exact lineRuns_cons_other i js (apart i rfl)
    | cons a is =>
      have tail := ih fun b hb => apart b (by simpa [List.getLast?_cons_cons] using hb)
      obtain ⟨run, runs, h⟩ := lineRuns_cons a is
      rw [h] at tail
      by_cases same : i.line = a.line
      · rw [lineRuns_cons_same i a _ run runs h same, List.cons_append,
          lineRuns_cons_same i a _ run (runs ++ lineRuns js) tail same]
        rfl
      · have other : ∀ b ∈ (a :: is).head?, i.line ≠ b.line := by
          rintro b ⟨⟩
          exact same
        rw [lineRuns_cons_other i _ other, List.cons_append,
          lineRuns_cons_other i (a :: is ++ js) (by simpa using other), tail, h]
        rfl

theorem lineRuns_prepend (is js run : List StringItem) (j : StringItem) (runs : List (List StringItem))
    (h : lineRuns js = (j :: run) :: runs) (same : ∀ i ∈ is, i.line = j.line) :
    lineRuns (is ++ js) = (is ++ j :: run) :: runs := by
  induction is with
  | nil => exact h
  | cons i is ih =>
    obtain ⟨line, same⟩ := List.forall_mem_cons.mp same
    cases is with
    | nil => exact lineRuns_cons_same i j js run runs h line
    | cons a is =>
      have first := (List.forall_mem_cons.mp same).1
      exact lineRuns_cons_same i a _ _ runs (ih same) (line.trans first.symm)

theorem lineRuns_single (is : List StringItem) (line : Int) (same : ∀ i ∈ is, i.line = line) (given : is ≠ []) :
    lineRuns is = [is] := by
  obtain ⟨i, last, rfl⟩ : ∃ init last, is = init ++ [last] := ⟨_, _, (List.dropLast_append_getLast given).symm⟩
  rw [List.forall_mem_append, List.forall_mem_singleton] at same
  exact lineRuns_prepend i [last] [] last [] rfl fun j hj => (same.1 j hj).trans same.2.symm

theorem exists_line_ending (is : List StringItem) (line : Int) :
    ∃ front back, is = front ++ back ∧ (∀ i ∈ back, i.line = line) ∧ ∀ i ∈ front.getLast?, i.line ≠ line := by
  refine ⟨is.rdropWhile (·.line = line), is.rtakeWhile (·.line = line),
    (List.rdropWhile_append_rtakeWhile ..).symm, ?_, ?_⟩
  · intro i hi
    simpa using List.mem_rtakeWhile_imp hi
  · intro i hi
    obtain ⟨given, rfl⟩ := List.mem_getLast?_eq_getLast hi
    simpa using List.rdropWhile_last_not _ _ given

theorem exists_line_beginning (is : List StringItem) (line : Int) :
    ∃ front back, is = front ++ back ∧ (∀ i ∈ front, i.line = line) ∧ ∀ i ∈ back.head?, i.line ≠ line := by
  refine ⟨is.takeWhile (·.line = line), is.dropWhile (·.line = line), List.takeWhile_append_dropWhile.symm, ?_, ?_⟩
  · intro i hi
    simpa using List.mem_takeWhile_imp hi
  · intro i hi
    have stops := List.head?_dropWhile_not (fun i : StringItem => decide (i.line = line)) is
    rw [Option.mem_def.mp hi] at stops
    simpa using stops

namespace Traced

variable {α β : Type} (f : α → Traced (List β))

theorem flatMap_cons_eq_ok_iff (a : α) (as : List α) (out : List β) :
    (flatMap f (a :: as)).result = .ok out ↔
      ∃ front back, (f a).result = .ok front ∧ (flatMap f as).result = .ok back ∧ out = front ++ back := by
  simp only [flatMap, bind_eq_ok_iff, result_pure, Except.ok.injEq]
  constructor
  · rintro ⟨front, hfront, back, hback, rfl⟩
    exact ⟨front, back, hfront, hback, rfl⟩
  · rintro ⟨front, back, hfront, hback, rfl⟩
    exact ⟨front, hfront, back, hback, rfl⟩

theorem flatMap_append_eq_ok_iff (as bs : List α) (out : List β) :
    (flatMap f (as ++ bs)).result = .ok out ↔
      ∃ front back, (flatMap f as).result = .ok front ∧ (flatMap f bs).result = .ok back ∧ out = front ++ back := by
  rw [flatMap_append]
  simp only [Except.bind_eq_ok_iff, Except.ok.injEq]
  constructor
  · rintro ⟨front, hfront, back, hback, rfl⟩
    exact ⟨front, back, hfront, hback, rfl⟩
  · rintro ⟨front, back, hfront, hback, rfl⟩
    exact ⟨front, hfront, back, hback, rfl⟩

theorem ok_of_flatMap (as : List α) (bs : List β) (h : (flatMap f as).result = .ok bs) (a : α) (ha : a ∈ as) :
    ∃ part, (f a).result = .ok part := by
  obtain ⟨front, back, rfl⟩ := List.append_of_mem ha
  obtain ⟨_, _, -, hback, -⟩ := (flatMap_append_eq_ok_iff f _ _ _).mp h
  obtain ⟨part, _, hpart, -, -⟩ := (flatMap_cons_eq_ok_iff f _ _ _).mp hback
  exact ⟨part, hpart⟩

end Traced

namespace Compiler

variable (k : Compiler) (p : Protocol) (mode : Mode)

theorem encode_of_compileLines (position : Nat) (runs : List (List StringItem)) (out : List Cell)
    (h : (k.compileLines p mode position runs).result = .ok out) (i : StringItem) (hi : i ∈ runs.flatten) :
    ∃ cells, (k.encode p mode k.depthLimit.toNat i).result = .ok cells := by
  induction runs generalizing position out with
  | nil => simp at hi
  | cons run runs ih =>
    obtain ⟨front, hfront, h⟩ := (Traced.bind_eq_ok_iff _ _ _).mp h
    obtain ⟨back, hback, -⟩ := (Traced.bind_eq_ok_iff _ _ _).mp h
    rw [List.flatten_cons, List.mem_append] at hi
    obtain hi | hi := hi
    · obtain ⟨cells, hcells, -⟩ := (Traced.bind_eq_ok_iff _ _ _).mp hfront
      exact Traced.ok_of_flatMap _ run cells hcells i hi
    · exact ih _ back hback hi

theorem encode_of_compileString (ts : List Token) (is : List Instruction)
    (h : (k.compileString p mode ts).result = .ok is) (i : StringItem) (hi : i ∈ stringItems ts) :
    ∃ cells, (k.encode p mode k.depthLimit.toNat i).result = .ok cells := by
  obtain ⟨cells, hcells, -⟩ := (Traced.bind_eq_ok_iff _ _ _).mp h
  rw [← lineRuns_flatten (stringItems ts)] at hi
  exact k.encode_of_compileLines p mode 0 _ cells hcells i hi

theorem encode_reference_iff (depth : Nat) (t : Token) (cells : List Cell) (reference : t.kind = .reference) :
    (k.encode p mode depth (.token t)).result = .ok cells ↔
      ∃ value d, (p.resolve t).result = .ok value ∧ depth = d + 1 ∧
        (Traced.flatMap (k.encode p mode d) (stringItems value)).result = .ok cells := by
  unfold encode
  simp only [reference, Traced.bind_eq_ok_iff]
  refine exists_congr fun value => ?_
  cases depth with
  | zero => simp [Traced.fault]
  | succ d => simp

theorem not_isSign_of_encode (depth : Nat) (t : Token) (cells : List Cell)
    (h : (k.encode p mode depth (.token t)).result = .ok cells) : t.isSign = false := by
  obtain ⟨_, _, _, item, -⟩ | ⟨u, item, kinds⟩ := k.encode_cases p mode depth (.token t) cells h
  · cases item
  · cases item
    rw [Bool.eq_false_iff]
    intro sign
    have special := t.kind_of_isSign sign
    have visible : t.isBlank = false := by
      simp only [Token.isSign, Bool.and_eq_true, Bool.not_eq_true'] at sign
      exact sign.2
    simp [special, visible] at kinds

theorem unsigned_of_encode (depth : Nat) (ts : List Token)
    (h : ∀ i ∈ stringItems ts, ∃ cells, (k.encode p mode depth i).result = .ok cells) :
    ∀ t ∈ ts.getLast?, t.isSign = false := by
  intro t last
  rw [Bool.eq_false_iff]
  intro sign
  obtain ⟨cells, hcells⟩ := h (.token t) (sign_mem_stringItems ts t last sign)
  exact absurd sign (by simp [k.not_isSign_of_encode p mode depth t cells hcells])

end Compiler
end DeviceProtocol
