import DeviceProtocol.Proofs.JoinedStrings
import DeviceProtocol.Proofs.QuotedValues
set_option autoImplicit false

/-!
References and what they stand for. A reference gives the cells of its value where it stands, one level deeper and on
the line of the reference. So the value may be written in its place, as long as it is written on that line: the tokens
are then one level less deep, and nothing but a fault could tell the difference.
-/
namespace DeviceProtocol

def Token.onLine (line : Int) (t : Token) : Token := { t with line := line }

def StringItem.onLine (line : Int) : StringItem → StringItem
  | token t => token (t.onLine line)
  | signed sign number => signed (sign.onLine line) (number.onLine line)

@[simp] theorem Token.onLine_onLine (a b : Int) (t : Token) : (t.onLine a).onLine b = t.onLine b := rfl

@[simp] theorem Token.isSign_onLine (line : Int) (t : Token) : (t.onLine line).isSign = t.isSign := rfl

@[simp] theorem Token.isNumeric_onLine (line : Int) (t : Token) : (t.onLine line).isNumeric = t.isNumeric := rfl

theorem StringItem.line_onLine (line : Int) (i : StringItem) : (i.onLine line).line = line := by
  cases i <;> rfl

theorem stringItems_onLine (line : Int) (ts : List Token) :
    stringItems (ts.map (·.onLine line)) = (stringItems ts).map (·.onLine line) := by
  have items : StringItem.map (·.onLine line) = StringItem.onLine line := by
    funext i
    cases i <;> rfl
  rw [stringItems_map _ (Token.isSign_onLine line) (Token.isNumeric_onLine line), items]

theorem stringItems_moved (ts us : List Token) (same : ts.map (·.onLine 0) = us.map (·.onLine 0)) :
    List.Forall₂ (fun i j => i.onLine 0 = j.onLine 0) (stringItems ts) (stringItems us) := by
  have items : (stringItems ts).map (·.onLine 0) = (stringItems us).map (·.onLine 0) := by
    rw [← stringItems_onLine, ← stringItems_onLine, same]
  rwa [← List.forall₂_eq_eq_eq, List.forall₂_map_left_iff, List.forall₂_map_right_iff] at items

theorem Traced.flatMap_transfer {α β : Type} {R : α → α → Prop} (f g : α → Traced (List β)) (as bs : List α)
    (related : List.Forall₂ R as bs)
    (step : ∀ a b, R a b → ∀ part, (f a).result = .ok part → (g b).result = .ok part) (out : List β)
    (h : (flatMap f as).result = .ok out) : (flatMap g bs).result = .ok out := by
  induction related generalizing out with
  | nil => exact h
  | cons r _ ih =>
    rw [flatMap_cons_eq_ok_iff] at h ⊢
    obtain ⟨front, back, hfront, hback, rfl⟩ := h
    exact ⟨front, back, step _ _ r front hfront, ih back hback, rfl⟩

theorem Protocol.resolve_moved (p : Protocol) (t u : Token) (same : t.onLine 0 = u.onLine 0) (value : List Token)
    (h : (p.resolve t).result = .ok value) :
    ∃ value', (p.resolve u).result = .ok value' ∧ value.map (·.onLine 0) = value'.map (·.onLine 0) := by
  obtain ⟨kind, text, line, quote⟩ := t
  obtain ⟨kind', text', line', quote'⟩ := u
  simp only [Token.onLine, Token.mk.injEq] at same
  obtain ⟨rfl, rfl, -, rfl⟩ := same
  unfold resolve at h ⊢
  obtain ⟨index, hindex, h⟩ := (Traced.bind_eq_ok_iff _ _ _).mp h
  rw [Traced.bind_of_ok _ _ index hindex]
  cases index with
  | some i =>
    dsimp only at h ⊢
    split at h
    · cases h
    · next inside =>
      rw [if_neg inside]
      split at h
      · exact absurd h (Traced.fault_ne_ok _ _ _ _)
      · cases quote with
        | none =>
          cases h
          exact ⟨_, rfl, rfl⟩
        | some q =>
          cases h
          exact ⟨_, rfl, rfl⟩
  | none =>
    obtain ⟨found, hfound, h⟩ := (Traced.bind_eq_ok_iff _ _ _).mp h
    rw [Traced.bind_of_ok _ _ found hfound]
    cases found with
    | none => exact absurd h (Traced.fault_ne_ok _ _ _ _)
    | some b => exact ⟨value, h, rfl⟩

namespace Compiler

variable (k : Compiler) (p : Protocol) (mode : Mode)

theorem encode_plain (depth depth' : Nat) (i j : StringItem) (same : i.onLine 0 = j.onLine 0)
    (plain : ∀ t, i = .token t → t.kind ≠ .reference) (cells : List Cell)
    (h : (k.encode p mode depth i).result = .ok cells) : (k.encode p mode depth' j).result = .ok cells := by
  cases i with
  | signed sign number =>
    cases j with
    | token t => cases same
    | signed sign' number' =>
      simp only [StringItem.onLine, Token.onLine, StringItem.signed.injEq, Token.mk.injEq] at same
      rw [encode, Traced.located_eq_ok_iff] at h ⊢
      rwa [← same.1.2.1, ← same.2.2.1]
  | token t =>
    cases j with
    | signed sign number => cases same
    | token u =>
      obtain ⟨kind, text, line, quote⟩ := t
      obtain ⟨kind', text', line', quote'⟩ := u
      simp only [StringItem.onLine, Token.onLine, StringItem.token.injEq, Token.mk.injEq] at same
      obtain ⟨rfl, rfl, -, rfl⟩ := same
      cases kind with
      | reference => exact absurd rfl (plain _ rfl)
      | string =>
        rw [encode_string_iff _ _ _ _ _ _ rfl] at h ⊢
        exact h
      | word =>
        rw [encode, Traced.located_eq_ok_iff] at h ⊢
        exact h
      | terminator =>
        rw [encode] at h ⊢
        exact h
      | special =>
        rw [encode] at h
        dsimp only at h
        split at h
        · rename_i blank
          cases h
          exact k.encode_blank p mode depth' ⟨.special, text, line', quote⟩ blank
        · exact absurd h (Traced.fault_ne_ok _ _ _ _)
      | eof =>
        rw [encode] at h
        exact absurd h (Traced.fault_ne_ok _ _ _ _)

theorem encode_moved (depth depth' : Nat) (deeper : depth ≤ depth') (i j : StringItem) (same : i.onLine 0 = j.onLine 0)
    (cells : List Cell) (h : (k.encode p mode depth i).result = .ok cells) :
    (k.encode p mode depth' j).result = .ok cells := by
  -- the value of a reference is encoded at a smaller depth
  induction depth generalizing depth' i j cells with
  | zero =>
    refine k.encode_plain p mode 0 depth' i j same (fun t item reference => ?_) cells h
    rw [item, encode_reference_iff _ _ _ _ _ _ reference] at h
    obtain ⟨value, d, -, depth, -⟩ := h
    cases depth
  | succ depth ih =>
    by_cases plain : ∀ t, i = .token t → t.kind ≠ .reference
    · exact k.encode_plain p mode (depth + 1) depth' i j same plain cells h
    · simp only [not_forall, not_not] at plain
      obtain ⟨t, rfl, reference⟩ := plain
      cases j with
      | signed sign number => cases same
      | token u =>
        simp only [StringItem.onLine, StringItem.token.injEq] at same
        have kinds := congrArg Token.kind same
        rw [encode_reference_iff _ _ _ _ _ _ reference] at h
        obtain ⟨value, d, hvalue, ⟨⟩, hcells⟩ := h
        obtain ⟨value', hvalue', values⟩ := p.resolve_moved t u same value hvalue
        obtain ⟨d, rfl⟩ := Nat.exists_eq_add_of_le' (Nat.lt_of_lt_of_le (Nat.succ_pos depth) deeper)
        rw [encode_reference_iff _ _ _ _ _ _ (kinds ▸ reference)]
        refine ⟨value', d, hvalue', rfl, ?_⟩
        exact Traced.flatMap_transfer _ _ _ _ (stringItems_moved value value' values)
          (fun i j same part => ih d (Nat.le_of_succ_le_succ deeper) i j same part) cells hcells

theorem encode_inlined (t : Token) (reference : t.kind = .reference) (depth : Nat) (cells : List Cell)
    (h : (k.encode p mode depth (.token t)).result = .ok cells) :
    ∃ value, (p.resolve t).result = .ok value ∧
      (Traced.flatMap (k.encode p mode depth) (stringItems (value.map (·.onLine t.line)))).result = .ok cells := by
  rw [encode_reference_iff _ _ _ _ _ _ reference] at h
  obtain ⟨value, d, hvalue, rfl, hcells⟩ := h
  refine ⟨value, hvalue, ?_⟩
  refine Traced.flatMap_transfer _ _ _ _ (stringItems_moved value _ ?_) (fun i j same part => ?_) cells hcells
  · simp
  · exact k.encode_moved p mode d (d + 1) (Nat.le_succ d) i j same part

section

variable {k} (hk : k.converter.Local)
include hk

theorem compileLine_replace (is js ks : List StringItem) (i : StringItem) (cells out : List Cell)
    (hi : (k.encode p mode k.depthLimit.toNat i).result = .ok cells)
    (hj : (Traced.flatMap (k.encode p mode k.depthLimit.toNat) js).result = .ok cells)
    (h : (k.compileLine p mode 0 (is ++ i :: ks)).result = .ok out) :
    (k.compileLine p mode 0 (is ++ js ++ ks)).result = .ok out := by
  rw [compileLine_eq_ok_iff hk] at h ⊢
  obtain ⟨all, hall, formats⟩ := h
  refine ⟨all, ?_, formats⟩
  obtain ⟨front, tail, hfront, htail, rfl⟩ := (Traced.flatMap_append_eq_ok_iff _ _ _ _).mp hall
  obtain ⟨own, back, hown, hback, rfl⟩ := (Traced.flatMap_cons_eq_ok_iff _ _ _ _).mp htail
  cases hi.symm.trans hown
  have replaced : (Traced.flatMap (k.encode p mode k.depthLimit.toNat) (js ++ ks)).result = .ok (cells ++ back) :=
    (Traced.flatMap_append_eq_ok_iff _ _ _ _).mpr ⟨cells, back, hj, hback, rfl⟩
  rw [List.append_assoc]
  exact (Traced.flatMap_append_eq_ok_iff _ _ _ _).mpr ⟨front, cells ++ back, hfront, replaced, rfl⟩

/-- Among items of several lines, an item may be replaced by items on its line that give its cells. If these are none at
all, the lines before and behind it may become one, and what was compiled apart is compiled together. -/
theorem compileItems_replace (is js ks : List StringItem) (i : StringItem) (same : ∀ j ∈ js, j.line = i.line)
    (cells out : List Cell) (hi : (k.encode p mode k.depthLimit.toNat i).result = .ok cells)
    (hj : (Traced.flatMap (k.encode p mode k.depthLimit.toNat) js).result = .ok cells)
    (h : (k.compileItems p mode (is ++ i :: ks)).result = .ok out) :
    (k.compileItems p mode (is ++ js ++ ks)).result = .ok out := by
  -- the line of the item is cut out, and the item is replaced in that line alone
  obtain ⟨start, ending, rfl, hending, before⟩ := exists_line_ending is i.line
  obtain ⟨beginning, rest, rfl, hbeginning, behind⟩ := exists_line_beginning ks i.line
  have line : ∀ x ∈ ending ++ i :: beginning, x.line = i.line := by
    rw [List.forall_mem_append, List.forall_mem_cons]
    exact ⟨hending, rfl, hbeginning⟩
  have line' : ∀ x ∈ ending ++ js ++ beginning, x.line = i.line := by
    rw [List.forall_mem_append, List.forall_mem_append]
    exact ⟨⟨hending, same⟩, hbeginning⟩
  have front : ∀ x ∈ start.getLast?, ∀ y ∈ (ending ++ i :: beginning ++ rest).head?, x.line ≠ y.line := by
    intro x last y first
    rw [List.head?_append_of_ne_nil _ (by simp)] at first
    rw [line y (List.mem_of_mem_head? first)]
    exact before x last
  have back : ∀ x ∈ (ending ++ i :: beginning).getLast?, ∀ y ∈ rest.head?, x.line ≠ y.line := by
    intro x last y first
    rw [line x (List.mem_of_mem_getLast? last)]
    exact (behind y first).symm
  have whole : start ++ ending ++ i :: (beginning ++ rest) = start ++ (ending ++ i :: beginning ++ rest) := by simp
  have parts : start ++ ending ++ js ++ (beginning ++ rest) = start ++ (ending ++ js ++ beginning ++ rest) := by simp
  rw [whole, k.compileItems_apart p mode start _ front] at h
  obtain ⟨first, others, hfirst, hothers, rfl⟩ := h
  rw [k.compileItems_apart p mode _ rest back] at hothers
  obtain ⟨own, last, hown, hlast, rfl⟩ := hothers
  rw [k.compileItems_single p mode _ i.line line] at hown
  have replaced := compileLine_replace p mode hk ending js beginning i cells own hi hj hown
  rw [← k.compileItems_single p mode _ i.line line'] at replaced
  rw [parts]
  exact compileItems_append hk p mode start _ first (own ++ last) hfirst
    (compileItems_append hk p mode _ rest own last replaced hlast)

end

/-- Writing out what a reference stands for changes nothing: if a string with a reference in it can be compiled, its value
in the place of the reference, on the line of the reference, gives the same string. The value may be quoted or not, go
on with references, be a part of a format, or be empty, and the tokens around it may stand on any lines. -/
theorem compileString_inlined (depth : Int) (fields : Option FieldTable) (p : Protocol) (mode : Mode)
    (as bs : List Token) (v : Token) (reference : v.kind = .reference) (is : List Instruction) :
    let k : Compiler := ⟨Format.standard, depth, fields⟩
    (k.compileString p mode (as ++ v :: bs)).result = .ok is →
      ∃ value, (p.resolve v).result = .ok value ∧
        (k.compileString p mode (as ++ value.map (·.onLine v.line) ++ bs)).result = .ok is := by
  intro k h
  have hk : k.converter.Local := Format.standard_local
  have items := stringItems_around as bs v (v.isSign_eq_false (by simp [reference]))
    (v.isNumeric_eq_false (by simp [reference]))
  have encoded := k.encode_of_compileString p mode _ is h
  rw [items] at encoded
  obtain ⟨cells, hcells⟩ := encoded (.token v) (by simp)
  obtain ⟨value, hvalue, hinlined⟩ := k.encode_inlined p mode v reference _ cells hcells
  refine ⟨value, hvalue, ?_⟩
  -- neither the tokens before the reference nor its value end with a sign, so no item goes across the seams
  have front := k.unsigned_of_encode p mode _ as fun i hi => encoded i (List.mem_append_left _ hi)
  have inner := k.unsigned_of_encode p mode _ _ (Traced.ok_of_flatMap _ _ cells hinlined)
  have lines : ∀ j ∈ stringItems (value.map (·.onLine v.line)), j.line = v.line := by
    rw [stringItems_onLine]
    intro j hj
    obtain ⟨i, -, rfl⟩ := List.mem_map.mp hj
    exact i.line_onLine v.line
  obtain ⟨out, hout, rfl⟩ := (compileString_eq_ok_iff hk p mode _ is).mp h
  rw [items] at hout
  refine (compileString_eq_ok_iff hk p mode _ _).mpr ⟨out, ?_, rfl⟩
  rw [List.append_assoc, stringItems_append_of_unsigned as _ front, stringItems_append_of_unsigned _ bs inner,
    ← List.append_assoc]
  exact compileItems_replace p mode hk _ _ _ (.token v) lines cells out hcells hinlined hout

/-- Inside quotes, a variable whose value refers to a parameter and goes on with the end of a format: the format starts
before the reference, and its width is the argument. -/
theorem compileString_inlined_width :
    let string (text : String) (line : Int) : Token := ⟨.string, text.toList, line, some .double⟩
    let digit (line : Int) (quote : Option Quote) : Token := ⟨.reference, ['1'], line, quote⟩
    let p : Protocol := {
      bindings := [{ name := "width".toList, value := [digit 7 none, string "d%%" 8], line := 7 }]
      self := some ['p']
      arguments := [['5']] }
    let v : Token := ⟨.reference, "width".toList, 1, some .double⟩
    let is := [.field ⟨⟨.signed, 'd', ⟨0x10⟩, 5, -1, 0⟩, "05d".toList, [], none, none⟩, .literal [0x25, 0x21]]
    (compileString {} p .print [string "%0" 1, v, string "!" 2]).result = .ok is ∧
      (p.resolve v).result = .ok [digit 7 (some .double), string "d%%" 7] ∧
      (compileString {} p .print [string "%0" 1, digit 1 (some .double), string "d%%" 1, string "!" 2]).result =
        .ok is := by
  intro string digit p v is
  have compiled : (compileString {} p .print [string "%0" 1, v, string "!" 2]).result = .ok is := by decide +kernel
  have resolved : (p.resolve v).result = .ok [digit 7 (some .double), string "d%%" 7] := by decide +kernel
  obtain ⟨value, hvalue, inlined⟩ :=
    compileString_inlined 32 (some []) p .print [string "%0" 1] [string "!" 2] v rfl is compiled
  cases resolved.symm.trans hvalue
  exact ⟨compiled, resolved, inlined⟩

end Compiler
end DeviceProtocol
