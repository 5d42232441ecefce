import Mathlib.Logic.Relation
import DeviceProtocol.Proofs.ReferenceDepth
import DeviceProtocol.Proofs.StringItems
set_option autoImplicit false

/-!
The limit of depth. References may lead to references and in the end back to themselves; nothing keeps a protocol from
that. What ends the compilation of a string is that references are counted on the way, and the limit cuts off those
strings in which a chain of references is longer than it, and no others.
-/
namespace DeviceProtocol

namespace Protocol

/-- What the first token stands for has the second one in it, which is a reference. -/
def LeadsTo (p : Protocol) (t u : Token) : Prop :=
  u.kind = .reference ∧ ∃ value, (p.resolve t).result = .ok value ∧ u ∈ value

/-- A chain of references that starts among the tokens. -/
structure ReferenceChain (p : Protocol) (ts chain : List Token) : Prop where
  given : chain ≠ []
  starts : ∀ t ∈ chain.head?, t ∈ ts ∧ t.kind = .reference
  linked : chain.IsChain p.LeadsTo

variable {p : Protocol}

theorem depthWithin_of_not_reference (t : Token) (h : t.kind ≠ .reference) (n : Nat) : p.DepthWithin n t := by
  cases n with
  | zero => exact h
  | succ n => exact fun reference => absurd reference h

theorem DepthWithin.step {n : Nat} {t u : Token} (h : p.DepthWithin n t) (reference : t.kind = .reference)
    (leads : p.LeadsTo t u) : ∃ m, n = m + 1 ∧ p.DepthWithin m u := by
  obtain ⟨-, value, hvalue, hu⟩ := leads
  cases n with
  | zero => exact absurd reference h
  | succ m => exact ⟨m, rfl, h reference value hvalue u hu⟩

theorem DepthWithin.length_le {n : Nat} {t : Token} {chain : List Token} (h : p.DepthWithin n t)
    (reference : t.kind = .reference) (linked : (t :: chain).IsChain p.LeadsTo) : (t :: chain).length ≤ n := by
  induction chain generalizing n t with
  | nil =>
    cases n with
    | zero => exact absurd reference h
    | succ n => simp
  | cons u chain ih =>
    obtain ⟨leads, linked⟩ := List.isChain_cons_cons.mp linked
    obtain ⟨m, rfl, within⟩ := h.step reference leads
    exact Nat.succ_le_succ (ih within leads.1 linked)

theorem exists_chain_of_not_depthWithin (n : Nat) (t : Token) (h : ¬ p.DepthWithin n t) :
    t.kind = .reference ∧ ∃ chain, (t :: chain).IsChain p.LeadsTo ∧ chain.length = n := by
  induction n generalizing t with
  | zero => exact ⟨not_not.mp h, [], .singleton t, rfl⟩
  | succ n ih =>
    simp only [DepthWithin, not_forall] at h
    obtain ⟨reference, value, hvalue, u, hu, deeper⟩ := h
    obtain ⟨inner, chain, linked, length⟩ := ih u deeper
    refine ⟨reference, u :: chain, List.isChain_cons_cons.mpr ⟨⟨inner, value, hvalue, hu⟩, linked⟩, ?_⟩
    rw [List.length_cons, length]

theorem depthWithin_iff (n : Nat) (ts : List Token) :
    (∀ t ∈ ts, p.DepthWithin n t) ↔ ∀ chain, p.ReferenceChain ts chain → chain.length ≤ n := by
  constructor
  · rintro within chain ⟨given, starts, linked⟩
    obtain ⟨t, chain, rfl⟩ := List.exists_cons_of_ne_nil given
    obtain ⟨mem, reference⟩ := starts t rfl
    exact (within t mem).length_le reference linked
  · intro short t mem
    by_contra deeper
    obtain ⟨reference, chain, linked, length⟩ := exists_chain_of_not_depthWithin n t deeper
    have starts : ∀ u ∈ (t :: chain).head?, u ∈ ts ∧ u.kind = .reference := by
      rintro u ⟨⟩
      exact ⟨mem, reference⟩
    have := short (t :: chain) ⟨List.cons_ne_nil _ _, starts, linked⟩
    rw [List.length_cons] at this
    omega

theorem DepthWithin.transGen {n : Nat} {t u : Token} (h : p.DepthWithin n t) (reference : t.kind = .reference)
    (leads : Relation.TransGen p.LeadsTo t u) : u.kind = .reference ∧ ∃ m, m < n ∧ p.DepthWithin m u := by
  induction leads with
  | single leads =>
    obtain ⟨m, rfl, within⟩ := h.step reference leads
    exact ⟨leads.1, m, Nat.lt_succ_self m, within⟩
  | tail _ leads ih =>
    obtain ⟨inner, m, less, within⟩ := ih
    obtain ⟨l, rfl, next⟩ := within.step inner leads
    exact ⟨leads.1, l, by omega, next⟩

theorem not_depthWithin_of_cycle (n : Nat) (t : Token) (cycle : Relation.TransGen p.LeadsTo t t) :
    ¬ p.DepthWithin n t := by
  have reference : t.kind = .reference := by
    obtain ⟨u, -, leads⟩ := Relation.TransGen.tail'_iff.mp cycle
    exact leads.1
  induction n using Nat.strongRecOn with
  | ind n ih =>
    intro within
    obtain ⟨-, m, less, within⟩ := within.transGen reference cycle
    exact ih m less within

end Protocol

namespace Compiler

/-- How the cells of items come about, where `depth` counts the references that the items stand in. A reference is
replaced first and then counted; only the limit keeps its value from being encoded. There is no other bound to this. -/
inductive Encodes (k : Compiler) (p : Protocol) (mode : Mode) :
    Int → List StringItem → Except Failure (List Cell) → Prop
  | nil (depth : Int) : Encodes k p mode depth [] (.ok [])
  | own {depth : Int} {i : StringItem} {is : List StringItem} {cells : List Cell} {rest : Except Failure (List Cell)}
      (plain : ∀ t, i = .token t → t.kind ≠ .reference) (hi : (k.encode p mode 0 i).result = .ok cells)
      (his : Encodes k p mode depth is rest) : Encodes k p mode depth (i :: is) (rest.map (cells ++ ·))
  | ownFails {depth : Int} {i : StringItem} {is : List StringItem} {e : Failure}
      (plain : ∀ t, i = .token t → t.kind ≠ .reference) (hi : (k.encode p mode 0 i).result = .error e) :
      Encodes k p mode depth (i :: is) (.error e)
  | value {depth : Int} {t : Token} {is : List StringItem} {value : List Token} {cells : List Cell}
      {rest : Except Failure (List Cell)} (reference : t.kind = .reference)
      (hvalue : (p.resolve t).result = .ok value) (within : depth + 1 ≤ k.depthLimit)
      (hcells : Encodes k p mode (depth + 1) (stringItems value) (.ok cells)) (his : Encodes k p mode depth is rest) :
      Encodes k p mode depth (.token t :: is) (rest.map (cells ++ ·))
  | valueFails {depth : Int} {t : Token} {is : List StringItem} {value : List Token} {e : Failure}
      (reference : t.kind = .reference) (hvalue : (p.resolve t).result = .ok value)
      (within : depth + 1 ≤ k.depthLimit) (he : Encodes k p mode (depth + 1) (stringItems value) (.error e)) :
      Encodes k p mode depth (.token t :: is) (.error e)
  | tooDeep {depth : Int} {t : Token} {is : List StringItem} {value : List Token} (reference : t.kind = .reference)
      (hvalue : (p.resolve t).result = .ok value) (beyond : k.depthLimit < depth + 1) :
      Encodes k p mode depth (.token t :: is)
        (.error (.fault { cause := .nestedTooDeep k.depthLimit, line := some t.line, file := p.file }))
  | unresolved {depth : Int} {t : Token} {is : List StringItem} {e : Failure} (reference : t.kind = .reference)
      (hvalue : (p.resolve t).result = .error e) : Encodes k p mode depth (.token t :: is) (.error e)

variable {k : Compiler} {p : Protocol} {mode : Mode}

theorem encode_depth (n m : Nat) (i : StringItem) (plain : ∀ t, i = .token t → t.kind ≠ .reference) :
    k.encode p mode n i = k.encode p mode m i := by
  cases i with
  | signed sign number => rw [encode, encode]
  | token t =>
    have other := plain t rfl
    unfold encode
    cases kind : t.kind with
    | reference => exact absurd kind other
    | word | string | special | terminator | eof => rfl

section

variable {t : Token} (reference : t.kind = .reference)
include reference

theorem encode_unresolved (n : Nat) (e : Failure) (h : (p.resolve t).result = .error e) :
    (k.encode p mode n (.token t)).result = .error e := by
  unfold encode
  simp only [reference]
  exact Traced.bind_of_error _ _ e h

variable {value : List Token} (hvalue : (p.resolve t).result = .ok value)
include hvalue

theorem encode_tooDeep :
    (k.encode p mode 0 (.token t)).result =
      .error (.fault { cause := .nestedTooDeep k.depthLimit, line := some t.line, file := p.file }) := by
  unfold encode
  simp only [reference]
  exact Traced.bind_of_ok _ _ value hvalue

theorem encode_value (n : Nat) :
    (k.encode p mode (n + 1) (.token t)).result =
      (Traced.flatMap (k.encode p mode n) (stringItems value)).result := by
  rw [encode]
  simp only [reference]
  exact Traced.bind_of_ok _ _ value hvalue

end

theorem flatMap_encode_ok (n : Nat) (i : StringItem) (is : List StringItem) (cells : List Cell)
    (h : (k.encode p mode n i).result = .ok cells) :
    (Traced.flatMap (k.encode p mode n) (i :: is)).result =
      (Traced.flatMap (k.encode p mode n) is).result.map (cells ++ ·) := by
  rw [Traced.flatMap, Traced.bind_of_ok _ _ cells h, Traced.result_bind]
  cases (Traced.flatMap (k.encode p mode n) is).result <;> rfl

theorem flatMap_encode_error (n : Nat) (i : StringItem) (is : List StringItem) (e : Failure)
    (h : (k.encode p mode n i).result = .error e) :
    (Traced.flatMap (k.encode p mode n) (i :: is)).result = .error e := by
  rw [Traced.flatMap, Traced.bind_of_error _ _ e h]

theorem Encodes.result_eq {depth : Int} {is : List StringItem} {r : Except Failure (List Cell)}
    (h : k.Encodes p mode depth is r) :
    (Traced.flatMap (k.encode p mode (k.depthLimit - depth).toNat) is).result = r := by
  have left (depth : Int) (within : depth + 1 ≤ k.depthLimit) :
      (k.depthLimit - depth).toNat = (k.depthLimit - (depth + 1)).toNat + 1 := by
    omega
  induction h with
  | nil depth => rfl
  | own plain hi his ih =>
    rw [encode_depth 0 _ _ plain] at hi
    rw [flatMap_encode_ok _ _ _ _ hi, ih]
  | ownFails plain hi =>
    rw [encode_depth 0 _ _ plain] at hi
    exact flatMap_encode_error _ _ _ _ hi
  | value reference hvalue within hcells his ihcells ihis =>
    rw [← encode_value reference hvalue, ← left _ within] at ihcells
    rw [flatMap_encode_ok _ _ _ _ ihcells, ihis]
  | valueFails reference hvalue within he ih =>
    rw [← encode_value reference hvalue, ← left _ within] at ih
    exact flatMap_encode_error _ _ _ _ ih
  | @tooDeep depth t is value reference hvalue beyond =>
    have none : (k.depthLimit - depth).toNat = 0 := by omega
    rw [none]
    exact flatMap_encode_error _ _ _ _ (encode_tooDeep reference hvalue)
  | unresolved reference hvalue => exact flatMap_encode_error _ _ _ _ (encode_unresolved reference _ _ hvalue)

theorem encodes_step (n : Nat) (depth : Int) (left : (k.depthLimit - depth).toNat = n)
    (values : ∀ m, n = m + 1 → ∀ is, k.Encodes p mode (depth + 1) is (Traced.flatMap (k.encode p mode m) is).result)
    (is : List StringItem) : k.Encodes p mode depth is (Traced.flatMap (k.encode p mode n) is).result := by
  induction is with
  | nil => exact .nil depth
  | cons i is ih =>
    by_cases plain : ∀ t, i = .token t → t.kind ≠ .reference
    · cases hi : (k.encode p mode n i).result with
      | ok cells =>
        rw [flatMap_encode_ok n i is cells hi]
        exact .own plain (encode_depth 0 n i plain ▸ hi) ih
      | error e =>
        rw [flatMap_encode_error n i is e hi]
        exact .ownFails plain (encode_depth 0 n i plain ▸ hi)
    · simp only [not_forall, not_not] at plain
      obtain ⟨t, rfl, reference⟩ := plain
      cases hvalue : (p.resolve t).result with
      | error e =>
        rw [flatMap_encode_error n _ is e (encode_unresolved reference n e hvalue)]
        exact .unresolved reference hvalue
      | ok value =>
        -- only here the depth that is left matters
        cases n with
        | zero =>
          rw [flatMap_encode_error 0 _ is _ (encode_tooDeep reference hvalue)]
          exact .tooDeep reference hvalue (by omega)
        | succ n =>
          have deeper := values n rfl (stringItems value)
          have own : (k.encode p mode (n + 1) (.token t)).result = _ := encode_value reference hvalue n
          cases hi : (Traced.flatMap (k.encode p mode n) (stringItems value)).result with
          | ok cells =>
            rw [hi] at deeper own
            rw [flatMap_encode_ok _ _ is cells own]
            exact .value reference hvalue (by omega) deeper ih
          | error e =>
            rw [hi] at deeper own
            rw [flatMap_encode_error _ _ is e own]
            exact .valueFails reference hvalue (by omega) deeper

/-- Whatever references lead to, something comes about: the limit leaves less depth for the value of a reference than
for the reference. -/
theorem encodes_result (n : Nat) (depth : Int) (left : (k.depthLimit - depth).toNat = n) (is : List StringItem) :
    k.Encodes p mode depth is (Traced.flatMap (k.encode p mode n) is).result := by
  induction n generalizing depth is with
  | zero => exact encodes_step 0 depth left (fun m h => absurd h (Nat.succ_ne_zero m).symm) is
  | succ n ih =>
    refine encodes_step (n + 1) depth left (fun m h is => ?_) is
    cases h
    exact ih (depth + 1) (by omega) is

theorem depthWithin_of_encode (n : Nat) (t : Token) (cells : List Cell)
    (h : (k.encode p mode n (.token t)).result = .ok cells) : p.DepthWithin n t := by
  by_cases reference : t.kind = .reference
  · induction n generalizing t cells with
    | zero =>
      obtain ⟨value, d, -, depth, -⟩ := (k.encode_reference_iff p mode 0 t cells reference).mp h
      cases depth
    | succ n ih =>
      obtain ⟨value, d, hvalue, ⟨⟩, hcells⟩ := (k.encode_reference_iff p mode (n + 1) t cells reference).mp h
      intro _ value' hvalue' u hu
      cases hvalue.symm.trans hvalue'
      by_cases inner : u.kind = .reference
      · obtain ⟨part, hpart⟩ :=
          Traced.ok_of_flatMap _ _ cells hcells (.token u) (reference_mem_stringItems value u hu inner)
        exact ih u part hpart inner
      · exact Protocol.depthWithin_of_not_reference u inner n
  · exact Protocol.depthWithin_of_not_reference t reference n

theorem reaches_of_compileString (ts : List Token) (is : List Instruction)
    (h : (k.compileString p mode ts).result = .ok is) : k.Reaches p ts := by
  intro t ht
  by_cases reference : t.kind = .reference
  · obtain ⟨cells, hcells⟩ :=
      k.encode_of_compileString p mode ts is h (.token t) (reference_mem_stringItems ts t ht reference)
    exact depthWithin_of_encode _ t cells hcells
  · exact Protocol.depthWithin_of_not_reference t reference _

theorem error_of_not_reaches (ts : List Token) (h : ¬ k.Reaches p ts) :
    ∃ e, (k.compileString p mode ts).result = .error e := by
  cases compiled : (k.compileString p mode ts).result with
  | ok is => exact absurd (reaches_of_compileString ts is compiled) h
  | error e => exact ⟨e, rfl⟩

/-- References are followed as far as the limit allows and no further. The compilation of a string comes to an end, on
any protocol: with references counted from zero on, every list of items has just one outcome, the one that is computed.
If a chain of references is longer than the limit, and so if a reference that can be reached leads to itself, there is
no string. If no chain is longer than the limit, a fault has another cause than the depth. -/
theorem compileString_depth (limit : Int) (fields : Option FieldTable) (p : Protocol) (mode : Mode) (ts : List Token) :
    let k : Compiler := ⟨Format.standard, limit, fields⟩
    (∀ is r, k.Encodes p mode 0 is r ↔ (Traced.flatMap (k.encode p mode limit.toNat) is).result = r) ∧
    (∀ chain, p.ReferenceChain ts chain → limit < chain.length → ∃ e, (k.compileString p mode ts).result = .error e) ∧
    (∀ t ∈ ts, t.kind = .reference → ∀ u, Relation.ReflTransGen p.LeadsTo t u → Relation.TransGen p.LeadsTo u u →
      ∃ e, (k.compileString p mode ts).result = .error e) ∧
    ((∀ chain, p.ReferenceChain ts chain → chain.length ≤ limit) →
      ∀ f, (k.compileString p mode ts).result = .error (.fault f) → f.cause.kind ≠ .recursionDepth) := by
  intro k
  have reaches_iff := Protocol.depthWithin_iff (p := p) limit.toNat ts
  refine ⟨fun is r => ⟨fun h => ?_, fun h => ?_⟩, fun chain hchain long => error_of_not_reaches ts fun reaches => ?_,
    fun t ht reference u leads cycle => error_of_not_reaches ts fun reaches => ?_, fun short f hf => ?_⟩
  · have := h.result_eq
    rwa [Int.sub_zero] at this
  · rw [← h]
    exact encodes_result limit.toNat 0 (by rw [Int.sub_zero]) is
  · have within := reaches_iff.mp reaches chain hchain
    have := List.length_pos_of_ne_nil hchain.given
    omega
  · rcases Relation.reflTransGen_iff_eq_or_transGen.mp leads with rfl | leads
    · exact Protocol.not_depthWithin_of_cycle _ u cycle (reaches u ht)
    · obtain ⟨-, m, -, within⟩ := (reaches t ht).transGen reference leads
      exact Protocol.not_depthWithin_of_cycle m u cycle within
  · have reaches : k.Reaches p ts := reaches_iff.mpr fun chain hchain => by
      have := short chain hchain
      omega
    exact compileString_shallow Format.standard_shallow mode ts reaches f hf

/-- A variable whose value refers to another one is cut off by a limit of one. With a limit of two it is the variable
that nobody defined that is at fault. Two variables that refer to each other are cut off by every limit. -/
theorem compileString_depth_two :
    let reference (name : Char) : Token := ⟨.reference, [name], 1, none⟩
    let p : Protocol := {
      bindings := [⟨['a'], [reference 'b'], 1, false⟩, ⟨['b'], [⟨.string, ['!'], 1, some .double⟩], 1, false⟩,
        ⟨['c'], [reference 'd'], 1, false⟩, ⟨['d'], [reference 'c'], 1, false⟩] }
    let ts := [reference 'a', reference 'x']
    let limited (limit : Int) : Compiler := ⟨Format.standard, limit, none⟩
    (p.ReferenceChain ts [reference 'a', reference 'b'] ∧
        ∃ e, ((limited 1).compileString p .print ts).result = .error e) ∧
      ((∀ chain, p.ReferenceChain ts chain → chain.length ≤ 2) ∧
        ∃ f, ((limited 2).compileString p .print ts).result = .error (.fault f) ∧ f.cause.kind ≠ .recursionDepth) ∧
      Relation.TransGen p.LeadsTo (reference 'c') (reference 'c') ∧
        ∀ limit, ∃ e, ((limited limit).compileString p .print [reference 'c']).result = .error e := by
  intro reference p ts limited
  have leads (t u : Char) (resolved : (p.resolve (reference t)).result = .ok [reference u]) :
      p.LeadsTo (reference t) (reference u) :=
    ⟨rfl, _, resolved, List.mem_singleton_self _⟩
  have chain : p.ReferenceChain ts [reference 'a', reference 'b'] := by
    refine ⟨List.cons_ne_nil _ _, ?_, .cons_cons (leads 'a' 'b' (by decide +kernel)) (.singleton _)⟩
    rintro _ ⟨⟩
    exact ⟨List.mem_cons_self, rfl⟩
  have within : ∀ t ∈ ts, p.DepthWithin 2 t := by
    intro t ht _ value resolved u hu _ value' resolved' v hv
    have a : (p.resolve (reference 'a')).result = .ok [reference 'b'] := by decide +kernel
    have b : (p.resolve (reference 'b')).result = .ok [⟨.string, ['!'], 1, some .double⟩] := by decide +kernel
    rcases List.mem_pair.mp ht with rfl | rfl
    · cases a.symm.trans resolved
      cases List.mem_singleton.mp hu
      cases b.symm.trans resolved'
      cases List.mem_singleton.mp hv
      exact fun string => TokenKind.noConfusion string
    · have x : (p.resolve (reference 'x')).result.isOk = false := by decide +kernel
      rw [resolved] at x
      cases x
  have cycle : Relation.TransGen p.LeadsTo (reference 'c') (reference 'c') :=
    .tail (.single (leads 'c' 'd' (by decide +kernel))) (leads 'd' 'c' (by decide +kernel))
  have short (c : List Token) (hc : p.ReferenceChain ts c) : (c.length : Int) ≤ 2 :=
    Int.ofNat_le.mpr ((Protocol.depthWithin_iff 2 ts).mp within c hc)
  obtain ⟨-, cutOff, -, -⟩ := compileString_depth 1 none p .print ts
  obtain ⟨-, -, -, allowed⟩ := compileString_depth 2 none p .print ts
  refine ⟨⟨chain, cutOff _ chain (by decide)⟩, ⟨fun c hc => Int.ofNat_le.mp (short c hc), ?_⟩, cycle, fun limit => ?_⟩
  · have fails : ((limited 2).compileString p .print ts).result =
        .error (.fault { cause := .variableUndefined ['x'], line := some 1 }) := by decide +kernel
    exact ⟨_, fails, allowed short _ fails⟩
  · obtain ⟨-, -, cyclic, -⟩ := compileString_depth limit none p .print [reference 'c']
    exact cyclic _ List.mem_cons_self rfl _ .refl cycle

end Compiler
end DeviceProtocol
