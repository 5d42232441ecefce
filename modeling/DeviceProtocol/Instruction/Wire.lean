import DeviceProtocol.Instruction
import DeviceProtocol.Wire
set_option autoImplicit false

/-!
Compiled strings in the byte stream.

A literal byte that is a sentinel stands behind an escape byte. A field is written as its sentinel, the
name and the address of the host's field if it has one, its source, its descriptor in ten bytes, and
as many bytes of info as the descriptor says. A zero byte ends the string.

The reader takes an address or an info that the end of the stream cuts short as far as it goes.
-/
namespace DeviceProtocol

namespace Descriptor

def signedBytes (n : Int) : Bytes := Wire.littleEndian 2 (n % 0x10000).toNat

def bytes (d : Descriptor) : Bytes :=
  Wire.littleEndian 1 d.type.code ++ Wire.littleEndian 1 d.conversion.toNat ++
    Wire.littleEndian 2 d.flags.bits ++ signedBytes d.width ++ signedBytes d.precision ++
    Wire.littleEndian 2 d.infoLength

def size : Nat := 10

def read : WireReader Descriptor := fun bs =>
  match bs with
  | type :: conversion :: f0 :: f1 :: w0 :: w1 :: p0 :: p1 :: l0 :: l1 :: rest =>
    match FormatType.ofCode? type.toNat with
    | none => .error (.typeUnknown type.toNat)
    | some type =>
      .ok ({ type := type
             conversion := Char.ofNat conversion.toNat
             flags := ⟨Wire.value [f0, f1]⟩
             width := Wire.signed16 (Wire.value [w0, w1])
             precision := Wire.signed16 (Wire.value [p0, p1])
             infoLength := Wire.value [l0, l1] }, rest)
  | _ => .error .descriptorTruncated

def readAt (data : Bytes) (offset : Int) : Except WireFault (Descriptor × Bytes) :=
  if offset < 0 then .error .descriptorTruncated else read (data.drop offset.toNat)

theorem read_length (bs rest : Bytes) (d : Descriptor) (h : read bs = .ok (d, rest)) :
    rest.length + size = bs.length := by
  unfold read at h
  split at h
  · split at h
    · simp at h
    · simp only [Except.ok.injEq, Prod.mk.injEq] at h
      simp [← h.2, size]
  · simp at h

end Descriptor

namespace Field

def fits (f : Field) : Bool := f.name.isNone || (f.address.getD []).length < 0x10000

def head (f : Field) : Bytes :=
  match f.name with
  | some name =>
    let address := f.address.getD []
    Sentinel.formatField.code :: Wire.zeroTerminated name ++
      Wire.littleEndian 2 address.length ++ address
  | none => [Sentinel.format.code]

def bytes (f : Field) : Bytes :=
  f.head ++ Wire.zeroTerminated f.source ++ f.format.bytes ++ f.info

/-- The name and the address of a field. -/
def readTarget : WireReader (Text × Bytes) := fun bs => do
  let (name, bs) ← Wire.text bs
  let (length, bs) ← Wire.number 2 bs
  return ((name, bs.take length), bs.drop length)

def readBody : WireReader (Text × Descriptor × Bytes) := fun bs => do
  let (source, bs) ← Wire.text bs
  let (format, bs) ← Descriptor.read bs
  return ((source, format, bs.take format.infoLength), bs.drop format.infoLength)

def read (targeted : Bool) : WireReader Field := fun bs => do
  if targeted then
    let ((name, address), bs) ← readTarget bs
    let ((source, format, info), bs) ← readBody bs
    return (⟨format, source, info, some name, some address⟩, bs)
  else
    let ((source, format, info), bs) ← readBody bs
    return (⟨format, source, info, none, none⟩, bs)

theorem readTarget_length (bs rest : Bytes) (t : Text × Bytes) (h : readTarget bs = .ok (t, rest)) :
    rest.length ≤ bs.length := by
  simp only [readTarget] at h
  cases ht : Wire.text bs with
  | error e => simp [ht, bind, Except.bind] at h
  | ok p =>
    obtain ⟨name, bs₁⟩ := p
    have h₁ := Wire.text_length bs bs₁ name ht
    cases hn : Wire.number 2 bs₁ with
    | error e => simp [ht, hn, bind, Except.bind] at h
    | ok q =>
      obtain ⟨length, bs₂⟩ := q
      have h₂ := Wire.number_length 2 length bs₁ bs₂ hn
      simp only [ht, hn, bind, Except.bind, pure, Except.pure, Except.ok.injEq,
        Prod.mk.injEq] at h
      rw [← h.2, List.length_drop]
      omega

theorem readBody_length (bs rest : Bytes) (t : Text × Descriptor × Bytes)
    (h : readBody bs = .ok (t, rest)) : rest.length ≤ bs.length := by
  simp only [readBody] at h
  cases ht : Wire.text bs with
  | error e => simp [ht, bind, Except.bind] at h
  | ok p =>
    obtain ⟨source, bs₁⟩ := p
    have h₁ := Wire.text_length bs bs₁ source ht
    cases hd : Descriptor.read bs₁ with
    | error e => simp [ht, hd, bind, Except.bind] at h
    | ok q =>
      obtain ⟨format, bs₂⟩ := q
      have h₂ := Descriptor.read_length bs₁ bs₂ format hd
      simp only [ht, hd, bind, Except.bind, pure, Except.pure, Except.ok.injEq,
        Prod.mk.injEq] at h
      rw [← h.2, List.length_drop]
      omega

theorem read_length (targeted : Bool) (bs rest : Bytes) (f : Field)
    (h : read targeted bs = .ok (f, rest)) : rest.length ≤ bs.length := by
  cases targeted with
  | true =>
    simp only [read, if_true] at h
    cases ht : readTarget bs with
    | error e => simp [ht, bind, Except.bind] at h
    | ok p =>
      obtain ⟨⟨name, address⟩, bs₁⟩ := p
      have h₁ := readTarget_length bs bs₁ _ ht
      cases hb : readBody bs₁ with
      | error e => simp [ht, hb, bind, Except.bind] at h
      | ok q =>
        obtain ⟨⟨source, format, info⟩, bs₂⟩ := q
        have h₂ := readBody_length bs₁ bs₂ _ hb
        simp only [ht, hb, bind, Except.bind, pure, Except.pure, Except.ok.injEq,
          Prod.mk.injEq] at h
        rw [← h.2]
        omega
  | false =>
    simp only [read, Bool.false_eq_true, if_false] at h
    cases hb : readBody bs with
    | error e => simp [hb, bind, Except.bind] at h
    | ok q =>
      obtain ⟨⟨source, format, info⟩, bs₂⟩ := q
      have h₂ := readBody_length bs bs₂ _ hb
      simp only [hb, bind, Except.bind, pure, Except.pure, Except.ok.injEq, Prod.mk.injEq] at h
      rw [← h.2]
      exact h₂

end Field

namespace Instruction

def escapeByte (b : UInt8) : Bytes :=
  if (Sentinel.ofCode? b).isSome then [Sentinel.escape.code, b] else [b]

def bytes : Instruction → Bytes
  | .literal data => data.flatMap escapeByte
  | .control code => [code.code]
  | .field f => f.bytes

def fits : Instruction → Bool
  | .field f => f.fits
  | _ => true

def stringBytes (is : List Instruction) : Bytes := is.flatMap bytes ++ [Sentinel.stop.code]

def packString (is : List Instruction) : Except PackFault Bytes :=
  if is.all fits then .ok (stringBytes is) else .error .tooLarge

def prepend {α : Type} (i : Instruction) (r : Except WireFault (List Instruction × α)) :
    Except WireFault (List Instruction × α) :=
  r.map fun (is, rest) => (i :: is, rest)

/-- The instructions up to the end of the string, each literal byte on its own. -/
def readItems (bs : Bytes) : Except WireFault (List Instruction × Bytes) :=
  match bs with
  | [] => .error .endOfStream
  | b :: rest =>
    match Sentinel.ofCode? b with
    | some .stop => .ok ([], rest)
    | some .escape => prepend (.literal (rest.take 1)) (readItems (rest.drop 1))
    | some .skip => prepend (.control .skip) (readItems rest)
    | some .whitespace => prepend (.control .whitespace) (readItems rest)
    | some .format =>
      match _h : Field.read false rest with
      | .error e => .error e
      | .ok (f, rest') => prepend (.field f) (readItems rest')
    | some .formatField =>
      match _h : Field.read true rest with
      | .error e => .error e
      | .ok (f, rest') => prepend (.field f) (readItems rest')
    | none => prepend (.literal [b]) (readItems rest)
termination_by bs.length
decreasing_by
  · simp only [List.length_cons, List.length_drop]
    omega
  · simp
  · simp
  · exact Nat.lt_succ_of_le (Field.read_length false rest rest' f _h)
  · exact Nat.lt_succ_of_le (Field.read_length true rest rest' f _h)
  · simp

def readString : WireReader (List Instruction) := fun bs => do
  let (is, rest) ← readItems bs
  return (merge is, rest)

def withOffset (data : Bytes) (r : Except WireFault (List Instruction × Bytes)) :
    Except WireFault (List Instruction × Int) :=
  r.map fun (is, rest) => (is, (data.length : Int) - rest.length)

/-- Reads on in the last bytes of a stream, `tail`. Behind them reading goes on at the start of the
stream, and offsets count up to zero until then. A format is not read across the end, and what comes
behind one in the tail ends with the stream. The last byte of the stream cannot be escaped. -/
def readTail (data tail : Bytes) : Except WireFault (List Instruction × Int) :=
  match tail with
  | [] => withOffset data (readItems data)
  | [b] => withOffset data (readItems (b :: data))
  | b :: c :: rest =>
    match Sentinel.ofCode? b with
    | some .stop => .ok ([], -((c :: rest).length : Int))
    | some .escape => prepend (.literal (if rest.isEmpty then [] else [c])) (readTail data rest)
    | some .skip => prepend (.control .skip) (readTail data (c :: rest))
    | some .whitespace => prepend (.control .whitespace) (readTail data (c :: rest))
    | some .format | some .formatField => withOffset data (readItems (b :: c :: rest))
    | none => prepend (.literal [b]) (readTail data (c :: rest))
termination_by tail.length

/-- The instructions from an offset on. A negative one counts from the end. -/
def readItemsAt (data : Bytes) (offset : Int) : Except WireFault (List Instruction × Int) :=
  if 0 ≤ offset then withOffset data (readItems (data.drop offset.toNat))
  else if offset < -(data.length : Int) then .error .endOfStream
  else readTail data (data.drop (data.length + offset).toNat)

def readStringAt (data : Bytes) (offset : Int) : Except WireFault (List Instruction × Int) :=
  (readItemsAt data offset).map fun (is, behind) => (merge is, behind)

end Instruction
end DeviceProtocol
