import DeviceProtocol.Text.Space
set_option autoImplicit false

namespace DeviceProtocol

/-- Text is a list of characters: readers recurse on it, and a law about it needs no positions. -/
abbrev Text := List Char

namespace Text

def str (t : Text) : String := String.ofList t

def stripLeft (t : Text) : Text := t.dropWhile isSpace

def stripRight (t : Text) : Text := (t.reverse.dropWhile isSpace).reverse

def strip (t : Text) : Text := t.stripLeft.stripRight

/-- The text stands somewhere in the other one. The empty text stands everywhere. -/
def occursIn (t : Text) : Text → Bool
  | [] => t.isEmpty
  | c :: cs => t.isPrefixOf (c :: cs) || occursIn t cs

/-- The pieces between the separators, of which there is always one more than separators. -/
def splitAt (sep : Char → Bool) : Text → List Text
  | [] => [[]]
  | c :: cs =>
    if sep c then [] :: splitAt sep cs
    else match splitAt sep cs with
      | [] => [[c]]
      | p :: ps => (c :: p) :: ps

def joinWith (sep : Text) : List Text → Text
  | [] => []
  | [t] => t
  | t :: ts => t ++ sep ++ joinWith sep ts

def cutAt? (sep : Char) (t : Text) : Option (Text × Text) :=
  match t.dropWhile (· != sep) with
  | [] => none
  | _ :: rest => some (t.takeWhile (· != sep), rest)

/-- The first `n` characters, or all but the last `-n` if `n` is negative. -/
def upTo (n : Int) (t : Text) : Text :=
  if 0 ≤ n then t.take n.toNat else t.take (t.length - (-n).toNat)

def padLeft (width : Nat) (fill : Char) (t : Text) : Text :=
  List.replicate (width - t.length) fill ++ t

def padRight (width : Nat) (fill : Char) (t : Text) : Text :=
  t ++ List.replicate (width - t.length) fill

def numeral (base digits : Nat) (n : Nat) : Text :=
  padLeft digits '0' (Nat.toDigits base n)

def orNone (t : Option Text) : Text := t.getD "None".toList

theorem length_stripLeft_le (t : Text) : t.stripLeft.length ≤ t.length :=
  (List.dropWhile_sublist _).length_le

end Text

theorem forall_ascii (P : Char → Prop) (table : ∀ n < 0x80, P (Char.ofNat n)) (c : Char) (ascii : c.toNat < 0x80) :
    P c := by
  rw [← c.ofNat_toNat]
  exact table c.toNat ascii

abbrev Bytes := List UInt8

end DeviceProtocol
