import DeviceProtocol.Text.Basic
import DeviceProtocol.Text.Case.Table
set_option autoImplicit false

/-!
Small letters. A word is folded character by character while it is read; a name that is looked up
is folded as a whole. The two differ on a capital sigma alone, whose form depends on its neighbours.
-/
namespace DeviceProtocol

/-- The small form of one character. Only the dotted capital I becomes two characters. -/
def lowerChar (c : Char) : Text :=
  let n := c.toNat
  if n < 0x80 then [c.toLower]
  else if n = 0x130 then ['i', Char.ofNat 0x307]
  else match capitals.find? (·.contains n) with
    | some r => [Char.ofNat (n + r.shift).toNat]
    | none => [c]

def isCaseIgnorable (c : Char) : Bool :=
  if c.toNat < 0x80 then [39, 46, 58, 94, 96].contains c.toNat else caseIgnorable.contains c.toNat

def isCased (c : Char) : Bool :=
  if c.toNat < 0x80 then c.isAlpha else cased.contains c.toNat

/-- A sigma is final if a letter stands before it and none behind it. -/
def isFinalSigma (before after : Text) : Bool :=
  (before.dropWhile isCaseIgnorable).head?.any isCased &&
    !(after.dropWhile isCaseIgnorable).head?.any isCased

namespace Text

def lowerAfter (before : Text) : Text → Text
  | [] => []
  | c :: cs =>
    (if c.toNat = 0x3A3 then [Char.ofNat (if isFinalSigma before cs then 0x3C2 else 0x3C3)]
      else lowerChar c) ++ lowerAfter (c :: before) cs

def lower (t : Text) : Text := lowerAfter [] t

/-- The small form of a text, each character on its own. -/
def fold (t : Text) : Text := t.flatMap lowerChar

end Text

theorem lowerChar_ne_nil (c : Char) : lowerChar c ≠ [] := by
  unfold lowerChar
  simp only
  split
  · simp
  · split
    · simp
    · split <;> simp

end DeviceProtocol
