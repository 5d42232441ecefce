import DeviceProtocol.Text.CodeSet
set_option autoImplicit false

/-!
White space: the characters of bidirectional type WS, B or S and the separators of category Zs.
-/
namespace DeviceProtocol

/-- White space from U+0080 on. The zero width space U+200B is not among it. -/
def spaces : CodeSet := ⟨
  [(0x85, 0x85), (0xA0, 0xA0), (0x1680, 0x1680), (0x2000, 0x200A), (0x2028, 0x2029),
   (0x202F, 0x202F), (0x205F, 0x205F), (0x3000, 0x3000)]⟩

def isSpace (c : Char) : Bool :=
  let n := c.toNat
  if n < 0x80 then (9 ≤ n && n ≤ 13) || (28 ≤ n && n ≤ 32) else spaces.contains n

end DeviceProtocol
