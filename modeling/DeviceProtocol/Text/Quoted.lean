import DeviceProtocol.Text.Graphic
import DeviceProtocol.Text.Basic
set_option autoImplicit false

namespace DeviceProtocol

namespace Text

def quoteFor (t : Text) : Char :=
  if t.contains '\'' && !t.contains '"' then '"' else '\''

def escapeFor (quote c : Char) : Text :=
  let n := c.toNat
  if c == '\\' || c == quote then ['\\', c]
  else if c == '\t' then "\\t".toList
  else if c == '\n' then "\\n".toList
  else if c == '\r' then "\\r".toList
  else if isGraphic c then [c]
  else if n < 0x100 then "\\x".toList ++ numeral 16 2 n
  else if n < 0x10000 then "\\u".toList ++ numeral 16 4 n
  else "\\U".toList ++ numeral 16 8 n

/-- The text in quotes, what cannot be shown being escaped. -/
def inQuotes (t : Text) : Text :=
  let q := quoteFor t
  q :: t.flatMap (escapeFor q) ++ [q]

def inQuotesOrNone (t : Option Text) : Text := orNone (t.map inQuotes)

end Text
end DeviceProtocol
