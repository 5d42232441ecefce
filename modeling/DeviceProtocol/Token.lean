import DeviceProtocol.Text.Digit
import DeviceProtocol.Text.Quoted
set_option autoImplicit false

namespace DeviceProtocol

inductive Quote where
  | single
  | double
  deriving DecidableEq, Repr

namespace Quote

def char : Quote → Char
  | .single => '\''
  | .double => '"'

def ofChar? : Char → Option Quote
  | '\'' => some .single
  | '"' => some .double
  | _ => none

theorem ofChar?_char (q : Quote) : ofChar? q.char = some q := by
  cases q <;> rfl

theorem ofChar?_eq_some_iff (c : Char) (q : Quote) : ofChar? c = some q ↔ c = q.char := by
  constructor
  · intro h
    unfold ofChar? at h
    split at h <;> simp_all [char] <;> subst h <;> rfl
  · rintro rfl
    exact ofChar?_char q

end Quote

inductive TokenKind where
  | word
  /-- A quoted string, or a piece of one, with its escapes as written. -/
  | string
  | reference
  | special
  /-- The end of a command. -/
  | terminator
  | eof
  deriving DecidableEq, Repr

def TokenKind.name : TokenKind → String
  | .word => "WORD"
  | .string => "STRING"
  | .reference => "VARIABLE"
  | .special => "SPECIAL"
  | .terminator => "END"
  | .eof => "EOF"

/-- A token. The quote is that of a string; a reference inside any quotes has the double one. -/
structure Token where
  kind : TokenKind
  text : Text
  line : Int
  quote : Option Quote := none
  deriving DecidableEq, Repr

namespace Token

def isQuoted (t : Token) : Bool := t.quote.isSome

/-- The token is special and its text stands in the given one. -/
def isSpecial (t : Token) (chars : Text) : Bool :=
  t.kind == .special && t.text.occursIn chars

def isBlank (t : Token) : Bool := t.isSpecial [' ', ',']

def isPositional (t : Token) : Bool :=
  t.kind == .reference && !t.text.isEmpty && t.text.all isDigit

def source (t : Token) : Text :=
  match t.kind with
  | .string =>
    let q := Text.orNone (t.quote.map fun q => [q.char])
    q ++ t.text ++ q
  | .reference => (if t.isQuoted then ['\\'] else []) ++ ['$', '\x7b'] ++ t.text ++ ['\x7d']
  | .terminator => [';']
  | .word | .special | .eof => t.text

def description (t : Token) : Text :=
  let quote := match t.quote with
    | some q => ", quote=".toList ++ Text.inQuotes [q.char]
    | none => []
  "Token(".toList ++ t.kind.name.toList ++ ", ".toList ++ t.text.inQuotes ++ quote ++
    ", line=".toList ++ (toString t.line).toList ++ [')']

def render (ts : List Token) : Text := ts.flatMap source

end Token
end DeviceProtocol
