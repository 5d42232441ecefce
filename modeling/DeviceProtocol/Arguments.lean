import DeviceProtocol.Token
set_option autoImplicit false

namespace DeviceProtocol

structure Arguments where
  /-- The tokens taken so far, the last one first. -/
  taken : List Token := []
  rest : List Token
  deriving DecidableEq, Repr

inductive Peek where
  | token (t : Token)
  | behindLast
  | beforeFirst
  deriving DecidableEq, Repr

namespace Arguments

def ofTokens (ts : List Token) : Arguments := { rest := ts }

def position (a : Arguments) : Nat := a.taken.length

def tokens (a : Arguments) : List Token := a.taken.reverse ++ a.rest

/-- What stands so many places behind the next token. Places before the first token count backwards from
the last one, once around. -/
def peek (a : Arguments) (n : Int) : Peek :=
  let place := a.position + n
  let place := if place < 0 then place + a.tokens.length else place
  if place < 0 then .beforeFirst
  else match a.tokens[place.toNat]? with
    | some t => .token t
    | none => .behindLast

def next? (a : Arguments) : Option (Token × Arguments) :=
  match a.rest with
  | [] => none
  | t :: ts => some (t, ⟨t :: a.taken, ts⟩)

def advance (a : Arguments) (n : Nat) : Arguments :=
  ⟨(a.rest.take n).reverse ++ a.taken, a.rest.drop n⟩

def finish (a : Arguments) : Arguments := a.advance a.rest.length

def atEnd (a : Arguments) : Bool := a.rest.isEmpty

def skipBlanks (a : Arguments) : Arguments := a.advance (a.rest.takeWhile Token.isBlank).length

/-- Takes the special character if it comes next, and the blanks before it in any case. -/
def expect (a : Arguments) (chars : Text) : Bool × Arguments :=
  let a := a.skipBlanks
  match a.rest with
  | t :: _ => if t.isSpecial chars then (true, a.advance 1) else (false, a)
  | [] => (false, a)

/-- The line of the next token, of the last one at the end, and zero if there are none. -/
def line (a : Arguments) : Int :=
  match a.rest.head?.or a.taken.head? with
  | some t => t.line
  | none => 0

def description (a : Arguments) : Text :=
  "ArgStream(".toList ++ (Token.render a.rest).inQuotes ++ [')']

end Arguments
end DeviceProtocol
