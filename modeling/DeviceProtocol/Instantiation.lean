import DeviceProtocol.Fault
set_option autoImplicit false

/-!
Instantiations: the name of a protocol, and its arguments in parentheses. A backslash takes the meaning
from the character behind it. Parentheses inside an argument nest and are kept.
-/
namespace DeviceProtocol

structure Instantiation where
  name : Text
  arguments : List Text
  deriving DecidableEq, Repr

namespace Instantiation

/-- Puts a character in front of the first argument. -/
def extend (c : Char) (r : List Text × Text) : List Text × Text :=
  match r with
  | (a :: as, rest) => ((c :: a) :: as, rest)
  | ([], rest) => ([[c]], rest)

def readArguments (depth : Nat) : Text → Option (List Text × Text)
  | [] => none
  | '\\' :: c :: cs => (readArguments depth cs).map (extend c)
  | '(' :: cs => (readArguments (depth + 1) cs).map (extend '(')
  | ')' :: cs =>
    match depth with
    | 0 => some ([[]], cs)
    | depth + 1 => (readArguments depth cs).map (extend ')')
  | ',' :: cs =>
    match depth with
    | 0 => (readArguments 0 cs).map fun (as, rest) => ([] :: as, rest)
    | depth + 1 => (readArguments (depth + 1) cs).map (extend ',')
  | c :: cs => (readArguments depth cs).map (extend c)

/-- Reads a name, or a name with arguments. White space around each of them is dropped. -/
def ofText (text : Text) : Except Cause Instantiation :=
  match Text.cutAt? '(' text with
  | none => .ok ⟨text.strip, []⟩
  | some (name, cs) =>
    match readArguments 0 cs with
    | none => .error (.argumentsUnclosed text)
    | some (arguments, rest) =>
      if rest.strip.isEmpty then .ok ⟨name.strip, arguments.map Text.strip⟩
      else .error (.textAfterArguments rest.strip)

end Instantiation
end DeviceProtocol
