import DeviceProtocol.Text.Basic
set_option autoImplicit false

/-!
Paths to files: names divided by slashes. A part that is empty or a single dot stays where it is, and two
dots lead to the directory above.
-/
namespace DeviceProtocol

namespace Path

def isAbsolute (path : Text) : Bool := path.head? == some '/'

def parts (path : Text) : List Text := Text.splitAt (· == '/') path

def isIdle (part : Text) : Bool := part.isEmpty || part == ['.']

def isParent (part : Text) : Bool := part == ['.', '.']

def join (directory name : Text) : Text :=
  if isAbsolute name then name
  else match directory.getLast? with
    | none | some '/' => directory ++ name
    | some _ => directory ++ '/' :: name

/-- The path without parts that stay where they are. Two slashes at the front, and no more, are kept. -/
def normalize (path : Text) : Text :=
  let root := match path with
    | '/' :: '/' :: '/' :: _ => ['/']
    | '/' :: '/' :: _ => ['/', '/']
    | '/' :: _ => ['/']
    | _ => []
  let body := Text.joinWith ['/'] ((parts path).filter fun p => !isIdle p)
  if (root ++ body).isEmpty then ['.'] else root ++ body

end Path
end DeviceProtocol
