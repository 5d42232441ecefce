import DeviceProtocol.Scanner.Progress
set_option autoImplicit false

namespace DeviceProtocol

namespace Scanner

def tokens (s : Scanner) : Result (List Token) :=
  match _h : readToken .value true s with
  | .error e s' => .error e s'
  | .ok t s' =>
    if _hk : t.kind = .eof then .ok [t] s'
    else match tokens s' with
      | .error e s'' => .error e s''
      | .ok ts s'' => .ok (t :: ts) s''
termination_by s.rest.length
decreasing_by exact readToken_length .value true s s' t _h _hk

end Scanner

def tokenize (source : Text) : Except Failure (List Token) :=
  match (Scanner.ofSource source).tokens with
  | .ok ts _ => .ok ts
  | .error e _ => .error e

end DeviceProtocol
