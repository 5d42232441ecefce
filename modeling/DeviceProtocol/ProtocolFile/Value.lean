import DeviceProtocol.Protocol
import DeviceProtocol.Scanner.Progress
set_option autoImplicit false

/-!
Values in a protocol file: the tokens up to a semicolon or a closing brace, without blanks at either end.

The arguments of a command keep their references. In the value of a variable a reference is replaced as
soon as it is read, unless it names a parameter; so a fault in a reference comes before one in the text
behind it.
-/
namespace DeviceProtocol

namespace Scanner

def readRawValue (s : Scanner) : List Token × Result Unit :=
  match _h : readToken .value false s with
  | .error e s' => ([], .error e s')
  | .ok t s' =>
    if t.isSpecial ['\x7b', '='] then ([], s'.fail (.unexpectedInValue t.text))
    else if t.isSpecial [';'] then ([], .ok () s')
    else if t.isSpecial ['\x7d'] then ([], .ok () (s'.unread '\x7d'))
    else
      let (ts, ending) := readRawValue s'
      (t :: ts, ending)
termination_by s.rest.length
decreasing_by exact readToken_length_of_not_eofAllowed .value s s' t _h

def dropTrailingBlanks (ts : List Token) : List Token :=
  (ts.reverse.dropWhile Token.isBlank).reverse

def readLazyValue (s : Scanner) : Result (List Token) :=
  match readRawValue s with
  | (ts, .ok () s') => .ok (dropTrailingBlanks (ts.dropWhile Token.isBlank)) s'
  | (_, .error e s') => .error e s'

theorem readRawValue_length (s s' : Scanner) (h : (readRawValue s).2 = .ok () s') :
    s'.rest.length ≤ s.rest.length := by
  fun_induction readRawValue s with
  | case1 => simp at h
  | case2 => simp [fail] at h
  | case3 s t s₁ ht =>
    have := readToken_length_of_not_eofAllowed .value s s₁ t ht
    simp only [EStateM.Result.ok.injEq, true_and] at h
    rw [← h]
    omega
  | case4 s t s₁ ht =>
    have := readToken_length_of_not_eofAllowed .value s s₁ t ht
    simp only [EStateM.Result.ok.injEq, true_and] at h
    rw [← h]
    simp only [unread, List.length_cons]
    omega
  | case5 s t s₁ ht _ _ _ ts ending hv ih =>
    have := readToken_length_of_not_eofAllowed .value s s₁ t ht
    have := ih (by rw [hv]; exact h)
    omega

theorem readLazyValue_length (s s' : Scanner) (ts : List Token)
    (h : readLazyValue s = .ok ts s') : s'.rest.length ≤ s.rest.length := by
  unfold readLazyValue at h
  split at h
  · next hv =>
    simp only [EStateM.Result.ok.injEq] at h
    exact readRawValue_length s s' (by rw [hv, h.2])
  · simp at h

end Scanner

namespace Protocol

/-- Replaces the references of a value from left to right, `front` being what has come out so far. Blanks
before everything else are dropped. -/
def settleAfter (p : Protocol) (front : List Token) : List Token → Traced (List Token)
  | [] => return front
  | t :: ts =>
    if t.kind = .reference then do
      match (← Traced.ofExcept (p.parameterIndex t.text)) with
      | some _ => p.settleAfter (front ++ [t]) ts
      | none => do
        let value ← p.resolve t
        p.settleAfter (front ++ value) ts
    else if t.isBlank && front.isEmpty then p.settleAfter front ts
    else p.settleAfter (front ++ [t]) ts

def settle (p : Protocol) (ts : List Token) : Traced (List Token) := do
  let value ← p.settleAfter [] ts
  return Scanner.dropTrailingBlanks value

/-- Reads the value of a variable and binds it. What the value consults counts as used even if reading
ends in a fault. -/
def readAssignment (p : Protocol) (name : Text) (line : Int) (s : Scanner) :
    Protocol × Scanner.Result Unit :=
  let raw := s.readRawValue
  let value := p.settle raw.1
  let q := p.touch value.uses
  let noted (e : Failure) : Failure := e.mapFault (·.addNote (some line) (.inAssignment name))
  match value.result, raw.2 with
  | .error e, _ => (q, .error (noted e) s)
  | .ok _, .error e s' => (q, .error (noted e) s')
  | .ok ts, .ok () s' => (q.assign name line ts, .ok () s')

theorem readAssignment_length (p q : Protocol) (name : Text) (line : Int) (s s' : Scanner)
    (h : p.readAssignment name line s = (q, .ok () s')) : s'.rest.length ≤ s.rest.length := by
  simp only [readAssignment] at h
  split at h
  · simp at h
  · simp at h
  · next hr =>
    simp only [Prod.mk.injEq, EStateM.Result.ok.injEq, true_and] at h
    exact s.readRawValue_length s' (by rw [hr, h.2])

end Protocol
end DeviceProtocol
