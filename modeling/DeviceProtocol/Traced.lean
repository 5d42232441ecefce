import DeviceProtocol.Fault
set_option autoImplicit false

/-!
Computations that consult the bindings of a protocol. What they consult is part of their outcome, also
when they fail, because a handler that nothing consults is a fault of its own.
-/
namespace DeviceProtocol

/-- What was consulted: the protocol's own commands, or the binding of this name. -/
inductive Use where
  | commands
  | binding (name : Text)
  deriving DecidableEq, Repr

structure Traced (α : Type) where
  result : Except Failure α
  uses : List Use := []

namespace Traced

variable {α β : Type}

def pure (a : α) : Traced α := ⟨.ok a, []⟩

def bind (x : Traced α) (f : α → Traced β) : Traced β :=
  match x.result with
  | .ok a =>
    let y := f a
    ⟨y.result, x.uses ++ y.uses⟩
  | .error e => ⟨.error e, x.uses⟩

instance : Monad Traced where
  pure := pure
  bind := bind

def fail (e : Failure) : Traced α := ⟨.error e, []⟩

def fault (cause : Cause) (line : Int) (file : Option Text) : Traced α :=
  fail (.fault { cause := cause, line := some line, file := file })

def ofExcept (r : Except Failure α) : Traced α := ⟨r, []⟩

def use (u : Use) : Traced Unit := ⟨.ok (), [u]⟩

def mapFault (g : Fault → Fault) (x : Traced α) : Traced α :=
  { x with result := x.result.mapError (·.mapFault g) }

def located (line : Int) (file : Option Text) (r : Except Failure α) : Traced α :=
  (ofExcept r).mapFault (·.locate (some line) file)

def flatMap (f : α → Traced (List β)) : List α → Traced (List β)
  | [] => pure []
  | a :: as => do
    let bs ← f a
    let cs ← flatMap f as
    return bs ++ cs

def forAll (f : α → Traced β) : List α → Traced (List β)
  | [] => pure []
  | a :: as => do
    let b ← f a
    let bs ← forAll f as
    return b :: bs

@[simp] theorem result_pure (a : α) : (Pure.pure a : Traced α).result = .ok a := rfl

@[simp] theorem uses_pure (a : α) : (Pure.pure a : Traced α).uses = [] := rfl

@[simp] theorem result_bind (x : Traced α) (f : α → Traced β) :
    (x >>= f).result = x.result >>= fun a => (f a).result := by
  show (bind x f).result = _
  unfold bind
  cases x.result <;> rfl

@[simp] theorem result_fail (e : Failure) : (fail e : Traced α).result = .error e := rfl

@[simp] theorem result_ofExcept (r : Except Failure α) : (ofExcept r).result = r := rfl

@[simp] theorem result_use (u : Use) : (use u).result = .ok () := rfl

theorem uses_bind_ok (x : Traced α) (f : α → Traced β) (a : α) (h : x.result = .ok a) :
    (x >>= f).uses = x.uses ++ (f a).uses := by
  show (bind x f).uses = _
  simp [bind, h]

theorem uses_bind_error (x : Traced α) (f : α → Traced β) (e : Failure) (h : x.result = .error e) :
    (x >>= f).uses = x.uses := by
  show (bind x f).uses = _
  simp [bind, h]

end Traced
end DeviceProtocol
