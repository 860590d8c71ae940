import SoftConfirm.Issuance.Call
import SoftConfirm.Signal

/-!
Requests on a clock, under a signal. The collaborators answer what they like and the signers sign
or refuse, each in its own time; a check looks at the signal, and an await ends without its answer
when the signal has fired before the answer is there.
-/

namespace SoftConfirm

-- A call that a program has made, and the answer that it got.
structure Exchange where
  call : Call
  answer : call.Answer

-- The interruption that the program is told of, if it is told of one.
def Exchange.stop? : Exchange → Option Interruption
  | ⟨.check, stop⟩ => stop
  | ⟨.query _, .error cause⟩ => some cause
  | _ => none

namespace Exchange

@[simp] theorem stop?_signers (active : Option SignerSet) : stop? ⟨.signers, active⟩ = none := rfl

@[simp] theorem stop?_check (stop : Option Interruption) : stop? ⟨.check, stop⟩ = stop := rfl

@[simp] theorem stop?_query_error (q : Query) (cause : Interruption) :
    stop? ⟨.query q, .error cause⟩ = some cause := rfl

@[simp] theorem stop?_query_ok (q : Query) (answer : Except BackendError q.Value) :
    stop? ⟨.query q, .ok answer⟩ = none := rfl

@[simp] theorem stop?_sign (signer : Signer) (digest : Digest)
    (answer : Except SigningError Signature) : stop? ⟨.sign signer digest, answer⟩ = none := rfl

end Exchange

-- The calls of a program that runs from a state, with their answers, in their order.
def Program.trace {α σ : Type} (answer : Surroundings σ) : Program α → σ → List Exchange
  | .done _, _ => []
  | .ask call next, s =>
      ⟨call, (answer call s).1⟩ :: (next (answer call s).1).trace answer (answer call s).2

-- What an await sees of a signal between its start and the moment when its answer is there, and
-- when it sees it: it may notice late that the signal has fired. A signal wins a tie with the
-- answer.
def Signal.awaits (s : Signal) (start finish lag : Nat) : Option (Interruption × Nat) :=
  match s.status start, s.interrupts finish with
  | some cause, _ => some (cause, start)
  | none, some (cause, fired) => some ((s.status (fired + lag)).getD cause, fired + lag)
  | none, none => none

-- How all that a request calls behaves: what it answers, how that changes it, and how long a call
-- takes. A check takes a while as well, and so does noticing that a signal has fired.
structure Conduct (ω : Type) where
  query : (q : Query) → ω → Except BackendError q.Value × ω
  sign : Signer → Digest → ω → Except SigningError Signature × ω
  pace : Call → ω → Nat
  lag : Query → ω → Nat

structure Clocked (ω : Type) where
  world : ω
  clock : Nat

-- What a request meets that takes this signer set and looks at this signal.
def Conduct.under {ω : Type} (c : Conduct ω) (active : Option SignerSet) (signal : Signal) :
    Surroundings (Clocked ω) := fun call s =>
  let finish := s.clock + c.pace call s.world
  match call with
  | .signers => (active, ⟨s.world, finish⟩)
  | .check => (signal.status finish, ⟨s.world, finish⟩)
  | .query q =>
      let (answer, world) := c.query q s.world
      match signal.awaits s.clock finish (c.lag q s.world) with
      | some (cause, time) => (.error cause, ⟨world, time⟩)
      | none => (.ok answer, ⟨world, finish⟩)
  | .sign signer digest =>
      let (answer, world) := c.sign signer digest s.world
      (answer, ⟨world, finish⟩)

end SoftConfirm
