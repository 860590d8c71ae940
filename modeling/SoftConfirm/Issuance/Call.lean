import SoftConfirm.Chain
import SoftConfirm.SignerSet

/-!
What a request asks of its surroundings, one call at a time. A program is a tree of calls that
branches on their answers, and holds for every behaviour of the surroundings; running it means to
answer each call from a state.
-/

namespace SoftConfirm

inductive Interruption where
  | cancelled
  | deadlineExceeded
  deriving DecidableEq, Repr

def Interruption.message : Interruption → String
  | .cancelled => "request cancelled"
  | .deadlineExceeded => "request deadline exceeded"

inductive BackendError where
  | indexer (reason : String)
  | head (reason : String)
  | pool (reason : String)
  deriving DecidableEq, Repr

def BackendError.message : BackendError → String
  | .indexer reason => "indexer unavailable: " ++ reason
  | .head reason => "head source unavailable: " ++ reason
  | .pool reason => "pending pool unavailable: " ++ reason

structure SigningError where
  address : Address
  reason : String
  deriving DecidableEq

def SigningError.message (e : SigningError) : String :=
  s!"signer {e.address.toHex} failed: {e.reason}"

inductive Query where
  | lookup (hash : TxHash)
  | pending (limit : UInt64)
  | head
  deriving DecidableEq

def Query.Value : Query → Type
  | .lookup _ => Option UInt64
  | .pending _ => List RawTx
  | .head => UInt64

inductive Call where
  | signers
  -- Whether the request is to stop.
  | check
  -- A query, which may be interrupted while it waits.
  | query (q : Query)
  | sign (signer : Signer) (digest : Digest)

def Call.Answer : Call → Type
  | .signers => Option SignerSet
  | .check => Option Interruption
  | .query q => Except Interruption (Except BackendError q.Value)
  | .sign _ _ => Except SigningError Signature

inductive Program (α : Type) where
  | done (value : α)
  | ask (call : Call) (next : call.Answer → Program α)

-- How calls are answered from a state, and what they make of it.
abbrev Surroundings (σ : Type) := (call : Call) → σ → call.Answer × σ

namespace Program

variable {α β σ : Type}

def bind : Program α → (α → Program β) → Program β
  | .done value, next => next value
  | .ask call rest, next => .ask call fun answer => (rest answer).bind next

instance : Monad Program where
  pure := .done
  bind := bind

-- The program's value and the state after its calls.
def run (answer : Surroundings σ) : Program α → σ → α × σ
  | .done value, s => (value, s)
  | .ask call next, s =>
      let (a, s) := answer call s
      (next a).run answer s

@[simp] theorem run_done (answer : Surroundings σ) (value : α) (s : σ) :
    (Program.done value).run answer s = (value, s) := rfl

@[simp] theorem run_ask (answer : Surroundings σ) (call : Call)
    (next : call.Answer → Program α) (s : σ) :
    (Program.ask call next).run answer s =
      (next (answer call s).1).run answer (answer call s).2 := rfl

theorem run_bind (answer : Surroundings σ) (p : Program α) (next : α → Program β) (s : σ) :
    (p.bind next).run answer s = (next (p.run answer s).1).run answer (p.run answer s).2 := by
  induction p generalizing s with
  | done value => rfl
  | ask call rest ih => exact ih _ _

end Program

end SoftConfirm
