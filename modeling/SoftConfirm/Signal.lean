import SoftConfirm.Issuance.Call

/-!
When a request has to stop: a flag that may be raised, and a deadline. Times are milliseconds of
one clock. A raised flag stays raised, and it counts before a deadline that is over as well.
-/

namespace SoftConfirm

structure Signal where
  -- Whether there is a flag to look at.
  watching : Bool
  -- When the flag is raised, if it ever is.
  raisedAt : Option Nat
  deadline : Option Nat
  deriving DecidableEq, Repr

namespace Signal

def never : Signal := ⟨false, none, none⟩

def flag? (s : Signal) : Option Nat := if s.watching then s.raisedAt else none

def status (s : Signal) (now : Nat) : Option Interruption :=
  if s.flag?.any (· ≤ now) then some .cancelled
  else if s.deadline.any (· ≤ now) then some .deadlineExceeded
  else none

-- What stops work that would be over at `finish`, and when; the signal has not fired before.
def interrupts (s : Signal) (finish : Nat) : Option (Interruption × Nat) :=
  match s.flag?.filter (· ≤ finish), s.deadline.filter (· ≤ finish) with
  | some raised, some deadline =>
      if raised ≤ deadline then some (.cancelled, raised) else some (.deadlineExceeded, deadline)
  | some raised, none => some (.cancelled, raised)
  | none, some deadline => some (.deadlineExceeded, deadline)
  | none, none => none

-- Raises the flag now, unless it was raised before or there is none.
def raise (s : Signal) (now : Nat) : Signal :=
  if s.watching then { s with raisedAt := some ((s.raisedAt.map (min now)).getD now) } else s

end Signal

end SoftConfirm
