import SoftConfirm.Issuance.Call

namespace SoftConfirm

-- Programs side by side over one state, each as far as it has come.
structure Interleaving (σ α : Type) where
  shared : σ
  programs : List (Program α)

-- What may happen next: something outside of all programs, a new program, or the next call of the
-- program at a place. A schedule is a list of moves, and every list is one.
inductive Move (ε α : Type) where
  | occur (event : ε)
  | start (program : Program α)
  | proceed (place : Nat)

def Move.proceeds {ε α : Type} (place : Nat) : Move ε α → Bool
  | proceed other => other == place
  | _ => false

-- The value of a program that has nothing left to ask.
def Program.value? {α : Type} : Program α → Option α
  | done value => some value
  | ask _ _ => none

namespace Interleaving

variable {σ ε α : Type}

def step (act : ε → σ → σ) (answer : Surroundings σ) (s : Interleaving σ α) :
    Move ε α → Interleaving σ α
  | .occur event => { s with shared := act event s.shared }
  | .start program => { s with programs := s.programs ++ [program] }
  | .proceed place =>
      match s.programs[place]? with
      | some (.ask call next) =>
          let (a, shared) := answer call s.shared
          ⟨shared, s.programs.set place (next a)⟩
      | _ => s

def run (act : ε → σ → σ) (answer : Surroundings σ) (s : Interleaving σ α)
    (moves : List (Move ε α)) : Interleaving σ α :=
  moves.foldl (step act answer) s

-- What the program at a place has come to, if it has ended.
def value? (s : Interleaving σ α) (place : Nat) : Option α :=
  s.programs[place]?.bind Program.value?

end Interleaving

end SoftConfirm
