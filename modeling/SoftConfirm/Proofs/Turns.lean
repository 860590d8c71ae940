import SoftConfirm.Proofs.Outcomes
import SoftConfirm.Issuance.Interleaving

namespace SoftConfirm

variable {σ ε α : Type}

namespace Program

variable {answer : Surroundings σ}

-- What is left of a program when its next call has been answered from a state.
def turn (answer : Surroundings σ) (p : Program α) (s : σ) : Program α :=
  match p with
  | .done value => .done value
  | .ask call next => next (answer call s).1

def turns (answer : Surroundings σ) (p : Program α) (states : List σ) : Program α :=
  states.foldl (turn answer) p

@[simp] theorem turns_nil (p : Program α) : p.turns answer [] = p := rfl

@[simp] theorem turns_cons (p : Program α) (s : σ) (states : List σ) :
    p.turns answer (s :: states) = (p.turn answer s).turns answer states := rfl

@[simp] theorem turns_done (value : α) (states : List σ) :
    (done value).turns answer states = done value := by
  induction states with
  | nil => rfl
  | cons s states ih => exact ih

theorem Ensures.turn {admits : (call : Call) → call.Answer → Prop} {post : α → Prop}
    {p : Program α} (hanswer : ∀ call s, admits call (answer call s).1)
    (h : p.Ensures admits post) (s : σ) : (p.turn answer s).Ensures admits post := by
  cases p with
  | done value => exact h
  | ask call next => exact h _ (hanswer call s)

theorem Ensures.value {admits : (call : Call) → call.Answer → Prop} {post : α → Prop}
    {p : Program α} (hanswer : ∀ call s, admits call (answer call s).1)
    (h : p.Ensures admits post) {states : List σ} {value : α}
    (hv : (p.turns answer states).value? = some value) : post value := by
  induction states generalizing p with
  | nil =>
      cases p with
      | done other =>
          obtain rfl := Option.some.inj hv
          exact h
      | ask call next => exact absurd hv (by simp [value?])
  | cons s states ih => exact ih (h.turn hanswer s) hv

end Program

namespace Interleaving

variable {act : ε → σ → σ} {answer : Surroundings σ}

-- The states at which the program at a place has its turns.
def views (act : ε → σ → σ) (answer : Surroundings σ) (place : Nat) :
    Interleaving σ α → List (Move ε α) → List σ
  | _, [] => []
  | s, move :: moves =>
      (if move.proceeds place then [s.shared] else []) ++
        views act answer place (step act answer s move) moves

theorem run_append (s : Interleaving σ α) (moves others : List (Move ε α)) :
    run act answer s (moves ++ others) = run act answer (run act answer s moves) others :=
  List.foldl_append

theorem views_append (place : Nat) (s : Interleaving σ α) (moves others : List (Move ε α)) :
    views act answer place s (moves ++ others) =
      views act answer place s moves ++ views act answer place (run act answer s moves) others := by
  induction moves generalizing s with
  | nil => rfl
  | cons move moves ih =>
      rw [List.cons_append, views, ih, views, List.append_assoc]
      rfl

theorem length_views (act : ε → σ → σ) (answer : Surroundings σ) (place : Nat)
    (s : Interleaving σ α) (moves : List (Move ε α)) :
    (views act answer place s moves).length = moves.countP (Move.proceeds place) := by
  induction moves generalizing s with
  | nil => rfl
  | cons move moves ih =>
      rw [views, List.length_append, ih, List.countP_cons]
      cases move.proceeds place <;> simp [Nat.add_comm]

theorem getElem?_step {s : Interleaving σ α} {place : Nat} {p : Program α}
    (h : s.programs[place]? = some p) (move : Move ε α) :
    (step act answer s move).programs[place]? =
      some (p.turns answer (if move.proceeds place then [s.shared] else [])) := by
  have hlt := (List.getElem?_eq_some_iff.mp h).1
  cases move with
  | occur event => exact h
  | start program => simpa [step, Move.proceeds, List.getElem?_append_left hlt] using h
  | proceed other =>
      by_cases hother : other = place
      · subst hother
        simp only [Move.proceeds, beq_self_eq_true, if_true, Program.turns_cons,
          Program.turns_nil, step, h]
        cases p with
        | done value => exact h
        | ask call next => exact List.getElem?_set_self hlt
      · have hfalse : (Move.proceed other : Move ε α).proceeds place = false := by
          simpa [Move.proceeds] using hother
        rw [hfalse, if_neg Bool.false_ne_true, Program.turns_nil, ← h, step]
        split
        · exact List.getElem?_set_ne hother
        · rfl

-- A program among others comes to what it makes of the states at its own turns.
theorem getElem?_run {s : Interleaving σ α} {place : Nat} {p : Program α}
    (h : s.programs[place]? = some p) (moves : List (Move ε α)) :
    (run act answer s moves).programs[place]? =
      some (p.turns answer (views act answer place s moves)) := by
  induction moves generalizing s p with
  | nil => exact h
  | cons move moves ih =>
      rw [views, Program.turns, List.foldl_append]
      exact ih (getElem?_step h move)

theorem value?_run_eq {s : Interleaving σ α} {place : Nat} {p : Program α}
    (h : s.programs[place]? = some p) (moves : List (Move ε α)) :
    (run act answer s moves).value? place =
      (p.turns answer (views act answer place s moves)).value? := by
  rw [value?, getElem?_run h, Option.bind_some]

-- The same for a program that is started behind all others.
theorem value?_run_start (s : Interleaving σ α) (program : Program α)
    (moves : List (Move ε α)) :
    (run act answer s (.start program :: moves)).value? s.programs.length =
      (program.turns answer (views act answer s.programs.length
        (step act answer s (.start program)) moves)).value? :=
  value?_run_eq (by simp [step]) moves

-- Each turn is the move of that program at a moment of the run.
theorem exists_moves_of_views {place : Nat} {s : Interleaving σ α} {moves : List (Move ε α)}
    {before after : List σ} {t : σ}
    (h : views act answer place s moves = before ++ t :: after) :
    ∃ waiting rest, moves = waiting ++ .proceed place :: rest ∧
      (run act answer s waiting).shared = t ∧ views act answer place s waiting = before := by
  induction moves generalizing s before with
  | nil => exact absurd h (by simp [views])
  | cons move moves ih =>
      rw [views] at h
      cases hmove : move.proceeds place with
      | false =>
          rw [hmove, if_neg Bool.false_ne_true, List.nil_append] at h
          obtain ⟨waiting, rest, rfl, ht, hbefore⟩ := ih h
          refine ⟨move :: waiting, rest, rfl, ht, ?_⟩
          rw [views, hmove, hbefore, if_neg Bool.false_ne_true, List.nil_append]
      | true =>
          obtain rfl : move = .proceed place := by
            cases move with
            | proceed other => exact congrArg _ (eq_of_beq hmove)
            | occur | start => exact absurd hmove (by simp [Move.proceeds])
          rw [hmove, if_pos rfl, List.singleton_append] at h
          cases before with
          | nil =>
              obtain ⟨rfl, -⟩ := List.cons_eq_cons.mp h
              exact ⟨[], moves, rfl, rfl, rfl⟩
          | cons first before =>
              obtain ⟨rfl, hrest⟩ := List.cons_eq_cons.mp h
              obtain ⟨waiting, rest, rfl, ht, hbefore⟩ := ih hrest
              refine ⟨.proceed place :: waiting, rest, rfl, ht, ?_⟩
              rw [views, hmove, hbefore, if_pos rfl, List.singleton_append]

end Interleaving

end SoftConfirm
