import SoftConfirm.Issuance.Interleaving

namespace SoftConfirm

variable {σ ε α : Type}

-- What a program may count on: a relation that all who act on the state keep to, so that it holds
-- between any two moments of a run.
structure Rely (act : ε → σ → σ) (answer : Surroundings σ) where
  keeps : σ → σ → Prop
  refl : ∀ s, keeps s s
  trans : ∀ {s t u}, keeps s t → keeps t u → keeps s u
  of_act : ∀ event s, keeps s (act event s)
  of_answer : ∀ call s, keeps s (answer call s).2

namespace Program

variable {act : ε → σ → σ} {answer : Surroundings σ} {rely : Rely act answer} {post : α → Prop}

-- Within `turns` calls the program ends in a value with `post`, whatever happens to the state
-- between its calls.
def Attains (rely : Rely act answer) (post : α → Prop) : Nat → Program α → σ → Prop
  | _, .done value, _ => post value
  | 0, .ask _ _, _ => False
  | turns + 1, .ask call next, s =>
      ∀ t, rely.keeps s t → Attains rely post turns (next (answer call t).1) (answer call t).2

@[simp] theorem attains_done {turns : Nat} {value : α} {s : σ} :
    (done value).Attains rely post turns s ↔ post value := by
  cases turns <;> exact Iff.rfl

theorem Attains.of_keeps {turns : Nat} {p : Program α} {s t : σ} (hst : rely.keeps s t)
    (h : p.Attains rely post turns s) : p.Attains rely post turns t := by
  cases p with
  | done value => exact attains_done.mpr (attains_done.mp h)
  | ask call next =>
      cases turns with
      | zero => exact h
      | succ turns => exact fun u htu => h u (rely.trans hst htu)

theorem Attains.value {turns : Nat} {p : Program α} {s : σ} {value : α}
    (h : p.Attains rely post turns s) (hv : p.value? = some value) : post value := by
  cases p with
  | done other =>
      obtain rfl := Option.some.inj hv
      exact attains_done.mp h
  | ask call next => exact absurd hv (by simp [value?])

theorem Attains.ended {p : Program α} {s : σ} (h : p.Attains rely post 0 s) :
    ∃ value, p.value? = some value := by
  cases p with
  | done value => exact ⟨value, rfl⟩
  | ask call next => exact h.elim

end Program

namespace Interleaving

variable {act : ε → σ → σ} {answer : Surroundings σ} {rely : Rely act answer} {post : α → Prop}

theorem keeps_step (rely : Rely act answer) (s : Interleaving σ α) (move : Move ε α) :
    rely.keeps s.shared (step act answer s move).shared := by
  cases move with
  | occur event => exact rely.of_act event s.shared
  | start program => exact rely.refl s.shared
  | proceed place =>
      simp only [step]
      split
      · rename_i call next _
        exact rely.of_answer call s.shared
      · exact rely.refl s.shared

theorem keeps_run (rely : Rely act answer) (moves : List (Move ε α)) (s : Interleaving σ α) :
    rely.keeps s.shared (run act answer s moves).shared := by
  induction moves generalizing s with
  | nil => exact rely.refl s.shared
  | cons move moves ih => exact rely.trans (keeps_step rely s move) (ih _)

-- One move keeps the program at a place on its way, and brings it on if the move is its own.
theorem attains_step (s : Interleaving σ α) (move : Move ε α) {place turns : Nat} {p : Program α}
    (hp : s.programs[place]? = some p) (h : p.Attains rely post turns s.shared) :
    ∃ q, (step act answer s move).programs[place]? = some q ∧
      q.Attains rely post (turns - if move.proceeds place then 1 else 0)
        (step act answer s move).shared := by
  have hlt := (List.getElem?_eq_some_iff.mp hp).1
  cases move with
  | occur event => exact ⟨p, hp, h.of_keeps (rely.of_act event s.shared)⟩
  | start program => exact ⟨p, by simpa only [step, List.getElem?_append_left hlt] using hp, h⟩
  | proceed other =>
      by_cases hother : other = place
      · subst other
        simp only [Move.proceeds, beq_self_eq_true, ite_true, step, hp]
        cases p with
        | done value =>
            exact ⟨.done value, hp, Program.attains_done.mpr (Program.attains_done.mp h)⟩
        | ask call next =>
            cases turns with
            | zero => exact h.elim
            | succ turns =>
                exact ⟨_, List.getElem?_set_self hlt, h s.shared (rely.refl s.shared)⟩
      · have hfalse : Move.proceeds place (.proceed other : Move ε α) = false := by
          simpa [Move.proceeds] using hother
        simp only [hfalse, Bool.false_eq_true, ite_false, Nat.sub_zero, step]
        split
        · rename_i call next _
          exact ⟨p, by simpa only [List.getElem?_set_ne hother] using hp,
            h.of_keeps (rely.of_answer call s.shared)⟩
        · exact ⟨p, hp, h⟩

theorem attains_run (moves : List (Move ε α)) (s : Interleaving σ α) {place turns : Nat}
    {p : Program α} (hp : s.programs[place]? = some p) (h : p.Attains rely post turns s.shared) :
    ∃ q, (run act answer s moves).programs[place]? = some q ∧
      q.Attains rely post (turns - moves.countP (Move.proceeds place))
        (run act answer s moves).shared := by
  induction moves generalizing s turns p with
  | nil => exact ⟨p, hp, h⟩
  | cons move moves ih =>
      obtain ⟨q, hq, hqa⟩ := attains_step s move hp h
      obtain ⟨r, hr, hra⟩ := ih (step act answer s move) hq hqa
      refine ⟨r, hr, ?_⟩
      rwa [List.countP_cons, Nat.add_comm, ← Nat.sub_sub]

-- A program never ends in anything but `post`, and it has ended once it has had its turns.
theorem value?_run (moves : List (Move ε α)) (s : Interleaving σ α) {place turns : Nat}
    {p : Program α} (hp : s.programs[place]? = some p) (h : p.Attains rely post turns s.shared) :
    (∀ value, (run act answer s moves).value? place = some value → post value) ∧
      (turns ≤ moves.countP (Move.proceeds place) →
        ∃ value, (run act answer s moves).value? place = some value) := by
  obtain ⟨q, hq, hqa⟩ := attains_run moves s hp h
  have hv : (run act answer s moves).value? place = q.value? := by
    simp only [value?, hq, Option.bind_some]
  rw [hv]
  refine ⟨fun value => hqa.value, fun hturns => ?_⟩
  rw [Nat.sub_eq_zero_of_le hturns] at hqa
  exact hqa.ended

end Interleaving

end SoftConfirm
