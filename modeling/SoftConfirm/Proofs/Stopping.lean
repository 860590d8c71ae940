import SoftConfirm.Issuance.Conduct
import SoftConfirm.Proofs.Outcomes

namespace SoftConfirm

variable {α β γ σ ω : Type}

namespace Signal

variable {s : Signal} {now later start finish lag time : Nat} {cause : Interruption}

-- Whether a moment that may come at all has come.
def Reached (moment : Option Nat) (now : Nat) : Prop := ∃ t, moment = some t ∧ t ≤ now

theorem any_le_iff {moment : Option Nat} : moment.any (· ≤ now) ↔ Reached moment now := by
  cases moment <;> simp [Reached]

theorem reached_mono {moment : Option Nat} (hle : now ≤ later) (h : Reached moment now) :
    Reached moment later :=
  h.imp fun _ ht => ⟨ht.1, Nat.le_trans ht.2 hle⟩

theorem isSome_status_iff :
    (s.status now).isSome ↔ Reached s.flag? now ∨ Reached s.deadline now := by
  rw [← any_le_iff, ← any_le_iff, status]
  split
  · rename_i hflag
    simp [hflag]
  · rename_i hflag
    split
    · rename_i hdeadline
      simp [hdeadline]
    · rename_i hdeadline
      simp [hflag, hdeadline]

-- A signal that has fired stays fired.
theorem isSome_status_mono (hle : now ≤ later) (h : (s.status now).isSome) :
    (s.status later).isSome := by
  rw [isSome_status_iff] at h ⊢
  exact h.imp (reached_mono hle) (reached_mono hle)

-- A raised flag counts before a deadline.
theorem eq_cancelled_iff (h : s.status now = some cause) :
    cause = .cancelled ↔ Reached s.flag? now := by
  rw [← any_le_iff]
  rw [status] at h
  split at h
  · rename_i hflag
    obtain rfl := Option.some.inj h
    simp [hflag]
  · rename_i hflag
    split at h
    · obtain rfl := Option.some.inj h
      simp [hflag]
    · exact absurd h (by simp)

theorem status_of_raised (h : Reached s.flag? now) : s.status now = some .cancelled := by
  rw [status, if_pos (any_le_iff.mpr h)]

theorem status_of_expired (hflag : ¬ Reached s.flag? now) (h : Reached s.deadline now) :
    s.status now = some .deadlineExceeded := by
  rw [status, if_neg (mt any_le_iff.mp hflag), if_pos (any_le_iff.mpr h)]

theorem status_of_interrupts (h : s.interrupts finish = some (cause, time)) :
    s.status time = some cause := by
  unfold interrupts at h
  split at h
  · rename_i raised deadline hflag hdeadline
    obtain ⟨hflag, -⟩ := Option.filter_eq_some_iff.mp hflag
    obtain ⟨hdeadline, -⟩ := Option.filter_eq_some_iff.mp hdeadline
    split at h
    · obtain ⟨rfl, rfl⟩ := Prod.mk.inj (Option.some.inj h)
      exact status_of_raised ⟨raised, hflag, Nat.le_refl _⟩
    · rename_i hlt
      obtain ⟨rfl, rfl⟩ := Prod.mk.inj (Option.some.inj h)
      refine status_of_expired ?_ ⟨deadline, hdeadline, Nat.le_refl _⟩
      rintro ⟨t, ht, hle⟩
      obtain rfl := Option.some.inj (hflag.symm.trans ht)
      exact hlt hle
  · rename_i raised hflag _
    obtain ⟨hflag, -⟩ := Option.filter_eq_some_iff.mp hflag
    obtain ⟨rfl, rfl⟩ := Prod.mk.inj (Option.some.inj h)
    exact status_of_raised ⟨raised, hflag, Nat.le_refl _⟩
  · rename_i deadline hflag hdeadline
    obtain ⟨hdeadline, hle⟩ := Option.filter_eq_some_iff.mp hdeadline
    obtain ⟨rfl, rfl⟩ := Prod.mk.inj (Option.some.inj h)
    refine status_of_expired ?_ ⟨deadline, hdeadline, Nat.le_refl _⟩
    rintro ⟨t, ht, hlt⟩
    rw [ht, Option.filter_some_pos (by simp at hle ⊢; omega)] at hflag
    exact absurd hflag (by simp)
  · exact absurd h (by simp)

theorem status_of_awaits (h : s.awaits start finish lag = some (cause, time)) :
    s.status time = some cause := by
  unfold awaits at h
  cases hstatus : s.status start with
  | some other =>
      rw [hstatus] at h
      obtain ⟨rfl, rfl⟩ := Prod.mk.inj (Option.some.inj h)
      exact hstatus
  | none =>
      cases hfired : s.interrupts finish with
      | none =>
          rw [hstatus, hfired] at h
          exact absurd h (by simp)
      | some stop =>
          rw [hstatus, hfired] at h
          obtain ⟨rfl, rfl⟩ := Prod.mk.inj (Option.some.inj h)
          have hsome : (s.status stop.2).isSome :=
            Option.isSome_of_eq_some (status_of_interrupts hfired)
          obtain ⟨seen, hseen⟩ :=
            Option.isSome_iff_exists.mp (isSome_status_mono (Nat.le_add_right stop.2 lag) hsome)
          rw [hseen, Option.getD_some]

theorem awaits_never (start finish lag : Nat) : never.awaits start finish lag = none := rfl

end Signal

namespace Program

theorem trace_bind (answer : Surroundings σ) (p : Program α) (f : α → Program β) (s : σ) :
    (p.bind f).trace answer s =
      p.trace answer s ++ (f (p.run answer s).1).trace answer (p.run answer s).2 := by
  induction p generalizing s with
  | done value => rfl
  | ask call next ih => exact congrArg (_ :: ·) (ih _ _)

end Program

-- A call that reaches somebody else: a collaborator that is asked, a signer that has to sign.
def Call.Outward : Call → Prop
  | .query _ | .sign _ _ => True
  | .signers | .check => False

-- Whether an exchange was a check that found nothing to stop for.
def Exchange.isPassed : Exchange → Bool
  | ⟨.check, none⟩ => true
  | _ => false

theorem Exchange.eq_check_of_isPassed {e : Exchange} (h : e.isPassed = true) :
    e = ⟨.check, none⟩ := by
  unfold isPassed at h
  split at h
  · rfl
  · cases h

namespace Program

-- A program that calls nobody but right after a check that was passed, and that ends when it is
-- told of an interruption, with that interruption. `checked` is whether such a check has just been.
def Heeds : Program (Except IssueError β) → (checked : Bool) → Prop
  | .done _, _ => True
  | .ask call next, checked => (call.Outward → checked = true) ∧
      ∀ a, (next a).Heeds (Exchange.isPassed ⟨call, a⟩) ∧
        ∀ cause, Exchange.stop? ⟨call, a⟩ = some cause →
          next a = .done (.error (.interrupted cause))

theorem Heeds.mono {p : Program (Except IssueError β)} (h : p.Heeds false) (checked : Bool) :
    p.Heeds checked := by
  cases p with
  | done outcome => trivial
  | ask call next => exact ⟨fun hcall => absurd (h.1 hcall) nofun, h.2⟩

-- What stands before a call in what was asked: a check that was passed, or nothing at all.
theorem Heeds.before_outward {answer : Surroundings σ} {p : Program (Except IssueError β)}
    {checked : Bool} (h : p.Heeds checked) {s : σ} {before after : List Exchange} {e : Exchange}
    (htrace : p.trace answer s = before ++ e :: after) (hcall : e.call.Outward) :
    before = [] ∧ checked = true ∨ ∃ earlier, before = earlier ++ [⟨.check, none⟩] := by
  induction p generalizing checked s before with
  | done outcome => exact absurd htrace (by simp [trace])
  | ask call next ih =>
      rw [trace] at htrace
      cases before with
      | nil =>
          obtain ⟨rfl, -⟩ := List.cons.inj htrace
          exact .inl ⟨rfl, h.1 hcall⟩
      | cons first before =>
          obtain ⟨rfl, hrest⟩ := List.cons.inj htrace
          rcases ih _ (h.2 _).1 hrest with ⟨rfl, hpassed⟩ | ⟨earlier, rfl⟩
          · exact .inr ⟨[], by rw [Exchange.eq_check_of_isPassed hpassed, List.nil_append]⟩
          · exact .inr ⟨_ :: earlier, rfl⟩

end Program

namespace Attempt

theorem heeds_pure (value : β) : (pure value : Attempt β).run.Heeds false := trivial

theorem heeds_throw (e : IssueError) : (throw e : Attempt β).run.Heeds false := trivial

theorem heeds_bind {attempt : Attempt β} {f : β → Attempt γ} (h : attempt.run.Heeds false)
    (hf : ∀ value, (f value).run.Heeds false) : (attempt >>= f).run.Heeds false := by
  rw [run_bind]
  generalize attempt.run = p at h
  generalize false = checked at h ⊢
  induction p generalizing checked with
  | done outcome =>
      cases outcome with
      | ok value => exact (hf value).mono checked
      | error e => trivial
  | ask call next ih =>
      refine ⟨h.1, fun a => ⟨ih a _ (h.2 a).1, fun cause hstop => ?_⟩⟩
      exact congrArg (Program.bind · _) ((h.2 a).2 cause hstop)

theorem heeds_mapM {f : α → Attempt β} (h : ∀ item, (f item).run.Heeds false) (items : List α) :
    (items.mapM f).run.Heeds false := by
  induction items with
  | nil => exact heeds_pure []
  | cons item items ih =>
      rw [List.mapM_cons]
      exact heeds_bind (h item) fun value => heeds_bind ih fun values => heeds_pure _

end Attempt

namespace Issuance

-- A check ends the attempt, or what comes next follows it directly.
theorem run_check_bind (next : Unit → Attempt β) :
    (check >>= next).run = .ask .check fun stop =>
      match stop with
      | some cause => .done (.error (.interrupted cause))
      | none => (next ()).run := by
  refine congrArg (Program.ask .check) (funext fun stop => ?_)
  cases stop with
  | some cause => rfl
  | none => rfl

theorem heeds_check_bind {next : Unit → Attempt β} (hnext : (next ()).run.Heeds true) :
    (check >>= next).run.Heeds false := by
  rw [run_check_bind]
  refine ⟨False.elim, fun stop => ?_⟩
  cases stop with
  | none => exact ⟨hnext, nofun⟩
  | some cause =>
      refine ⟨trivial, fun other h => ?_⟩
      obtain rfl := Option.some.inj h
      rfl

theorem heeds_query (q : Query) : (query q).run.Heeds false := by
  refine heeds_check_bind ⟨fun _ => rfl, fun a => ?_⟩
  rcases a with cause | cause | value
  · refine ⟨trivial, fun other h => ?_⟩
    obtain rfl := Option.some.inj h
    rfl
  · exact ⟨trivial, nofun⟩
  · exact ⟨trivial, nofun⟩

theorem heeds_signWith (digest : Digest) (signer : Signer) :
    (signWith digest signer).run.Heeds false := by
  refine heeds_check_bind ⟨fun _ => rfl, fun a => ?_⟩
  cases a with
  | ok signature => exact ⟨trivial, nofun⟩
  | error cause => exact ⟨trivial, nofun⟩

theorem heeds_resolve (decode : Decoder) (limit : UInt64) (hash : TxHash) :
    (resolve decode limit hash).run.Heeds false := by
  refine Attempt.heeds_bind (heeds_query _) fun first => ?_
  cases first with
  | some height => exact Attempt.heeds_pure _
  | none =>
      refine Attempt.heeds_bind (heeds_query _) fun raws => ?_
      split
      · exact Attempt.heeds_bind (heeds_query _) fun head => Attempt.heeds_pure _
      · refine Attempt.heeds_bind (heeds_query _) fun second => ?_
        cases second with
        | some height => exact Attempt.heeds_pure _
        | none => exact Attempt.heeds_throw _

theorem heeds_issue (backend : Option Backend) (limit : UInt64) (hash : TxHash)
    (issuedAt : UInt64) : (issue backend limit hash issuedAt).run.Heeds false := by
  rw [issue_eq]
  refine Attempt.heeds_bind ⟨False.elim, fun active => ⟨trivial, nofun⟩⟩ fun active => ?_
  cases active with
  | none => trivial
  | some set =>
      cases backend with
      | none => trivial
      | some backend =>
          refine Attempt.heeds_bind (heeds_resolve _ _ _) fun found => ?_
          refine heeds_check_bind (Program.Heeds.mono ?_ true)
          refine Attempt.heeds_bind (Attempt.heeds_mapM (heeds_signWith _) _) fun entries => ?_
          refine heeds_check_bind ?_
          cases entries with
          | nil => trivial
          | cons primary others => trivial

end Issuance

namespace Attempt

variable {answer : Surroundings σ}

-- An attempt whose values come right after a check that was passed.
def EndsChecked (answer : Surroundings σ) (attempt : Attempt β) : Prop :=
  ∀ s value, (attempt.run.run answer s).1 = .ok value →
    ∃ before t, attempt.run.trace answer s = before ++ [⟨.check, none⟩] ∧
      (answer .check t).1 = none ∧ (attempt.run.run answer s).2 = (answer .check t).2

theorem endsChecked_throw (e : IssueError) : (throw e : Attempt β).EndsChecked answer :=
  fun _ _ h => absurd h nofun

theorem endsChecked_bind {attempt : Attempt β} {f : β → Attempt γ}
    (hf : ∀ first, (f first).EndsChecked answer) : (attempt >>= f).EndsChecked answer := by
  intro s value h
  rw [run_bind, Program.run_bind] at h ⊢
  rw [Program.trace_bind]
  rcases hfirst : attempt.run.run answer s with ⟨outcome, t⟩
  rw [hfirst] at h
  cases outcome with
  | ok first =>
      obtain ⟨before, u, htrace, hnone, hlast⟩ := hf first t value h
      exact ⟨attempt.run.trace answer s ++ before, u, by simp only [htrace, List.append_assoc],
        hnone, hlast⟩
  | error e => exact absurd h nofun

-- Nothing may be asked between the check and the value.
theorem endsChecked_check {f : Unit → Attempt β} {outcome : Except IssueError β}
    (hf : (f ()).run = .done outcome) : (Issuance.check >>= f).EndsChecked answer := by
  intro s value h
  rw [Issuance.run_check_bind, hf, Program.run_ask] at h ⊢
  rw [Program.trace]
  cases hstop : (answer .check s).1 with
  | none => exact ⟨[], s, by simp [Program.trace], hstop, rfl⟩
  | some cause =>
      rw [hstop] at h
      exact absurd h nofun

end Attempt

namespace Issuance

theorem endsChecked_issue {answer : Surroundings σ} (backend : Option Backend) (limit : UInt64)
    (hash : TxHash) (issuedAt : UInt64) :
    (issue backend limit hash issuedAt).EndsChecked answer := by
  rw [issue_eq]
  refine Attempt.endsChecked_bind fun active => ?_
  match active, backend with
  | none, _ => exact Attempt.endsChecked_throw _
  | some _, none => exact Attempt.endsChecked_throw _
  | some set, some backend =>
      refine Attempt.endsChecked_bind fun found => Attempt.endsChecked_bind fun _ => ?_
      refine Attempt.endsChecked_bind fun entries => ?_
      cases entries with
      | nil => exact Attempt.endsChecked_check rfl
      | cons primary others => exact Attempt.endsChecked_check rfl

end Issuance

namespace Conduct

variable {c : Conduct ω} {active : Option SignerSet} {signal : Signal}

-- A call is answered as if there were no signal, unless it tells that the signal has fired.
theorem under_eq_or_stop (c : Conduct ω) (active : Option SignerSet) (signal : Signal)
    (call : Call) (s : Clocked ω) :
    (Exchange.stop? ⟨call, (c.under active signal call s).1⟩ = none ∧
      c.under active signal call s = c.under active .never call s) ∨
    ∃ cause, Exchange.stop? ⟨call, (c.under active signal call s).1⟩ = some cause ∧
      signal.status (c.under active signal call s).2.clock = some cause := by
  cases call with
  | signers => exact .inl ⟨rfl, rfl⟩
  | sign signer digest => exact .inl ⟨rfl, rfl⟩
  | check =>
      cases hstatus : signal.status (s.clock + c.pace .check s.world) with
      | none => exact .inl ⟨hstatus, Prod.ext hstatus rfl⟩
      | some cause => exact .inr ⟨cause, hstatus, hstatus⟩
  | query q =>
      cases hawaits : signal.awaits s.clock (s.clock + c.pace (.query q) s.world)
          (c.lag q s.world) with
      | none =>
          refine .inl ⟨?_, ?_⟩
          · simp only [under, hawaits, Exchange.stop?_query_ok]
          · simp only [under, hawaits, Signal.awaits_never]
      | some stop =>
          refine .inr ⟨stop.1, ?_, ?_⟩
          · simp only [under, hawaits, Exchange.stop?_query_error]
          · simp only [under, hawaits]
            exact Signal.status_of_awaits hawaits

-- How a run went under a signal: to its end as if there were none, or up to an exchange that told
-- of it, with the same calls until then.
inductive Course (signal : Signal) (made free : List Exchange)
    (outcome other : Except IssueError β × Clocked ω) : Prop where
  | unstopped (all : ∀ e ∈ made, e.stop? = none) (trace : made = free) (run : outcome = other)
  | stopped (before : List Exchange) (last : Exchange) (cause : Interruption)
      (trace : made = before ++ [last]) (all : ∀ e ∈ before, e.stop? = none)
      (stop : last.stop? = some cause) (calls : made.map (·.call) <+: free.map (·.call))
      (run : outcome.1 = .error (.interrupted cause))
      (fired : signal.status outcome.2.clock = some cause)

theorem course_of_heeds {p : Program (Except IssueError β)} {checked : Bool}
    (h : p.Heeds checked) (s : Clocked ω) :
    Course signal (p.trace (c.under active signal) s) (p.trace (c.under active .never) s)
      (p.run (c.under active signal) s) (p.run (c.under active .never) s) := by
  induction p generalizing checked s with
  | done outcome => exact .unstopped (by simp [Program.trace]) rfl rfl
  | ask call next ih =>
      rcases under_eq_or_stop c active signal call s with ⟨hnone, heq⟩ | ⟨cause, hstop, hfired⟩
      · rw [Program.trace, Program.trace, Program.run_ask, Program.run_ask, ← heq]
        cases ih _ (h.2 (c.under active signal call s).1).1 (c.under active signal call s).2 with
        | unstopped all trace run =>
            refine .unstopped ?_ (congrArg _ trace) run
            exact List.forall_mem_cons.mpr ⟨hnone, all⟩
        | stopped before last cause trace all stop calls run fired =>
            refine .stopped (_ :: before) last cause (congrArg _ trace)
              (List.forall_mem_cons.mpr ⟨hnone, all⟩) stop ?_ run fired
            exact (List.prefix_cons_inj call).mpr calls
      · have hnext := (h.2 (c.under active signal call s).1).2 cause hstop
        rw [Program.trace, Program.trace, Program.run_ask, hnext]
        refine .stopped [] _ cause rfl (by simp) hstop ?_ rfl hfired
        exact ⟨_, rfl⟩

-- The first exchange that tells of the signal is the last one, and gives the outcome.
theorem Course.of_stop {signal : Signal} {made free : List Exchange}
    {outcome other : Except IssueError β × Clocked ω} (h : Course signal made free outcome other)
    {before after : List Exchange} {e : Exchange} {cause : Interruption}
    (hmade : made = before ++ e :: after) (hstop : e.stop? = some cause) :
    after = [] ∧ outcome.1 = .error (.interrupted cause) ∧
      signal.status outcome.2.clock = some cause := by
  cases h with
  | unstopped all trace run =>
      have hnone := all e (by simp [hmade])
      exact absurd (hnone.symm.trans hstop) nofun
  | stopped first last cause' trace all stop calls run fired =>
      rw [trace] at hmade
      rcases List.eq_nil_or_concat after with rfl | ⟨middle, x, rfl⟩
      · obtain ⟨-, hlast⟩ := List.append_inj' hmade rfl
        obtain rfl := List.singleton_inj.mp hlast
        obtain rfl := Option.some.inj (stop.symm.trans hstop)
        exact ⟨rfl, run, fired⟩
      · rw [List.concat_eq_append, ← List.cons_append, ← List.append_assoc] at hmade
        obtain ⟨hfirst, -⟩ := List.append_inj' hmade rfl
        have hnone := all e (by simp [hfirst])
        exact absurd (hnone.symm.trans hstop) nofun

theorem Course.calls_prefix {signal : Signal} {made free : List Exchange}
    {outcome other : Except IssueError β × Clocked ω}
    (h : Course signal made free outcome other) :
    made.map (·.call) <+: free.map (·.call) := by
  cases h with
  | unstopped all trace run => exact trace ▸ List.prefix_refl _
  | stopped _ _ _ _ _ _ calls => exact calls

theorem Course.of_unstopped {signal : Signal} {made free : List Exchange}
    {outcome other : Except IssueError β × Clocked ω} (h : Course signal made free outcome other)
    (hall : ∀ e ∈ made, e.stop? = none) : made = free ∧ outcome = other := by
  cases h with
  | unstopped all trace run => exact ⟨trace, run⟩
  | stopped first last cause trace all stop calls run fired =>
      exact absurd (stop.symm.trans (hall last (by simp [trace]))) nofun

theorem Course.unstopped_of_ok {signal : Signal} {made free : List Exchange}
    {outcome other : Except IssueError β × Clocked ω} (h : Course signal made free outcome other)
    {value : β} (hvalue : outcome.1 = .ok value) : ∀ e ∈ made, e.stop? = none := by
  cases h with
  | unstopped all trace run => exact all
  | stopped _ _ _ _ _ _ _ run => exact absurd (run.symm.trans hvalue) nofun

-- The first check or await of a request that sees the signal fired is the last thing the request
-- does: no collaborator is asked and no signer signs after it, and the outcome names what has
-- fired, the flag before the deadline. Until then the calls are those of a request that nothing
-- interrupts, and if nothing is seen the whole request is. Whoever is asked or has to sign is called
-- right after a check that was passed. A receipt is given only by a request that has passed all its
-- checks, the last of them after everything else.
theorem fired_signal_stops (c : Conduct ω) (set : SignerSet) (backend : Backend)
    (signal : Signal) (s : Clocked ω) (limit : UInt64) (hash : TxHash) (issuedAt : UInt64) :
    let request := (Issuance.issue (some backend) limit hash issuedAt).run
    let made := request.trace (c.under (some set) signal) s
    let free := request.trace (c.under (some set) .never) s
    let outcome := (request.run (c.under (some set) signal) s).1
    let ended := (request.run (c.under (some set) signal) s).2.clock
    made.map (·.call) <+: free.map (·.call) ∧
    (∀ before e after cause, made = before ++ e :: after → e.stop? = some cause →
      after = [] ∧ outcome = .error (.interrupted cause) ∧ signal.status ended = some cause ∧
        cause = if signal.flag?.any (· ≤ ended) then .cancelled else .deadlineExceeded) ∧
    ((∀ e ∈ made, e.stop? = none) →
      made = free ∧ outcome = (request.run (c.under (some set) .never) s).1) ∧
    (∀ before e after, made = before ++ e :: after → e.call.Outward →
      ∃ earlier, before = earlier ++ [⟨.check, none⟩]) ∧
    ∀ r, outcome = .ok r →
      (∀ e ∈ made, e.stop? = none) ∧ (∃ before, made = before ++ [⟨.check, none⟩]) ∧
        ∀ time ≤ ended, signal.status time = none := by
  intro request made free outcome ended
  have hheeds := Issuance.heeds_issue (some backend) limit hash issuedAt
  have hcourse : Course signal made free _ _ := course_of_heeds hheeds s
  refine ⟨hcourse.calls_prefix, ?_, ?_, ?_, ?_⟩
  · intro before e after cause hmade hstop
    obtain ⟨hlast, houtcome, hfired⟩ := hcourse.of_stop hmade hstop
    refine ⟨hlast, houtcome, hfired, ?_⟩
    have hcancelled := (Signal.eq_cancelled_iff hfired).trans Signal.any_le_iff.symm
    split
    · rename_i hflag
      exact hcancelled.mpr hflag
    · rename_i hflag
      cases cause with
      | cancelled => exact absurd (hcancelled.mp rfl) hflag
      | deadlineExceeded => rfl
  · intro hall
    obtain ⟨htrace, hrun⟩ := hcourse.of_unstopped hall
    exact ⟨htrace, congrArg Prod.fst hrun⟩
  · intro before e after hmade hcall
    rcases hheeds.before_outward hmade hcall with ⟨-, hchecked⟩ | hearlier
    · cases hchecked
    · exact hearlier
  · intro r hr
    obtain ⟨before, t, htrace, hnone, hended⟩ :=
      Issuance.endsChecked_issue (some backend) limit hash issuedAt s r hr
    have hunfired : signal.status ended = none := by
      rw [show ended = _ from congrArg Clocked.clock hended]
      exact hnone
    refine ⟨hcourse.unstopped_of_ok hr, ⟨before, htrace⟩, fun time hle => ?_⟩
    rw [← Option.not_isSome_iff_eq_none] at hunfired ⊢
    exact mt (Signal.isSome_status_mono hle) hunfired

-- A deadline passes while the index is asked, and nobody is asked after it.
example :
    let set : SignerSet := ⟨[.remote .zero 0], 1, by simp, by decide, by decide, by decide⟩
    let c : Conduct Unit := ⟨fun _ _ => (.error (.indexer ""), ()), fun _ _ _ => (.ok ⟨[]⟩, ()),
      fun _ _ => 100, fun _ _ => 0⟩
    let signal : Signal := ⟨false, none, some 250⟩
    let request := (Issuance.issue (some ⟨⟨"", 0⟩, .identity⟩) 1 .zero 0).run
    request.run (c.under (some set) signal) ⟨(), 0⟩ =
        (.error (.interrupted .deadlineExceeded), ⟨(), 250⟩) ∧
      (request.trace (c.under (some set) signal) ⟨(), 0⟩).map (·.call) =
        [.signers, .check, .query (.lookup .zero)] :=
  ⟨rfl, rfl⟩

end Conduct

end SoftConfirm
