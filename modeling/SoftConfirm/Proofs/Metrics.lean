import Mathlib.Algebra.BigOperators.Group.List.Basic
import Mathlib.Algebra.GroupWithZero.Nat
import SoftConfirm.Launch
import SoftConfirm.Node.Service
import SoftConfirm.Proofs.Requests

namespace SoftConfirm

-- Whether an attempt has failed in this way.
def FailureKind.isOf (kind : FailureKind) : Except IssueError Receipt → Bool
  | .ok _ => false
  | .error e => e.kind = kind

namespace Metrics

variable {m : Metrics} {outcomes : List (Except IssueError Receipt)}

theorem gauge_of_lt {n : Nat} (h : n < 2 ^ 63) : gauge n = n := by
  unfold gauge UInt64.size
  apply Int.bmod_eq_of_le <;> omega

-- What the gauges are after each update of the metrics.
section

variable (m)

theorem poolSize_setPoolSize (size : Nat) : (m.setPoolSize size).poolSize = gauge size := by
  simp only [setPoolSize]

theorem chainHead_setPoolSize (size : Nat) : (m.setPoolSize size).chainHead = m.chainHead := by
  unfold setPoolSize
  rfl

theorem chainHead_setHead (height : UInt64) :
    (m.setHead height).chainHead = gauge height.toNat := by
  simp only [setHead]

theorem poolSize_setSigners (active : Option SignerSet) :
    (m.setSigners active).poolSize = m.poolSize := by
  unfold setSigners
  rfl

theorem chainHead_setSigners (active : Option SignerSet) :
    (m.setSigners active).chainHead = m.chainHead := by
  unfold setSigners
  rfl

theorem poolSize_countAttempt (outcome : Except IssueError Receipt) :
    (m.countAttempt outcome).poolSize = m.poolSize := by
  unfold countAttempt
  cases outcome <;> rfl

theorem chainHead_countAttempt (outcome : Except IssueError Receipt) :
    (m.countAttempt outcome).chainHead = m.chainHead := by
  unfold countAttempt
  cases outcome <;> rfl

end

-- Metrics that have counted attempts with these outcomes.
structure Counts (m : Metrics) (outcomes : List (Except IssueError Receipt)) : Prop where
  samples : m.samples = outcomes.length
  issued : m.issued = outcomes.countP (·.isOk)
  failed : ∀ kind, m.failed kind = outcomes.countP kind.isOf
  notFound : m.notFound = m.failed .txNotFound

theorem Counts.countAttempt (h : m.Counts outcomes) (outcome : Except IssueError Receipt) :
    (m.countAttempt outcome).Counts (outcomes ++ [outcome]) := by
  obtain ⟨hsamples, hissued, hfailed, hnotFound⟩ := h
  cases outcome with
  | ok r =>
      constructor
      · simp [Metrics.countAttempt, hsamples]
      · simp [Metrics.countAttempt, hissued, Except.isOk, Except.toBool]
      · intro kind
        simp [Metrics.countAttempt, hfailed, FailureKind.isOf]
      · exact hnotFound
  | error e =>
      constructor
      · simp [Metrics.countAttempt, hsamples]
      · simp [Metrics.countAttempt, hissued, Except.isOk, Except.toBool]
      · intro kind
        by_cases hkind : e.kind = kind
        · simp [Metrics.countAttempt, hfailed, FailureKind.isOf, hkind]
        · simp [Metrics.countAttempt, hfailed, FailureKind.isOf, hkind, Ne.symm hkind]
      · by_cases hkind : e.kind = .txNotFound
        · simp [Metrics.countAttempt, hnotFound, hkind]
        · simp [Metrics.countAttempt, hnotFound, hkind, Ne.symm hkind]

-- The gauges are none of the counters' concern.
theorem Counts.setPoolSize (h : m.Counts outcomes) (size : Nat) :
    (m.setPoolSize size).Counts outcomes := by
  unfold Metrics.setPoolSize
  exact ⟨h.samples, h.issued, h.failed, h.notFound⟩

theorem Counts.setHead (h : m.Counts outcomes) (height : UInt64) :
    (m.setHead height).Counts outcomes := by
  unfold Metrics.setHead
  exact ⟨h.samples, h.issued, h.failed, h.notFound⟩

theorem counts_zero (active : Option SignerSet) : (zero.setSigners active).Counts [] := by
  unfold setSigners zero
  exact ⟨rfl, rfl, fun _ => rfl, rfl⟩

-- Every failure is of exactly one kind.
theorem sum_isOf (outcome : Except IssueError Receipt) :
    (FailureKind.all.map fun kind => if kind.isOf outcome then 1 else 0).sum =
      if outcome.isOk then 0 else 1 := by
  cases outcome with
  | ok r => rfl
  | error e =>
      have hkind : ∀ kind : FailureKind,
          (FailureKind.all.map fun other => if decide (kind = other) then 1 else 0).sum = 1 := by
        intro kind
        cases kind <;> rfl
      exact hkind e.kind

-- Every attempt is counted once, as a receipt or as a failure.
theorem Counts.issued_add_sum_failed (h : m.Counts outcomes) :
    m.issued + (FailureKind.all.map m.failed).sum = outcomes.length := by
  have hfailed : m.failed = fun kind => outcomes.countP kind.isOf := funext h.failed
  rw [h.issued, hfailed]
  clear h hfailed
  induction outcomes with
  | nil => rfl
  | cons outcome outcomes ih =>
      simp only [List.countP_cons, List.length_cons, List.sum_map_add, sum_isOf]
      cases outcome.isOk with
      | true =>
          simp only [if_true]
          omega
      | false =>
          simp only [Bool.false_eq_true, if_false]
          omega

end Metrics

namespace Node

variable {n : Node} {now : Timestamp} {request : Http.Request}
  {attempt : TxHash → Except IssueError Receipt}

-- A node before its first request and its first tick.
structure Fresh (n : Node) : Prop where
  chain : n.chain = .empty
  metrics : n.metrics = Metrics.zero.setSigners n.active

theorem fresh_of_prepare [SignatureScheme] {s : CommandLine.RunSettings} {fs : FileSystem}
    {logSetting : Option String} (h : s.prepare fs logSetting = .ok n) : n.Fresh := by
  obtain ⟨_, _, h⟩ := exists_of_bind_eq_ok h
  dsimp only at h
  split at h
  · obtain rfl := Except.ok.inj h
    exact ⟨rfl, rfl⟩
  · obtain rfl := Except.ok.inj h
    exact ⟨rfl, rfl⟩
  · exact absurd h nofun

-- A node serves its requests with what its own attempts come to.
theorem serve_eq_serveWith [SignatureScheme] (n : Node) (now : Timestamp)
    (request : Http.Request) :
    n.serve now request = n.serveWith now request fun hash => (n.issue hash now.seconds).1 := by
  unfold serve serveWith
  cases Api.route n now request with
  | reply response => rfl
  | submit raw response => rfl
  | attest hash render =>
      simp only [Api.perform, issue_eq]

-- What a request does to a node: it makes an attempt, hands in a transaction, or does nothing.
theorem step_request (n : Node) (now : Timestamp) (request : Http.Request)
    (attempt : TxHash → Except IssueError Receipt) :
    (request.receiptHash? = none ∧ n.step (.request now request attempt) = n) ∨
      (request.receiptHash? = none ∧ ∃ raw,
        n.step (.request now request attempt) = n.submit raw) ∨
      ∃ hash, request.receiptHash? = some hash ∧
        n.step (.request now request attempt) = n.countAttempt (attempt hash) := by
  have hasked := Api.asked?_route n now request
  have hstep : n.step (.request now request attempt) =
      (Api.perform id (fun hash n => (attempt hash, n)) (Api.route n now request) n).2 := rfl
  rw [hstep]
  cases hroute : Api.route n now request with
  | reply response =>
      rw [hroute] at hasked
      exact .inl ⟨hasked.symm, rfl⟩
  | submit raw response =>
      rw [hroute] at hasked
      exact .inr (.inl ⟨hasked.symm, raw, rfl⟩)
  | attest hash render =>
      rw [hroute] at hasked
      exact .inr (.inr ⟨hash, hasked.symm, rfl⟩)

theorem head_step_request (n : Node) :
    (n.step (.request now request attempt)).chain.head = n.chain.head := by
  obtain ⟨-, hstep⟩ | ⟨-, raw, hstep⟩ | ⟨hash, -, hstep⟩ :=
    n.step_request now request attempt
  · rw [hstep]
  · rw [hstep]
    rfl
  · rw [hstep]
    rfl

namespace Step

-- The hash of a request for a receipt, if it is one.
def hash? : Step → Option TxHash
  | .request _ request _ => request.receiptHash?
  | .tick => none

def outcome? : Step → Option (Except IssueError Receipt)
  | .request _ request attempt => request.receiptHash?.map attempt
  | .tick => none

theorem isSome_outcome? (s : Step) : s.outcome?.isSome = s.hash?.isSome := by
  cases s with
  | request now request attempt => exact Option.isSome_map
  | tick => rfl

end Step

-- Gauges that show the pool and the head as they are.
structure Gauged (n : Node) : Prop where
  poolSize : n.metrics.poolSize = Metrics.gauge n.chain.pool.length
  chainHead : n.metrics.chainHead = Metrics.gauge n.chain.head.toNat

theorem metrics_tick (n : Node) :
    n.tick.metrics =
      (n.metrics.setHead (n.chain.head + 1)).setPoolSize n.tick.chain.pool.length := rfl

theorem metrics_submit (n : Node) (raw : RawTx) :
    (n.submit raw).metrics = n.metrics.setPoolSize (n.submit raw).chain.pool.length := rfl

theorem metrics_countAttempt (n : Node) (outcome : Except IssueError Receipt) :
    (n.countAttempt outcome).metrics = n.metrics.countAttempt outcome := rfl

theorem Gauged.step (h : n.Gauged) (s : Step) : (n.step s).Gauged := by
  cases s with
  | tick =>
      have hhead : n.tick.chain.head = n.chain.head + 1 := n.chain.head_produceBlock n.decode
      rw [Node.step]
      constructor
      · rw [metrics_tick, Metrics.poolSize_setPoolSize]
      · rw [metrics_tick, Metrics.chainHead_setPoolSize, Metrics.chainHead_setHead, hhead]
  | request now request attempt =>
      obtain ⟨-, hstep⟩ | ⟨-, raw, hstep⟩ | ⟨hash, -, hstep⟩ :=
        n.step_request now request attempt
      · rwa [hstep]
      · rw [hstep]
        constructor
        · rw [metrics_submit, Metrics.poolSize_setPoolSize]
        · rw [metrics_submit, Metrics.chainHead_setPoolSize]
          exact h.chainHead
      · rw [hstep]
        constructor
        · rw [metrics_countAttempt, Metrics.poolSize_countAttempt]
          exact h.poolSize
        · rw [metrics_countAttempt, Metrics.chainHead_countAttempt]
          exact h.chainHead

-- Attempts are all that is counted.
theorem counts_step {outcomes : List (Except IssueError Receipt)} (h : n.metrics.Counts outcomes)
    (s : Step) : (n.step s).metrics.Counts (outcomes ++ s.outcome?.toList) := by
  cases s with
  | tick =>
      rw [step, metrics_tick, Step.outcome?, Option.toList_none, List.append_nil]
      exact (h.setHead _).setPoolSize _
  | request now request attempt =>
      obtain ⟨hnone, hstep⟩ | ⟨hnone, raw, hstep⟩ | ⟨hash, hhash, hstep⟩ :=
        n.step_request now request attempt
      · rw [hstep, Step.outcome?, hnone, Option.map_none, Option.toList_none, List.append_nil]
        exact h
      · rw [hstep, metrics_submit, Step.outcome?, hnone, Option.map_none, Option.toList_none,
          List.append_nil]
        exact h.setPoolSize _
      · rw [hstep, metrics_countAttempt, Step.outcome?, hhash, Option.map_some, Option.toList_some]
        exact h.countAttempt (attempt hash)

theorem afterSteps_concat (n : Node) (steps : List Step) (s : Step) :
    n.afterSteps (steps ++ [s]) = (n.afterSteps steps).step s := List.foldl_append

theorem Fresh.gauged_afterSteps (h : n.Fresh) (steps : List Step) :
    (n.afterSteps steps).Gauged := by
  induction steps using List.reverseRecOn with
  | nil =>
      have hzero : Metrics.gauge 0 = 0 := Metrics.gauge_of_lt (by decide)
      rw [afterSteps, List.foldl_nil]
      constructor
      · rw [h.metrics, h.chain, Metrics.poolSize_setSigners]
        exact hzero.symm
      · rw [h.metrics, h.chain, Metrics.chainHead_setSigners]
        exact hzero.symm
  | append_singleton steps s ih =>
      rw [afterSteps_concat]
      exact ih.step s

theorem Fresh.counts_afterSteps (h : n.Fresh) (steps : List Step) :
    (n.afterSteps steps).metrics.Counts (steps.filterMap Step.outcome?) := by
  induction steps using List.reverseRecOn with
  | nil =>
      rw [afterSteps, List.foldl_nil, h.metrics]
      exact Metrics.counts_zero n.active
  | append_singleton steps s ih =>
      have hlast : [s].filterMap Step.outcome? = s.outcome?.toList := by
        cases hs : s.outcome? <;> simp [hs]
      rw [afterSteps_concat, List.filterMap_append, hlast]
      exact counts_step ih s

-- How an attempt for a request is reported. Only the head is sent to who asks for no more.
theorem exists_response (n : Node) (attempt : TxHash → Except IssueError Receipt) {hash : TxHash}
    (h : request.receiptHash? = some hash) :
    ∃ response : Http.Response, (response = Api.receiptResponse (attempt hash) ∨
        ∃ id, response = .json 200 (Rpc.respond id (Api.receiptOutcome (attempt hash)))) ∧
      (n.serveWith now request attempt).1 =
        if request.method = "HEAD" then response.headOnly else response := by
  obtain ⟨render, hrender, hroute⟩ := Api.route_of_receiptHash? n now h
  refine ⟨render (attempt hash), ?_, ?_⟩
  · rcases hrender with rfl | ⟨id, rfl⟩
    · exact .inl rfl
    · exact .inr ⟨id, rfl⟩
  · rw [serveWith, hroute]
    split <;> rfl

-- However a node has served since its start, its metrics tell what has happened: how many
-- requests have asked for the receipt of a hash and what their attempts have come to, as their
-- responses say it, and how the chain is now.
theorem metrics_match_history (hfresh : n.Fresh) (steps : List Step) :
    let served := n.afterSteps steps
    let outcomes := steps.filterMap Step.outcome?
    served.metrics.issued + (FailureKind.all.map served.metrics.failed).sum =
        steps.countP (·.hash?.isSome) ∧
      served.metrics.samples = steps.countP (·.hash?.isSome) ∧
      served.metrics.issued = outcomes.countP (·.isOk) ∧
      (∀ kind, served.metrics.failed kind = outcomes.countP kind.isOf) ∧
      served.metrics.notFound = served.metrics.failed .txNotFound ∧
      (served.chain.pool.length < 2 ^ 63 → served.metrics.poolSize = served.chain.pool.length) ∧
      (served.chain.head.toNat < 2 ^ 63 → served.metrics.chainHead = served.chain.head.toNat) ∧
      ∀ before now request attempt rest hash,
        steps = before ++ .request now request attempt :: rest →
        request.receiptHash? = some hash →
        ∃ response : Http.Response, (response = Api.receiptResponse (attempt hash) ∨
            ∃ id, response = .json 200 (Rpc.respond id (Api.receiptOutcome (attempt hash)))) ∧
          ((n.afterSteps before).serveWith now request attempt).1 =
            if request.method = "HEAD" then response.headOnly else response := by
  intro served outcomes
  have hcounts : served.metrics.Counts outcomes := hfresh.counts_afterSteps steps
  have hgauged : served.Gauged := hfresh.gauged_afterSteps steps
  have hasked : outcomes.length = steps.countP (·.hash?.isSome) := by
    rw [List.length_filterMap_eq_countP]
    exact List.countP_congr fun s _ => by rw [s.isSome_outcome?]
  refine ⟨?_, ?_, hcounts.issued, hcounts.failed, hcounts.notFound, ?_, ?_, ?_⟩
  · rw [hcounts.issued_add_sum_failed, hasked]
  · rw [hcounts.samples, hasked]
  · intro hlt
    rw [hgauged.poolSize, Metrics.gauge_of_lt hlt]
  · intro hlt
    rw [hgauged.chainHead, Metrics.gauge_of_lt hlt]
  · intro before now request attempt rest hash _ hhash
    exact exists_response (n.afterSteps before) attempt hhash

-- A request for a transaction that nobody has heard of, and a block.
theorem metrics_match_history_unknown :
    let ask : Step := .request ⟨0, 0⟩ (askFor .zero) fun hash => .error (.txNotFound hash)
    let served := lone.recordSigners.afterSteps [ask, .tick]
    served.metrics.issued = 0 ∧ served.metrics.samples = 1 ∧
      served.metrics.failed .txNotFound = 1 ∧ served.metrics.notFound = 1 ∧
      served.metrics.poolSize = 0 ∧ served.metrics.chainHead = 1 := by
  intro ask served
  have hfresh : lone.recordSigners.Fresh := ⟨rfl, rfl⟩
  have hhash : (askFor .zero).receiptHash? = some .zero := by decide +kernel
  have hasked : [ask, .tick].countP (·.hash?.isSome) = 1 := by
    simp [ask, Step.hash?, hhash]
  have houtcomes : [ask, .tick].filterMap Step.outcome? = [.error (.txNotFound .zero)] := by
    simp [ask, Step.outcome?, hhash]
  have hchain (n : Node) (s : Step) : (n.afterSteps [s, .tick]).chain.pool = [] ∧
      (n.afterSteps [s, .tick]).chain.head = (n.step s).chain.head + 1 :=
    ⟨(n.step s).chain.pool_produceBlock _, (n.step s).chain.head_produceBlock _⟩
  obtain ⟨hpool, hhead⟩ := hchain lone.recordSigners ask
  rw [head_step_request, show lone.recordSigners.chain.head = 0 from rfl] at hhead
  obtain ⟨-, hsamples, hissued, hfailed, hnotFound, hsize, hheight, -⟩ :=
    metrics_match_history hfresh [ask, .tick]
  rw [houtcomes] at hissued hfailed
  have hunknown := hfailed .txNotFound
  refine ⟨hissued, hsamples.trans hasked, hunknown, hnotFound.trans hunknown, ?_, ?_⟩
  · exact (hsize (by simp [hpool])).trans (by simp [hpool])
  · exact (hheight (by simp [hhead])).trans (by simp [hhead])

end Node

end SoftConfirm
