import Mathlib.Algebra.Group.Nat.Defs
import SoftConfirm.Proofs.Stopping

namespace SoftConfirm

variable {α β σ ω : Type}

-- What a collaborator was asked, and what it answered.
structure Inquiry where
  query : Query
  answer : Except BackendError query.Value

-- An answer that was heard. What was interrupted has none.
def Exchange.inquiry? : Exchange → Option Inquiry
  | ⟨.query q, .ok answer⟩ => some ⟨q, answer⟩
  | _ => none

def Call.query? : Call → Option Query
  | .query q => some q
  | .signers | .check | .sign _ _ => none

namespace Issuance

-- Whether one of the first `limit` transactions of a listing has a hash. A transaction that has
-- none takes a place among them all the same.
def Shows (decode : Decoder) (limit : UInt64) (hash : TxHash) (raws : List RawTx) : Prop :=
  ∃ i raw, i < limit.toNat ∧ raws[i]? = some raw ∧ decode raw = .ok hash

section

variable (decode : Decoder) (limit : UInt64) (hash : TxHash)

-- All that a resolver asks, what it is answered, and what it makes of the answers.
inductive Resolves : List Inquiry → Except IssueError Resolution → Prop
  | indexed (height : UInt64) :
      Resolves [⟨.lookup hash, .ok (some height)⟩] (.ok ⟨.included, height⟩)
  | indexFails (cause : BackendError) :
      Resolves [⟨.lookup hash, .error cause⟩] (.error (.backendUnavailable cause))
  | poolFails (cause : BackendError) :
      Resolves [⟨.lookup hash, .ok none⟩, ⟨.pending limit, .error cause⟩]
        (.error (.backendUnavailable cause))
  | waiting {raws : List RawTx} (shown : Shows decode limit hash raws) {head target : UInt64}
      (above : target.toNat = min (head.toNat + 1) (2 ^ 64 - 1)) :
      Resolves [⟨.lookup hash, .ok none⟩, ⟨.pending limit, .ok raws⟩, ⟨.head, .ok head⟩]
        (.ok ⟨.pending, target⟩)
  | headFails {raws : List RawTx} (shown : Shows decode limit hash raws) (cause : BackendError) :
      Resolves [⟨.lookup hash, .ok none⟩, ⟨.pending limit, .ok raws⟩, ⟨.head, .error cause⟩]
        (.error (.backendUnavailable cause))
  | indexedSince {raws : List RawTx} (absent : ¬ Shows decode limit hash raws) (height : UInt64) :
      Resolves [⟨.lookup hash, .ok none⟩, ⟨.pending limit, .ok raws⟩,
        ⟨.lookup hash, .ok (some height)⟩] (.ok ⟨.included, height⟩)
  | unknown {raws : List RawTx} (absent : ¬ Shows decode limit hash raws) :
      Resolves [⟨.lookup hash, .ok none⟩, ⟨.pending limit, .ok raws⟩, ⟨.lookup hash, .ok none⟩]
        (.error (.txNotFound hash))
  | indexFailsAgain {raws : List RawTx} (absent : ¬ Shows decode limit hash raws)
      (cause : BackendError) :
      Resolves [⟨.lookup hash, .ok none⟩, ⟨.pending limit, .ok raws⟩,
        ⟨.lookup hash, .error cause⟩] (.error (.backendUnavailable cause))

end

variable {decode : Decoder} {limit : UInt64} {hash : TxHash}

-- The answers leave a resolver no choice.
theorem Resolves.unique {asked : List Inquiry} {outcome other : Except IssueError Resolution}
    (h : Resolves decode limit hash asked outcome) (h' : Resolves decode limit hash asked other) :
    outcome = other := by
  cases h with
  | waiting shown above =>
      cases h' with
      | waiting _ above' =>
          have htarget := UInt64.toNat_inj.mp (above.trans above'.symm)
          rw [htarget]
  | indexed | indexFails | poolFails =>
      cases h'
      rfl
  | headFails shown =>
      cases h'
      rfl
  | indexedSince | unknown | indexFailsAgain =>
      cases h'
      rfl

theorem shows_iff {raws : List RawTx} :
    Shows decode limit hash raws ↔ (raws.take limit.toNat).any (names decode hash) = true := by
  rw [List.any_eq_true]
  constructor
  · rintro ⟨i, raw, hi, hraw, hhash⟩
    refine ⟨raw, List.mem_of_getElem? (i := i) ?_, ?_⟩
    · rwa [List.getElem?_take_of_lt hi]
    · simp [names, hhash]
  · rintro ⟨raw, hmem, hnames⟩
    obtain ⟨i, hi, rfl⟩ := List.mem_take_iff_getElem.mp hmem
    refine ⟨i, raws[i], by omega, List.getElem?_eq_getElem _, ?_⟩
    unfold names at hnames
    split at hnames
    · rename_i found hfound
      rw [hfound, eq_of_beq hnames]
    · contradiction

theorem toNat_nextHeight (head : UInt64) :
    (nextHeight head).toNat = min (head.toNat + 1) (2 ^ 64 - 1) := by
  have hlt := head.toNat_lt
  have hsize : UInt64.size = 2 ^ 64 := rfl
  unfold nextHeight
  split
  · rw [UInt64.toNat_add, UInt64.toNat_one]
    omega
  · omega

-- The two ends of a resolution: to aim at the next block, or to look into the index once more.
def aim : Attempt Resolution := do
  let head : UInt64 ← query .head
  return ⟨.pending, nextHeight head⟩

def lookAgain (hash : TxHash) : Attempt Resolution := do
  match ← query (.lookup hash) with
  | some height => return ⟨.included, height⟩
  | none => throw (.txNotFound hash)

-- What is left of a resolution when the index has no record.
def search (decode : Decoder) (limit : UInt64) (hash : TxHash) : Attempt Resolution := do
  let raws : List RawTx ← query (.pending limit)
  if (raws.take limit.toNat).any (names decode hash) then aim else lookAgain hash

-- A query as the calls that it takes.
theorem run_query_bind (q : Query) (next : q.Value → Attempt α) :
    (query q >>= next).run = .ask .check fun stop =>
      match stop with
      | some cause => .done (.error (.interrupted cause))
      | none => .ask (.query q) fun answer =>
          match answer with
          | .error cause => .done (.error (.interrupted cause))
          | .ok (.error cause) => .done (.error (.backendUnavailable cause))
          | .ok (.ok value) => (next value).run := by
  refine congrArg (Program.ask .check) (funext fun stop => ?_)
  cases stop with
  | some cause => rfl
  | none =>
      refine congrArg (Program.ask (.query q)) (funext fun answer => ?_)
      rcases answer with cause | cause | value
      · rfl
      · rfl
      · rfl

end Issuance

namespace Conduct

variable {c : Conduct ω} {active : Option SignerSet}

-- What an attempt asks of the collaborators when nothing interrupts it, and what it comes to.
def account (c : Conduct ω) (active : Option SignerSet) (attempt : Attempt α) (s : Clocked ω) :
    List Inquiry × Except IssueError α :=
  ((attempt.run.trace (c.under active .never) s).filterMap Exchange.inquiry?,
    (attempt.run.run (c.under active .never) s).1)

-- Where a query that nothing interrupts leaves things.
def afterQuery (c : Conduct ω) (q : Query) (s : Clocked ω) : Clocked ω :=
  let checked := s.clock + c.pace .check s.world
  ⟨(c.query q s.world).2, checked + c.pace (.query q) s.world⟩

theorem under_check (s : Clocked ω) :
    c.under active .never .check s = (none, ⟨s.world, s.clock + c.pace .check s.world⟩) := rfl

theorem under_query (q : Query) (s : Clocked ω) :
    c.under active .never (.query q) s =
      (.ok (c.query q s.world).1,
        ⟨(c.query q s.world).2, s.clock + c.pace (.query q) s.world⟩) := rfl

-- A query is the first thing that is asked, and if it fails it is the last.
theorem account_query_bind (q : Query) (next : q.Value → Attempt α) (s : Clocked ω) :
    c.account active (Issuance.query q >>= next) s =
      match (c.query q s.world).1 with
      | .error cause => ([⟨q, .error cause⟩], .error (.backendUnavailable cause))
      | .ok value =>
          let rest := c.account active (next value) (c.afterQuery q s)
          (⟨q, .ok value⟩ :: rest.1, rest.2) := by
  unfold account
  rw [Issuance.run_query_bind]
  simp only [Program.trace, Program.run_ask, under_check, under_query]
  cases (c.query q s.world).1 with
  | error cause => rfl
  | ok value => rfl

section

variable (s : Clocked ω)

theorem account_aim :
    c.account active Issuance.aim s =
      ([⟨.head, (c.query .head s.world).1⟩],
        match (c.query .head s.world).1 with
        | .error cause => .error (.backendUnavailable cause)
        | .ok head => .ok ⟨.pending, Issuance.nextHeight head⟩) := by
  have hquery : c.account active Issuance.aim s = _ := account_query_bind .head _ s
  rw [hquery]
  cases (c.query .head s.world).1 with
  | error cause => rfl
  | ok head => rfl

theorem account_lookAgain (hash : TxHash) :
    c.account active (Issuance.lookAgain hash) s =
      ([⟨.lookup hash, (c.query (.lookup hash) s.world).1⟩],
        match (c.query (.lookup hash) s.world).1 with
        | .error cause => .error (.backendUnavailable cause)
        | .ok (some height) => .ok ⟨.included, height⟩
        | .ok none => .error (.txNotFound hash)) := by
  have hquery : c.account active (Issuance.lookAgain hash) s = _ :=
    account_query_bind (.lookup hash) _ s
  rw [hquery]
  rcases (c.query (.lookup hash) s.world).1 with cause | _ | height
  · rfl
  · rfl
  · rfl

theorem account_search (decode : Decoder) (limit : UInt64) (hash : TxHash) :
    c.account active (Issuance.search decode limit hash) s =
      match (c.query (.pending limit) s.world).1 with
      | .error cause => ([⟨.pending limit, .error cause⟩], .error (.backendUnavailable cause))
      | .ok (raws : List RawTx) =>
          let rest := c.account active
            (if (raws.take limit.toNat).any (Issuance.names decode hash) then Issuance.aim
              else Issuance.lookAgain hash) (c.afterQuery (.pending limit) s)
          (⟨.pending limit, .ok raws⟩ :: rest.1, rest.2) := by
  have hquery : c.account active (Issuance.search decode limit hash) s = _ :=
    account_query_bind (.pending limit) _ s
  rw [hquery]
  cases (c.query (.pending limit) s.world).1 with
  | error cause => rfl
  | ok raws => rfl

theorem account_resolve (decode : Decoder) (limit : UInt64) (hash : TxHash) :
    c.account active (Issuance.resolve decode limit hash) s =
      match (c.query (.lookup hash) s.world).1 with
      | .error cause => ([⟨.lookup hash, .error cause⟩], .error (.backendUnavailable cause))
      | .ok (some height) => ([⟨.lookup hash, .ok (some height)⟩], .ok ⟨.included, height⟩)
      | .ok none =>
          let rest := c.account active (Issuance.search decode limit hash)
            (c.afterQuery (.lookup hash) s)
          (⟨.lookup hash, .ok none⟩ :: rest.1, rest.2) := by
  have hquery : c.account active (Issuance.resolve decode limit hash) s = _ :=
    account_query_bind (.lookup hash) _ s
  rw [hquery]
  rcases (c.query (.lookup hash) s.world).1 with cause | _ | height
  · rfl
  · rfl
  · rfl

-- Whatever the collaborators answer, a resolver keeps to the rules.
theorem resolves_account (decode : Decoder) (limit : UInt64) (hash : TxHash) :
    Issuance.Resolves decode limit hash
      (c.account active (Issuance.resolve decode limit hash) s).1
      (c.account active (Issuance.resolve decode limit hash) s).2 := by
  rw [account_resolve]
  rcases (c.query (.lookup hash) s.world).1 with cause | _ | height
  · exact .indexFails cause
  · dsimp only
    rw [account_search]
    cases (c.query (.pending limit) (c.afterQuery (.lookup hash) s).world).1 with
    | error cause => exact .poolFails cause
    | ok raws =>
        dsimp only
        split
        · rename_i hnames
          have hshown : Issuance.Shows decode limit hash raws := Issuance.shows_iff.mpr hnames
          rw [account_aim]
          generalize (c.query .head _).1 = answer
          cases answer with
          | error cause => exact .headFails hshown cause
          | ok head => exact .waiting hshown (Issuance.toNat_nextHeight head)
        · rename_i hnames
          have habsent : ¬ Issuance.Shows decode limit hash raws := mt Issuance.shows_iff.mp hnames
          rw [account_lookAgain]
          generalize (c.query (.lookup hash) _).1 = answer
          rcases answer with cause | _ | height
          · exact .indexFailsAgain habsent cause
          · exact .unknown habsent
          · exact .indexedSince habsent height
  · exact .indexed height

end

-- Nothing is told of a signal that never fires, so every query is heard.
theorem inquiries_of_never {p : Program α} (s : Clocked ω) :
    ((p.trace (c.under active .never) s).filterMap Exchange.inquiry?).map (·.query) =
      (p.trace (c.under active .never) s).filterMap (·.call.query?) := by
  induction p generalizing s with
  | done value => rfl
  | ask call next ih =>
      rw [Program.trace]
      cases call with
      | query q =>
          rw [under_query, List.filterMap_cons, List.filterMap_cons]
          exact congrArg (q :: ·) (ih _ _)
      | signers | check | sign signer digest => exact ih _ _

-- The part of a listing that counts.
def front (limit : UInt64) (answer : Except BackendError (List RawTx)) :
    Except BackendError (List RawTx) :=
  answer.map (List.take limit.toNat)

-- Collaborators that answer alike, but for what a listing holds beyond its first entries.
structure Agree (limit : UInt64) (c d : Conduct ω) : Prop where
  index : ∀ hash world, d.query (.lookup hash) world = c.query (.lookup hash) world
  head : ∀ world, d.query .head world = c.query .head world
  pool : ∀ world, (d.query (.pending limit) world).2 = (c.query (.pending limit) world).2
  listed : ∀ world, front limit (d.query (.pending limit) world).1 =
    front limit (c.query (.pending limit) world).1

section

variable {d : Conduct ω} {s t : Clocked ω} {limit : UInt64}

theorem Agree.account_aim (h : c.Agree limit d) (hworld : t.world = s.world) :
    d.account active Issuance.aim t = c.account active Issuance.aim s := by
  rw [Conduct.account_aim, Conduct.account_aim, hworld, h.head]

theorem Agree.account_lookAgain (h : c.Agree limit d) (hworld : t.world = s.world)
    (hash : TxHash) :
    d.account active (Issuance.lookAgain hash) t =
      c.account active (Issuance.lookAgain hash) s := by
  rw [Conduct.account_lookAgain, Conduct.account_lookAgain, hworld, h.index]

-- A longer listing changes nothing, neither the outcome nor what is asked.
theorem Agree.account_search (h : c.Agree limit d) (hworld : t.world = s.world)
    (active : Option SignerSet) (decode : Decoder) (hash : TxHash) :
    let account := c.account active (Issuance.search decode limit hash) s
    let other := d.account active (Issuance.search decode limit hash) t
    other.2 = account.2 ∧ other.1.map (·.query) = account.1.map (·.query) := by
  have hlisted := h.listed s.world
  have hworlds : (d.afterQuery (.pending limit) t).world =
      (c.afterQuery (.pending limit) s).world := by
    unfold afterQuery
    rw [hworld]
    exact h.pool s.world
  intro account other
  unfold account other
  rw [Conduct.account_search, Conduct.account_search, hworld]
  revert hlisted
  generalize (c.query (.pending limit) s.world).1 = answer
  generalize (d.query (.pending limit) s.world).1 = longer
  intro hlisted
  rcases answer with cause | raws <;> rcases longer with cause' | raws'
  · obtain rfl := Except.error.inj hlisted
    exact ⟨rfl, rfl⟩
  · exact absurd hlisted nofun
  · exact absurd hlisted nofun
  · have htake : List.take limit.toNat raws' = List.take limit.toNat raws := Except.ok.inj hlisted
    dsimp only
    rw [htake]
    split
    · rw [h.account_aim hworlds]
      exact ⟨rfl, rfl⟩
    · rw [h.account_lookAgain hworlds]
      exact ⟨rfl, rfl⟩

theorem Agree.account_resolve (h : c.Agree limit d) (hworld : t.world = s.world)
    (active : Option SignerSet) (decode : Decoder) (hash : TxHash) :
    let account := c.account active (Issuance.resolve decode limit hash) s
    let other := d.account active (Issuance.resolve decode limit hash) t
    other.2 = account.2 ∧ other.1.map (·.query) = account.1.map (·.query) := by
  have hworlds : (d.afterQuery (.lookup hash) t).world =
      (c.afterQuery (.lookup hash) s).world := by
    unfold afterQuery
    rw [hworld, h.index]
  obtain ⟨houtcome, hqueries⟩ := h.account_search hworlds active decode hash
  intro account other
  unfold account other
  rw [Conduct.account_resolve, Conduct.account_resolve, hworld, h.index]
  rcases (c.query (.lookup hash) s.world).1 with cause | _ | height
  · exact ⟨rfl, rfl⟩
  · exact ⟨houtcome, congrArg (Query.lookup hash :: ·) hqueries⟩
  · exact ⟨rfl, rfl⟩

end

-- A resolver asks and concludes what its rules say, for every behaviour of the collaborators, and
-- a pool that lists more than it was asked for makes no difference to it.
theorem resolve_matches_answers (c : Conduct ω) (active : Option SignerSet) (decode : Decoder)
    (limit : UInt64) (hash : TxHash) (s : Clocked ω) :
    let resolve := Issuance.resolve decode limit hash
    let made := resolve.run.trace (c.under active .never) s
    let outcome := (resolve.run.run (c.under active .never) s).1
    let asked := made.filterMap Exchange.inquiry?
    made.filterMap (·.call.query?) = asked.map (·.query) ∧
      (∀ other, Issuance.Resolves decode limit hash asked other ↔ other = outcome) ∧
      ∀ (d : Conduct ω) (t : Clocked ω), c.Agree limit d → t.world = s.world →
        (resolve.run.run (d.under active .never) t).1 = outcome ∧
          (resolve.run.trace (d.under active .never) t).filterMap (·.call.query?) =
            asked.map (·.query) := by
  intro resolve made outcome asked
  have hresolves : Issuance.Resolves decode limit hash asked outcome :=
    resolves_account s decode limit hash
  refine ⟨(inquiries_of_never s).symm, fun other => ?_, fun d t hagree hworld => ?_⟩
  · constructor
    · intro hother
      exact hother.unique hresolves
    · rintro rfl
      exact hresolves
  · obtain ⟨houtcome, hqueries⟩ := hagree.account_resolve hworld active decode hash
    exact ⟨houtcome, (inquiries_of_never t).symm.trans hqueries⟩

-- Collaborators that have no record, list the same whatever the limit, and are at height seven.
def listing (raws : List RawTx) : Conduct Unit where
  query q _ :=
    match q with
    | .lookup _ => (.ok none, ())
    | .pending _ => (.ok raws, ())
    | .head => (.ok (7 : UInt64), ())
  sign _ _ _ := (.ok ⟨[]⟩, ())
  pace _ _ := 0
  lag _ _ := 0

-- An entry without a hash takes the only place that is looked at, so what is listed behind it is
-- not found, and could as well be missing.
theorem resolve_matches_answers_overdelivered :
    let nameless : RawTx := []
    let c := listing [nameless]
    let d := listing [nameless, (Identifier.zero : TxHash).bytes]
    let resolve := (Issuance.resolve .identity 1 .zero).run
    c.Agree 1 d ∧ (resolve.run (d.under none .never) ⟨(), 0⟩).1 = .error (.txNotFound .zero) ∧
      (resolve.trace (d.under none .never) ⟨(), 0⟩).filterMap (·.call.query?) =
        [.lookup .zero, .pending 1, .lookup .zero] := by
  intro nameless c d resolve
  have hagree : c.Agree 1 d := ⟨fun _ _ => rfl, fun _ => rfl, fun _ => rfl, fun _ => rfl⟩
  obtain ⟨-, -, hoverdelivers⟩ := resolve_matches_answers c none .identity 1 .zero ⟨(), 0⟩
  obtain ⟨houtcome, hqueries⟩ := hoverdelivers d ⟨(), 0⟩ hagree rfl
  exact ⟨hagree, houtcome, hqueries⟩

end Conduct

end SoftConfirm
