import Mathlib.Data.List.Forall2
import SoftConfirm.Issuance

namespace SoftConfirm

variable {α β γ σ : Type} {admits : (call : Call) → call.Answer → Prop}

namespace Program

theorem bind_assoc (p : Program α) (f : α → Program β) (g : β → Program γ) :
    (p.bind f).bind g = p.bind fun value => (f value).bind g := by
  induction p with
  | done value => rfl
  | ask call next ih => exact congrArg (ask call) (funext ih)

theorem bind_done (p : Program α) : p.bind done = p := by
  induction p with
  | done value => rfl
  | ask call next ih => exact congrArg (ask call) (funext ih)

instance : LawfulMonad Program :=
  LawfulMonad.mk' Program bind_done (fun _ _ => rfl) bind_assoc

-- Whatever it is answered, as long as the answers are admitted, the program ends in a value with
-- `post`.
def Ensures (admits : (call : Call) → call.Answer → Prop) (post : α → Prop) : Program α → Prop
  | .done value => post value
  | .ask call next => ∀ a, admits call a → (next a).Ensures admits post

theorem Ensures.mono {post other : α → Prop} {p : Program α} (h : p.Ensures admits post)
    (himp : ∀ value, post value → other value) : p.Ensures admits other := by
  induction p with
  | done value => exact himp value h
  | ask call next ih => exact fun a ha => ih a (h a ha)

theorem Ensures.and {post other : α → Prop} {p : Program α} (h : p.Ensures admits post)
    (h' : p.Ensures admits other) :
    p.Ensures admits fun value => post value ∧ other value := by
  induction p with
  | done value => exact ⟨h, h'⟩
  | ask call next ih => exact fun a ha => ih a (h a ha) (h' a ha)

theorem ensures_bind {post : β → Prop} {p : Program α} {f : α → Program β} :
    (p.bind f).Ensures admits post ↔
      p.Ensures admits fun value => (f value).Ensures admits post := by
  induction p with
  | done value => exact Iff.rfl
  | ask call next ih => exact forall_congr' fun a => imp_congr_right fun _ => ih a

theorem ensures_of_forall {post : α → Prop} (h : ∀ value, post value) (p : Program α) :
    p.Ensures admits post := by
  induction p with
  | done value => exact h value
  | ask call next ih => exact fun a _ => ih a

theorem Ensures.run {post : α → Prop} {answer : Surroundings σ} {p : Program α}
    (hanswer : ∀ call s, admits call (answer call s).1) (h : p.Ensures admits post) (s : σ) :
    post (p.run answer s).1 := by
  induction p generalizing s with
  | done value => exact h
  | ask call next ih => exact ih _ (h _ (hanswer call s)) _

end Program

namespace Attempt

-- What an attempt that succeeds has come to. An attempt that fails is left alone.
def Ensures (admits : (call : Call) → call.Answer → Prop) (post : β → Prop)
    (attempt : Attempt β) : Prop :=
  attempt.run.Ensures admits fun outcome => ∀ value, outcome = .ok value → post value

theorem run_bind (attempt : Attempt β) (f : β → Attempt γ) :
    (attempt >>= f).run = attempt.run.bind fun outcome =>
      match outcome with
      | .ok value => (f value).run
      | .error e => .done (.error e) := by
  refine congrArg attempt.run.bind (funext fun outcome => ?_)
  cases outcome with
  | ok value => rfl
  | error e => rfl

theorem Ensures.bind {first : β → Prop} {post : γ → Prop} {attempt : Attempt β}
    {f : β → Attempt γ} (h : attempt.Ensures admits first)
    (hf : ∀ value, first value → (f value).Ensures admits post) :
    (attempt >>= f).Ensures admits post := by
  rw [Ensures, run_bind, Program.ensures_bind]
  refine Program.Ensures.mono h fun outcome hfirst => ?_
  cases outcome with
  | ok value => exact hf value (hfirst value rfl)
  | error e => exact fun value hv => absurd hv (by simp)

theorem ensures_of_forall {post : β → Prop} (h : ∀ value, post value) (attempt : Attempt β) :
    attempt.Ensures admits post :=
  Program.ensures_of_forall (fun _ value _ => h value) _

theorem ensures_pure {post : β → Prop} {value : β} (h : post value) :
    (pure value : Attempt β).Ensures admits post := by
  intro other hother
  obtain rfl := Except.ok.inj hother
  exact h

theorem ensures_throw {post : β → Prop} (e : IssueError) :
    (throw e : Attempt β).Ensures admits post :=
  fun _ h => absurd h (by simp)

theorem ensures_ask {post : β → Prop} {call : Call} {next : call.Answer → Attempt β}
    (h : ∀ a, admits call a → (next a).Ensures admits post) :
    (Issuance.ask call >>= next).Ensures admits post :=
  h

-- An attempt for each item: what each comes to is paired with the item.
theorem ensures_mapM {rel : α → β → Prop} {f : α → Attempt β}
    (h : ∀ item, (f item).Ensures admits (rel item)) (items : List α) :
    (items.mapM f).Ensures admits (List.Forall₂ rel items) := by
  induction items with
  | nil => exact ensures_pure List.Forall₂.nil
  | cons item items ih =>
      rw [List.mapM_cons]
      refine (h item).bind fun value hvalue => ih.bind fun values hvalues => ?_
      exact ensures_pure (List.Forall₂.cons hvalue hvalues)

-- What an attempt may fail with. An attempt that succeeds is left alone.
def FailsWith (admits : (call : Call) → call.Answer → Prop) (post : IssueError → Prop)
    (attempt : Attempt β) : Prop :=
  attempt.run.Ensures admits fun outcome => ∀ e, outcome = .error e → post e

section

variable {post : IssueError → Prop}

theorem FailsWith.bind {first : β → Prop} {attempt : Attempt β} {f : β → Attempt γ}
    (hfails : attempt.FailsWith admits post) (h : attempt.Ensures admits first)
    (hf : ∀ value, first value → (f value).FailsWith admits post) :
    (attempt >>= f).FailsWith admits post := by
  rw [FailsWith, run_bind, Program.ensures_bind]
  refine Program.Ensures.mono (hfails.and h) fun outcome houtcome => ?_
  cases outcome with
  | ok value => exact hf value (houtcome.2 value rfl)
  | error e =>
      rintro other hother
      obtain rfl := Except.error.inj hother
      exact houtcome.1 e rfl

-- Most steps may come to anything without a later step failing in another way.
theorem FailsWith.bind_all {attempt : Attempt β} {f : β → Attempt γ}
    (hfails : attempt.FailsWith admits post) (hf : ∀ value, (f value).FailsWith admits post) :
    (attempt >>= f).FailsWith admits post :=
  hfails.bind (ensures_of_forall (fun _ => trivial) attempt) fun value _ => hf value

theorem failsWith_pure (value : β) : (pure value : Attempt β).FailsWith admits post :=
  fun _ h => absurd h nofun

theorem failsWith_throw {e : IssueError} (h : post e) :
    (throw e : Attempt β).FailsWith admits post := by
  intro other hother
  obtain rfl := Except.error.inj hother
  exact h

theorem failsWith_ask {call : Call} {next : call.Answer → Attempt β}
    (h : ∀ a, (next a).FailsWith admits post) :
    (Issuance.ask call >>= next).FailsWith admits post :=
  fun a _ => h a

theorem failsWith_mapM {f : α → Attempt β} (h : ∀ item, (f item).FailsWith admits post)
    (items : List α) : (items.mapM f).FailsWith admits post := by
  induction items with
  | nil => exact failsWith_pure []
  | cons item items ih =>
      rw [List.mapM_cons]
      exact (h item).bind_all fun value => ih.bind_all fun values => failsWith_pure _

end

end Attempt

namespace Issuance

variable {digest : Digest}

-- An entry under a signer's own address with a signature that the signer may give.
structure SignedBy (admits : (call : Call) → call.Answer → Prop) (digest : Digest)
    (signer : Signer) (entry : Entry) : Prop where
  address : entry.signer = signer.address
  signature : admits (.sign signer digest) (.ok entry.signature)

-- A receipt that one set has issued, signed by its signers in their order.
structure IssuedBy (admits : (call : Call) → call.Answer → Prop) (set : SignerSet)
    (r : Receipt) : Prop where
  digest : r.digest = r.payload.digest
  threshold : r.threshold = set.threshold
  entries : List.Forall₂ (SignedBy admits r.digest) set.signers r.entries

theorem addresses_eq_of_signedBy {signers : List Signer} {entries : List Entry}
    (h : List.Forall₂ (SignedBy admits digest) signers entries) :
    entries.map (·.signer) = signers.map Signer.address := by
  induction h with
  | nil => rfl
  | cons hsigned _ ih => rw [List.map_cons, List.map_cons, hsigned.address, ih]

theorem IssuedBy.signers_eq {set : SignerSet} {r : Receipt} (h : IssuedBy admits set r) :
    r.signers = set.addresses :=
  addresses_eq_of_signedBy h.entries

theorem ensures_signWith (signer : Signer) :
    (signWith digest signer).Ensures admits (SignedBy admits digest signer) := by
  refine (Attempt.ensures_of_forall (fun _ => trivial) check).bind fun _ _ => ?_
  refine Attempt.ensures_ask fun answer hanswer => ?_
  cases answer with
  | ok signature => exact Attempt.ensures_pure ⟨rfl, hanswer⟩
  | error cause => exact Attempt.ensures_throw _

-- What is left of issuing once the signer set has been taken.
def issueFrom (active : Option SignerSet) (backend : Option Backend) (limit : UInt64)
    (hash : TxHash) (issuedAt : UInt64) : Attempt Receipt :=
  match active, backend with
  | none, _ => throw .disabled
  | some _, none => throw .backendMissing
  | some set, some backend => do
      let found ← resolve backend.decode limit hash
      check
      let payload := payload backend.context hash found issuedAt
      let entries ← set.signers.mapM (signWith payload.digest)
      check
      match Receipt.ofEntries payload payload.digest entries set.threshold with
      | .ok receipt => return receipt
      | .error _ => throw (.config .emptySignerSet)

theorem issue_eq (backend : Option Backend) (limit : UInt64) (hash : TxHash) (issuedAt : UInt64) :
    issue backend limit hash issuedAt =
      (ask .signers >>= fun active => issueFrom active backend limit hash issuedAt) := rfl

-- What is left of issuing once the transaction has been found.
def confirm (set : SignerSet) (payload : Payload) : Attempt Receipt := do
  check
  let entries ← set.signers.mapM (signWith payload.digest)
  check
  match Receipt.ofEntries payload payload.digest entries set.threshold with
  | .ok receipt => return receipt
  | .error _ => throw (.config .emptySignerSet)

theorem issueFrom_some (set : SignerSet) (backend : Backend) (limit : UInt64) (hash : TxHash)
    (issuedAt : UInt64) :
    issueFrom (some set) (some backend) limit hash issuedAt =
      (resolve backend.decode limit hash >>= fun found =>
        confirm set (payload backend.context hash found issuedAt)) := rfl

theorem ensures_confirm (set : SignerSet) (payload : Payload) :
    (confirm set payload).Ensures admits fun r => r.payload = payload ∧ IssuedBy admits set r := by
  refine (Attempt.ensures_of_forall (fun _ => trivial) check).bind fun _ _ => ?_
  refine (Attempt.ensures_mapM ensures_signWith _).bind fun entries hentries => ?_
  refine (Attempt.ensures_of_forall (fun _ => trivial) check).bind fun _ _ => ?_
  cases entries with
  | nil => exact Attempt.ensures_throw _
  | cons primary others => exact Attempt.ensures_pure ⟨rfl, rfl, rfl, hentries⟩

theorem ensures_issueFrom (set : SignerSet) (backend : Option Backend) (limit : UInt64)
    (hash : TxHash) (issuedAt : UInt64) :
    (issueFrom (some set) backend limit hash issuedAt).Ensures admits (IssuedBy admits set) := by
  cases backend with
  | none => exact Attempt.ensures_throw _
  | some backend =>
      rw [issueFrom_some]
      refine (Attempt.ensures_of_forall (fun _ => trivial) _).bind fun found _ => ?_
      exact Program.Ensures.mono (ensures_confirm set _) fun _ h r hr => (h r hr).2

theorem ensures_issue (backend : Option Backend) (limit : UInt64) (hash : TxHash)
    (issuedAt : UInt64) :
    (issue backend limit hash issuedAt).Ensures admits fun r => ∃ set, IssuedBy admits set r := by
  rw [issue_eq]
  refine Attempt.ensures_ask fun active _ => ?_
  cases active with
  | none => exact Attempt.ensures_throw _
  | some set =>
      exact Program.Ensures.mono (ensures_issueFrom set backend limit hash issuedAt)
        fun _ h r hr => ⟨set, h r hr⟩

-- An error that is no fault of the configuration.
def NotConfig (e : IssueError) : Prop := ∀ cause, e ≠ .config cause

theorem failsWith_check : check.FailsWith admits NotConfig := by
  refine Attempt.failsWith_ask fun stop => ?_
  cases stop with
  | none => exact Attempt.failsWith_pure ()
  | some cause => exact Attempt.failsWith_throw nofun

theorem failsWith_query (q : Query) : (query q).FailsWith admits NotConfig := by
  refine failsWith_check.bind_all fun _ => Attempt.failsWith_ask fun answer => ?_
  match answer with
  | .ok (.ok value) => exact Attempt.failsWith_pure value
  | .ok (.error cause) => exact Attempt.failsWith_throw nofun
  | .error cause => exact Attempt.failsWith_throw nofun

theorem failsWith_resolve (decode : Decoder) (limit : UInt64) (hash : TxHash) :
    (resolve decode limit hash).FailsWith admits NotConfig := by
  refine (failsWith_query _).bind_all fun found => ?_
  split
  · exact Attempt.failsWith_pure _
  · refine (failsWith_query _).bind_all fun raws => ?_
    split
    · exact (failsWith_query _).bind_all fun head => Attempt.failsWith_pure _
    · refine (failsWith_query _).bind_all fun again => ?_
      split
      · exact Attempt.failsWith_pure _
      · exact Attempt.failsWith_throw nofun

theorem failsWith_signWith (signer : Signer) :
    (signWith digest signer).FailsWith admits NotConfig := by
  refine failsWith_check.bind_all fun _ => Attempt.failsWith_ask fun answer => ?_
  cases answer with
  | ok signature => exact Attempt.failsWith_pure _
  | error cause => exact Attempt.failsWith_throw nofun

-- A set has a signer, so there is always an entry to begin a receipt with.
theorem failsWith_confirm (set : SignerSet) (payload : Payload) :
    (confirm set payload).FailsWith admits NotConfig := by
  refine failsWith_check.bind_all fun _ => ?_
  refine (Attempt.failsWith_mapM failsWith_signWith _).bind
    (Attempt.ensures_mapM ensures_signWith _) fun entries hentries => ?_
  refine failsWith_check.bind_all fun _ => ?_
  cases entries with
  | nil => exact absurd (List.forall₂_nil_right_iff.mp hentries) set.signers_ne_nil
  | cons primary others => exact Attempt.failsWith_pure _

theorem failsWith_issue (backend : Option Backend) (limit : UInt64) (hash : TxHash)
    (issuedAt : UInt64) : (issue backend limit hash issuedAt).FailsWith admits NotConfig := by
  rw [issue_eq]
  refine Attempt.failsWith_ask fun active => ?_
  match active, backend with
  | none, _ => exact Attempt.failsWith_throw nofun
  | some _, none => exact Attempt.failsWith_throw nofun
  | some set, some backend =>
      exact (failsWith_resolve _ _ _).bind_all fun found => failsWith_confirm set _

-- The simplest surroundings: everything is in the first block, nobody interrupts, and devices sign
-- with no bytes at all.
def settled (active : Option SignerSet) : Surroundings Unit := fun call _ =>
  match call with
  | .signers => (active, ())
  | .check => (none, ())
  | .query (.lookup _) => (.ok (.ok (some (1 : UInt64))), ())
  | .query (.pending _) => (.ok (.ok ([] : List RawTx)), ())
  | .query .head => (.ok (.ok (1 : UInt64)), ())
  | .sign _ _ => (.ok ⟨[]⟩, ())

end Issuance

end SoftConfirm
