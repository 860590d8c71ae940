import SoftConfirm.Node.Service
import SoftConfirm.Proofs.ActiveSet
import SoftConfirm.Proofs.Attempts
import SoftConfirm.Proofs.Requests

namespace SoftConfirm

-- A call that is refused for its form, before anything is done about it.
inductive Rpc.Request.Refused (decode : Decoder) (call : Rpc.Request) : Prop where
  | wrongVersion (hversion : call.version ≠ "2.0")
  | unknownMethod (hmethod : call.method ∉
      ["ynx_preconfirmTx", "ynx_sendRawTransaction", "ynx_blockNumber", "ynx_signers"])
  | badHash (hmethod : call.method = "ynx_preconfirmTx")
      (hparams : ∀ text, firstText? call.params = some text →
        ∀ hash : TxHash, Identifier.ofHex text ≠ .ok hash)
  | badTransaction (hmethod : call.method = "ynx_sendRawTransaction")
      (hparams : ∀ text, firstText? call.params = some text →
        ∀ handedIn, Api.rawTx decode text ≠ .ok handedIn)

namespace Http.Request

-- A call that hands in a transaction, and is answered with a result.
def Submits (request : Http.Request) (response : Http.Response) : Prop :=
  ∃ call result, request.Calls call ∧ call.version = "2.0" ∧
    call.method = "ynx_sendRawTransaction" ∧ response = .json 200 (Rpc.respond call.id (.ok result))

-- A request that is refused for its form.
inductive Refused (decode : Decoder) (request : Http.Request) : Prop where
  | unknownRoute (hpath : Api.resource? request.path = none)
  | badPath {raw : List Char} (hpath : Api.resource? request.path = some (.receipt raw))
      (htext : ∀ text, parameter? raw = some text →
        ∀ hash : TxHash, Identifier.ofHex text ≠ .ok hash)
  | malformedBody (hmethod : request.method = "POST") (hpath : request.path = "/rpc".toList)
      (hcall : request.call? = none)
  | badCall {call : Rpc.Request} (hcall : request.Calls call) (hrefused : call.Refused decode)

end Http.Request

theorem Http.Response.json_inj {status : Nat} {value other : Json}
    (h : json status value = json status other) : value = other := by
  injection h with _ _ hbody
  exact Http.Body.json.inj hbody

namespace Rpc

-- A result is never taken for an error.
theorem respond_ok_ne_error (id other : Json) (result : Json) (e : Error) :
    respond id (.ok result) ≠ respond other (.error e) := by
  simp [respond]

end Rpc

namespace Api

open Http (Request Response)

variable {n : Node} {now : Timestamp} {request : Request} {raw : RawTx} {response : Response}

-- Only a body that reads as a call hands anything in.
theorem raw?_askGateway_of_call?_eq_none (n : Node) (hmethod : request.method = "POST")
    (hpath : request.path = "/rpc".toList) (hcall : request.call? = none) :
    (askGateway n request).raw? = none := by
  unfold askGateway
  cases htype : request.header? "content-type" with
  | none => rfl
  | some type =>
      by_cases hjson : Http.isJsonType type
      · by_cases hsize : bodyLimit < request.body.length
        · simp [hjson, hsize, Action.raw?]
        · cases hbody : Rpc.Request.ofBytes request.body with
          | error fault => cases fault <;> simp [hjson, hsize, Action.raw?]
          | ok call =>
              have hcalls : request.Calls call :=
                ⟨hmethod, hpath, ⟨type, htype, hjson⟩, Nat.not_lt.mp hsize, hbody⟩
              rw [Http.Request.call?_eq_some_iff.mpr hcalls] at hcall
              cases hcall
      · simp [hjson, Action.raw?]

theorem raw?_route_of_call?_eq_none (n : Node) (now : Timestamp) (hcall : request.call? = none) :
    (route n now request).raw? = none := by
  unfold route
  split
  · rfl
  · split
    · rfl
    · rename_i hresource
      split
      · rename_i hmethod
        exact raw?_askGateway_of_call?_eq_none n hmethod (resource?_eq_gateway_iff.mp hresource)
          hcall
      · exact raw?_read n now _
      · exact (raw?_headOnly _).trans (raw?_read n now _)
      · rfl

theorem call_eq_submit_iff {call : Rpc.Request} :
    Api.call n call = .submit raw response ↔
      call.version = "2.0" ∧ call.method = "ynx_sendRawTransaction" ∧
        ∃ text hash, Rpc.firstText? call.params = some text ∧
          rawTx n.decode text = .ok (raw, hash) ∧
            response = .json 200 (Rpc.respond call.id (.ok (.text hash.toHex))) := by
  constructor
  · intro h
    unfold Api.call at h
    split at h
    · exact absurd h nofun
    · rename_i hversion
      split at h
      · split at h
        · exact absurd h nofun
        · split at h
          · exact absurd h nofun
          · exact absurd h nofun
      · rename_i hmethod
        split at h
        · exact absurd h nofun
        · rename_i text htext
          split at h
          · exact absurd h nofun
          · rename_i found hash hraw
            obtain ⟨rfl, rfl⟩ := Action.submit.inj h
            exact ⟨not_not.mp hversion, hmethod, text, hash, htext, hraw, rfl⟩
      · exact absurd h nofun
      · exact absurd h nofun
      · exact absurd h nofun
  · rintro ⟨hversion, hmethod, text, hash, htext, hraw, rfl⟩
    simp only [Api.call, hversion, hmethod, htext, hraw]
    rfl

-- What a request hands in.
theorem route_eq_submit_iff :
    route n now request = .submit raw response ↔
      ∃ call, request.Calls call ∧ Api.call n call = .submit raw response := by
  constructor
  · intro h
    cases hcall : request.call? with
    | none =>
        have hraw := raw?_route_of_call?_eq_none n now hcall
        exact absurd h (Action.ne_submit hraw raw response)
    | some call =>
        have hcalls := Http.Request.call?_eq_some_iff.mp hcall
        exact ⟨call, hcalls, (route_of_calls hcalls).symm.trans h⟩
  · rintro ⟨call, hcalls, h⟩
    exact (route_of_calls hcalls).trans h

theorem submits_perform_iff {σ : Type} {update : (Node → Node) → σ → σ}
    {issue : TxHash → σ → Except IssueError Receipt × σ} {s : σ} :
    request.Submits (perform update issue (route n now request) s).1 ↔
      ∃ raw response, route n now request = .submit raw response := by
  constructor
  · rintro ⟨call, result, hcalls, hversion, hmethod, hresponse⟩
    rw [route_of_calls hcalls] at hresponse ⊢
    simp only [Api.call, hversion, hmethod] at hresponse
    -- What is answered with a result is neither without a text nor without a hash.
    cases htext : Rpc.firstText? call.params with
    | none =>
        rw [htext] at hresponse
        exact absurd (Response.json_inj hresponse).symm (Rpc.respond_ok_ne_error _ _ _ _)
    | some text =>
        cases hraw : rawTx n.decode text with
        | error reason =>
            rw [htext] at hresponse
            simp only [hraw] at hresponse
            exact absurd (Response.json_inj hresponse).symm (Rpc.respond_ok_ne_error _ _ _ _)
        | ok handedIn =>
            exact ⟨handedIn.1, _, call_eq_submit_iff.mpr
              ⟨hversion, hmethod, text, handedIn.2, htext, hraw, rfl⟩⟩
  · rintro ⟨raw, response, hroute⟩
    obtain ⟨call, hcalls, hcall⟩ := route_eq_submit_iff.mp hroute
    obtain ⟨hversion, hmethod, text, hash, -, -, rfl⟩ := call_eq_submit_iff.mp hcall
    rw [hroute]
    exact ⟨call, _, hcalls, hversion, hmethod, rfl⟩

end Api

namespace Rpc.Request

variable {call : Rpc.Request} {n : Node}

theorem Refused.ofHex_ne_ok {decode : Decoder} (h : call.Refused decode) {text : String}
    (htext : call.receiptText? = some text) (hash : TxHash) : Identifier.ofHex text ≠ .ok hash := by
  obtain ⟨hversion, hmethod, hparams⟩ := receiptText?_eq_some_iff.mp htext
  cases h with
  | wrongVersion hother => exact absurd hversion hother
  | unknownMethod hunknown =>
      rw [hmethod] at hunknown
      exact absurd hunknown (by decide)
  | badHash _ hbad => exact hbad text hparams hash
  | badTransaction hother =>
      rw [hmethod] at hother
      exact absurd hother (by decide)

theorem Refused.call_ne_submit (h : call.Refused n.decode) (raw : RawTx)
    (response : Http.Response) : Api.call n call ≠ .submit raw response := by
  intro hsubmit
  obtain ⟨hversion, hmethod, text, hash, htext, hraw, -⟩ := Api.call_eq_submit_iff.mp hsubmit
  cases h with
  | wrongVersion hother => exact hother hversion
  | unknownMethod hunknown =>
      rw [hmethod] at hunknown
      exact absurd hunknown (by decide)
  | badHash hother =>
      rw [hmethod] at hother
      exact absurd hother (by decide)
  | badTransaction _ hbad => exact hbad text htext _ hraw

end Rpc.Request

namespace Http.Request

variable {request : Http.Request} {decode : Decoder}

theorem Calls.resource? {call : Rpc.Request} (h : request.Calls call) :
    Api.resource? request.path = some .gateway :=
  Api.resource?_eq_gateway_iff.mpr h.path

-- A request that carries a call can only be refused for that call.
theorem Refused.of_calls {call : Rpc.Request} (h : request.Refused decode)
    (hcall : request.Calls call) : call.Refused decode := by
  cases h with
  | unknownRoute hpath => exact absurd (hpath.symm.trans hcall.resource?) nofun
  | badPath hpath => exact absurd (hpath.symm.trans hcall.resource?) (by simp)
  | malformedBody _ _ hnone =>
      exact absurd (hnone.symm.trans (call?_eq_some_iff.mpr hcall)) nofun
  | badCall hother hrefused =>
      obtain rfl := Except.ok.inj (hother.body.symm.trans hcall.body)
      exact hrefused

theorem Refused.receiptHash?_eq_none (h : request.Refused decode) :
    request.receiptHash? = none := by
  refine Option.eq_none_iff_forall_ne_some.mpr fun hash hhash => ?_
  obtain ⟨text, htext, hok⟩ := receiptHash?_eq_some_iff.mp hhash
  rcases receiptText?_eq_some_iff.mp htext with ⟨hmethod, raw, hpath, hne, hslash, hraw⟩ |
    ⟨call, hcall, hcalled⟩
  · have hreceipt := Api.resource?_eq_receipt_iff.mpr ⟨hpath, hne, hslash⟩
    cases h with
    | unknownRoute hnone => exact absurd (hnone.symm.trans hreceipt) nofun
    | badPath hother hbad =>
        obtain rfl := Api.Resource.receipt.inj (Option.some.inj (hother.symm.trans hreceipt))
        exact hbad text hraw hash hok
    | malformedBody _ hgateway =>
        have hresource := Api.resource?_eq_gateway_iff.mpr hgateway
        exact absurd (hresource.symm.trans hreceipt) (by simp)
    | badCall hcall => exact absurd (hcall.resource?.symm.trans hreceipt) (by simp)
  · exact (h.of_calls hcall).ofHex_ne_ok hcalled hash hok

theorem Refused.route_ne_submit {n : Node} (h : request.Refused n.decode) (now : Timestamp)
    (raw : RawTx) (response : Http.Response) : Api.route n now request ≠ .submit raw response := by
  intro hsubmit
  obtain ⟨call, hcall, hcalled⟩ := Api.route_eq_submit_iff.mp hsubmit
  exact (h.of_calls hcall).call_ne_submit raw response hcalled

end Http.Request

namespace ManagedNode

variable {ω α : Type}

theorem node_run (outside : Surroundings ω) (p : Program α) (s : ManagedNode ω) :
    (p.run (surroundings outside) s).2.node = s.node := by
  induction p generalizing s with
  | done value => rfl
  | ask call next ih => exact (ih _ _).trans (node_surroundings outside call s)

-- A node that answers all calls itself, and needs no world for it.
def alone [SignatureScheme] (n : Node) : Surroundings Unit := fun call _ => (n.answer call, ())

theorem run_alone [SignatureScheme] (n : Node) (p : Program α) :
    p.run (surroundings (alone n)) ⟨n, ()⟩ = ((p.run Node.surroundings n).1, ⟨n, ()⟩) := by
  induction p with
  | done value => rfl
  | ask call next ih =>
      have hanswer : surroundings (alone n) call ⟨n, ()⟩ = (n.answer call, ⟨n, ()⟩) := by
        cases call <;> rfl
      rw [Program.run_ask, hanswer, ih]
      rfl

theorem serve_alone [SignatureScheme] (n : Node) (now : Timestamp) (request : Http.Request) :
    (mk n ()).serve alone now request =
      ((n.serve now request).1, ⟨(n.serve now request).2, ()⟩) := by
  unfold serve Node.serve
  cases Api.route n now request with
  | reply response | submit raw response => rfl
  | attest hash render =>
      have hissue : (n.issue hash now.seconds).2 = n := congrArg Prod.snd (Node.issue_eq n hash _)
      simp only [Api.perform, run_alone, hissue]
      rfl

-- Whatever the world is and does, a request changes at most the pool and the metrics of a node.
-- A transaction that is handed in is put behind the others, an attempt to issue a receipt is
-- counted, and nothing else leaves a trace.
theorem serve_changes_only (s : ManagedNode ω) (outside : Node → Surroundings ω) (now : Timestamp)
    (request : Http.Request) :
    let (response, after) := s.serve outside now request
    let chain := s.node.chain
    let metrics := s.node.metrics
    after.node = { s.node with
        chain := { chain with pool := after.node.chain.pool }, metrics := after.node.metrics } ∧
      (request.Submits response ∧ after.world = s.world ∧
          (∃ raw, after.node.chain.pool = chain.pool ++ [raw]) ∧
          after.node.metrics = metrics.setPoolSize (chain.pool.length + 1) ∨
        ¬ request.Submits response ∧ after.node.chain.pool = chain.pool ∧
          match request.receiptHash? with
          | some _ => ∃ outcome, after.node.metrics = metrics.countAttempt outcome
          | none => after = s) ∧
      (request.Refused s.node.decode → after = s) := by
  have hasked := Api.asked?_route s.node now request
  have hsubmits : request.Submits (s.serve outside now request).1 ↔
      ∃ raw response, Api.route s.node now request = .submit raw response :=
    Api.submits_perform_iff
  unfold serve at hsubmits ⊢
  cases hroute : Api.route s.node now request with
  | reply response =>
      rw [hroute] at hasked hsubmits
      have hnot : ¬ request.Submits response := fun h => absurd (hsubmits.mp h) (by simp)
      refine ⟨rfl, .inr ⟨hnot, rfl, ?_⟩, fun _ => rfl⟩
      rw [← hasked]
      rfl
  | submit raw response =>
      rw [hroute] at hsubmits
      have hsome : request.Submits response := hsubmits.mpr ⟨raw, response, rfl⟩
      have hlength : (s.node.chain.pool ++ [raw]).length = s.node.chain.pool.length + 1 := by simp
      refine ⟨rfl, .inl ⟨hsome, rfl, ⟨raw, rfl⟩, ?_⟩, fun hrefused => ?_⟩
      · exact congrArg s.node.metrics.setPoolSize hlength
      · exact absurd hroute (hrefused.route_ne_submit now raw response)
  | attest hash render =>
      rw [hroute] at hasked hsubmits
      have hnode := node_run (outside s.node)
        (Issuance.issue s.node.backend? s.node.scanLimit hash now.seconds).run s
      dsimp only [Api.perform] at hsubmits ⊢
      have hnot : ¬ request.Submits _ := fun h => absurd (hsubmits.mp h) (by simp)
      rw [hnode]
      refine ⟨rfl, .inr ⟨hnot, rfl, ?_⟩, fun hrefused => ?_⟩
      · rw [← hasked]
        exact ⟨_, rfl⟩
      · exact absurd (hasked.trans hrefused.receiptHash?_eq_none) nofun

-- A call for the receipt of an empty text.
theorem serve_changes_only_empty :
    ∃ post : Http.Request, post.Calls (Rpc.confirm "" .null) ∧ post.Refused Node.lone.decode ∧
      (Node.lone.serve ⟨0, 0⟩ post).2 = Node.lone := by
  obtain ⟨post, hcall⟩ : ∃ post : Http.Request, post.Calls (Rpc.confirm "" .null) :=
    Http.Request.exists_calls (by decide +kernel)
  have hrefused : post.Refused Node.lone.decode := by
    refine .badCall hcall (.badHash rfl fun text htext hash hok => ?_)
    obtain rfl := Option.some.inj htext
    have hshort : (Identifier.ofHex "" : Except Identifier.Error TxHash) =
        .error (.wrongLength 32 0) := by decide +kernel
    exact absurd (hshort.symm.trans hok) nofun
  have hserve := serve_changes_only ⟨Node.lone, ()⟩ alone ⟨0, 0⟩ post
  rw [serve_alone] at hserve
  obtain ⟨-, -, hunchanged⟩ := hserve
  exact ⟨post, hcall, hrefused, congrArg node (hunchanged hrefused)⟩

end ManagedNode

end SoftConfirm
