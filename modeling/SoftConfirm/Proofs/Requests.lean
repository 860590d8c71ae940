import SoftConfirm.Proofs.Gateways

namespace SoftConfirm

-- The text whose receipt a call asks for.
def Rpc.Request.receiptText? (call : Rpc.Request) : Option String :=
  if call.version = "2.0" ∧ call.method = "ynx_preconfirmTx" then firstText? call.params else none

theorem Rpc.Request.receiptText?_eq_some_iff {call : Rpc.Request} {text : String} :
    call.receiptText? = some text ↔
      call.version = "2.0" ∧ call.method = "ynx_preconfirmTx" ∧
        firstText? call.params = some text := by
  unfold receiptText?
  split
  · rename_i h
    simp [h.1, h.2]
  · rename_i h
    refine ⟨nofun, fun hcall => absurd ⟨hcall.1, hcall.2.1⟩ h⟩

namespace Api

variable {path : List Char}

-- The paths of each resource.
theorem path_of_resource? {resource : Resource} (h : resource? path = some resource) :
    match resource with
    | .health => path = "/health".toList
    | .status => path = "/status".toList
    | .signers => path = "/signers".toList
    | .gateway => path = "/rpc".toList
    | .receipt raw => path = "/preconfirm/".toList ++ raw ∧ raw ≠ [] ∧ '/' ∉ raw := by
  unfold resource? at h
  by_cases hhealth : path = "/health".toList
  · rw [if_pos hhealth] at h
    obtain rfl := Option.some.inj h
    exact hhealth
  rw [if_neg hhealth] at h
  by_cases hstatus : path = "/status".toList
  · rw [if_pos hstatus] at h
    obtain rfl := Option.some.inj h
    exact hstatus
  rw [if_neg hstatus] at h
  by_cases hsigners : path = "/signers".toList
  · rw [if_pos hsigners] at h
    obtain rfl := Option.some.inj h
    exact hsigners
  rw [if_neg hsigners] at h
  by_cases hgateway : path = "/rpc".toList
  · rw [if_pos hgateway] at h
    obtain rfl := Option.some.inj h
    exact hgateway
  rw [if_neg hgateway] at h
  dsimp only at h
  split at h
  · rename_i hpath
    obtain ⟨hroot, hne, hslash⟩ := hpath
    obtain rfl := Option.some.inj h
    refine ⟨?_, hne, hslash⟩
    conv_lhs => rw [← List.take_append_drop "/preconfirm/".toList.length path, hroot]
  · exact absurd h nofun

theorem resource?_eq_receipt_iff {raw : List Char} :
    resource? path = some (.receipt raw) ↔
      path = "/preconfirm/".toList ++ raw ∧ raw ≠ [] ∧ '/' ∉ raw := by
  refine ⟨path_of_resource?, ?_⟩
  rintro ⟨rfl, hne, hslash⟩
  exact resource?_receipt hne hslash

theorem resource?_eq_gateway_iff : resource? path = some .gateway ↔ path = "/rpc".toList := by
  refine ⟨path_of_resource?, ?_⟩
  rintro rfl
  rfl

end Api

namespace Http.Request

variable {request : Http.Request} {hash : TxHash}

-- The call that a request carries to the gateway.
def call? (request : Http.Request) : Option Rpc.Request :=
  if request.method = "POST" ∧ request.path = "/rpc".toList ∧
      (request.header? "content-type").any isJsonType = true ∧
        request.body.length ≤ Api.bodyLimit then
    (Rpc.Request.ofBytes request.body).toOption
  else none

-- The text whose receipt a request asks for, in its path or in a call.
def receiptText? (request : Http.Request) : Option String :=
  if request.method = "GET" ∨ request.method = "HEAD" then
    match Api.resource? request.path with
    | some (.receipt raw) => parameter? raw
    | _ => none
  else request.call?.bind Rpc.Request.receiptText?

-- The hash whose receipt a request asks for, if the text is one.
def receiptHash? (request : Http.Request) : Option TxHash :=
  request.receiptText?.bind fun text => (Identifier.ofHex text).toOption

theorem call?_eq_some_iff {call : Rpc.Request} :
    request.call? = some call ↔ request.Calls call := by
  unfold call?
  constructor
  · intro h
    split at h
    · rename_i hform
      obtain ⟨hmethod, hpath, htyped, hsize⟩ := hform
      rw [Option.any_eq_true] at htyped
      cases hbody : Rpc.Request.ofBytes request.body with
      | error fault =>
          rw [hbody] at h
          exact absurd h nofun
      | ok found =>
          rw [hbody] at h
          obtain rfl := Option.some.inj h
          exact ⟨hmethod, hpath, htyped, hsize, hbody⟩
    · exact absurd h nofun
  · intro h
    obtain ⟨type, htype, hjson⟩ := h.typed
    rw [htype, Option.any_some, if_pos ⟨h.method, h.path, hjson, h.size⟩, h.body]
    rfl

theorem receiptText?_eq_some_iff {text : String} :
    request.receiptText? = some text ↔
      (request.method = "GET" ∨ request.method = "HEAD") ∧ request.Names text ∨
        ∃ call, request.Calls call ∧ call.receiptText? = some text := by
  unfold receiptText?
  split
  · rename_i hmethod
    have hnone : ∀ call, ¬ request.Calls call := by
      intro call hcall
      rw [hcall.method] at hmethod
      exact absurd hmethod (by decide)
    simp only [hmethod, true_and, hnone, false_and, exists_false, or_false]
    constructor
    · intro h
      split at h
      · rename_i raw hresource
        obtain ⟨hpath, hne, hslash⟩ := Api.resource?_eq_receipt_iff.mp hresource
        exact ⟨raw, hpath, hne, hslash, h⟩
      · exact absurd h nofun
    · rintro ⟨raw, hpath, hne, hslash, hraw⟩
      rw [Api.resource?_eq_receipt_iff.mpr ⟨hpath, hne, hslash⟩]
      exact hraw
  · rename_i hmethod
    simp only [hmethod, false_and, false_or, Option.bind_eq_some_iff, call?_eq_some_iff]

theorem receiptHash?_eq_some_iff :
    request.receiptHash? = some hash ↔
      ∃ text, request.receiptText? = some text ∧ Identifier.ofHex text = .ok hash := by
  rw [receiptHash?, Option.bind_eq_some_iff]
  refine exists_congr fun text => and_congr_right fun _ => ?_
  cases (Identifier.ofHex text : Except Identifier.Error TxHash) <;> simp [Except.toOption]

end Http.Request

namespace Api

variable {n : Node} {now : Timestamp} {request : Http.Request} {hash : TxHash}

theorem asked?_askReceipt (raw : List Char) :
    (askReceipt raw).asked? =
      (Http.parameter? raw).bind fun text => (Identifier.ofHex text).toOption := by
  unfold askReceipt
  cases Http.parameter? raw with
  | none => rfl
  | some text =>
      simp only [Option.bind_some]
      cases Identifier.ofHex text <;> rfl

theorem asked?_call (n : Node) (call : Rpc.Request) :
    (Api.call n call).asked? =
      call.receiptText?.bind fun text => (Identifier.ofHex text).toOption := by
  unfold Api.call Rpc.Request.receiptText?
  by_cases hversion : call.version = "2.0"
  · rw [if_neg (not_not_intro hversion)]
    by_cases hmethod : call.method = "ynx_preconfirmTx"
    · rw [if_pos ⟨hversion, hmethod⟩]
      simp only [hmethod]
      cases Rpc.firstText? call.params with
      | none => rfl
      | some text =>
          simp only [Option.bind_some]
          cases Identifier.ofHex text <;> rfl
    · rw [if_neg fun h => hmethod h.2]
      split
      · contradiction
      · split
        · rfl
        · split <;> rfl
      · rfl
      · rfl
      · rfl
  · rw [if_pos hversion, if_neg fun h => hversion h.1]
    rfl

theorem asked?_askGateway (n : Node) (hmethod : request.method = "POST")
    (hpath : request.path = "/rpc".toList) :
    (askGateway n request).asked? =
      (request.call?.bind Rpc.Request.receiptText?).bind fun text =>
        (Identifier.ofHex text).toOption := by
  unfold askGateway Http.Request.call?
  cases request.header? "content-type" with
  | none => simp [Action.asked?]
  | some type =>
      by_cases htype : Http.isJsonType type
      · by_cases hsize : bodyLimit < request.body.length
        · simp [htype, hsize, Action.asked?, Nat.not_le.mpr hsize]
        · simp only [htype, hsize, hmethod, hpath, Option.any_some, Nat.not_lt.mp hsize, and_self,
            if_true]
          cases Rpc.Request.ofBytes request.body with
          | error fault => cases fault <;> rfl
          | ok call => exact asked?_call n call
      · simp [htype, Action.asked?]

theorem asked?_reply (response : Http.Response) : (Action.reply response).asked? = none := rfl

theorem asked?_headOnly (action : Action) : (headOnly action).asked? = action.asked? := by
  cases action <;> rfl

theorem asked?_read (n : Node) (now : Timestamp) (resource : Resource) :
    (read n now resource).asked? =
      (match resource with
        | .receipt raw => Http.parameter? raw
        | _ => none).bind fun text => (Identifier.ofHex text).toOption := by
  cases resource with
  | receipt raw => exact asked?_askReceipt raw
  | health | status | signers | gateway => rfl

theorem call?_eq_none (h : ¬ (request.method = "POST" ∧ resource? request.path = some .gateway)) :
    request.call? = none := by
  rw [resource?_eq_gateway_iff] at h
  rw [Http.Request.call?, if_neg fun hform => h ⟨hform.1, hform.2.1⟩]

-- Whether a request leads to an attempt, and for which hash, can be told from the request alone.
theorem asked?_route (n : Node) (now : Timestamp) (request : Http.Request) :
    (route n now request).asked? = request.receiptHash? := by
  unfold route Http.Request.receiptHash? Http.Request.receiptText?
  by_cases hoptions : request.method = "OPTIONS"
  · have hnone : request.call? = none := call?_eq_none (by simp [hoptions])
    simp [hoptions, hnone, asked?_reply]
  · rw [if_neg hoptions]
    cases hresource : resource? request.path with
    | none =>
        have hnone : request.call? = none := call?_eq_none (by simp [hresource])
        simp [hnone, asked?_reply]
    | some resource =>
        dsimp only
        -- The gateway, who reads, who reads only the head, and all others.
        split
        · rename_i hmethod
          rw [asked?_askGateway n hmethod (resource?_eq_gateway_iff.mp hresource), hmethod,
            if_neg (by decide)]
        · rename_i resource _ _ hmethod
          rw [asked?_read, if_pos (.inl hmethod)]
          cases resource <;> rfl
        · rename_i resource _ _ hmethod
          rw [asked?_headOnly, asked?_read, if_pos (.inr hmethod)]
          cases resource <;> rfl
        · rename_i hget hhead hpost
          have hnone : request.call? = none := by
            refine call?_eq_none fun h => ?_
            exact hpost h.1 (Option.some.inj (hresource.symm.trans h.2))
          have hother : ¬ (request.method = "GET" ∨ request.method = "HEAD") := by
            rintro (h | h)
            · exact hget h
            · exact hhead h
          rw [if_neg hother, hnone]
          rfl

-- What a request for a receipt comes down to: an attempt whose outcome is the response, whole or
-- in an envelope.
theorem route_of_receiptHash? (n : Node) (now : Timestamp) (h : request.receiptHash? = some hash) :
    ∃ render, (render = receiptResponse ∨
        ∃ id, render = fun outcome => .json 200 (Rpc.respond id (receiptOutcome outcome))) ∧
      route n now request =
        if request.method = "HEAD" then headOnly (.attest hash render)
        else .attest hash render := by
  obtain ⟨text, htext, hhash⟩ := Http.Request.receiptHash?_eq_some_iff.mp h
  rcases Http.Request.receiptText?_eq_some_iff.mp htext with
    ⟨hmethod | hmethod, hnames⟩ | ⟨call, hcall, hcalled⟩
  · refine ⟨receiptResponse, .inl rfl, ?_⟩
    rw [route_of_fetches ⟨hmethod, hnames⟩, hhash, hmethod]
    rfl
  · refine ⟨receiptResponse, .inl rfl, ?_⟩
    obtain ⟨raw, hpath, hne, hslash, hraw⟩ := hnames
    have hresource : resource? request.path = some (.receipt raw) := by
      rw [hpath, resource?_receipt hne hslash]
    have hhead : route n now request = headOnly (read n now (.receipt raw)) := by
      simp [route, hmethod, hresource]
    rw [hhead, if_pos hmethod]
    simp only [read, askReceipt, hraw, hhash]
  · obtain ⟨hversion, hmethod, hparams⟩ := Rpc.Request.receiptText?_eq_some_iff.mp hcalled
    refine ⟨_, .inr ⟨call.id, rfl⟩, ?_⟩
    rw [route_of_calls hcall, hcall.method, if_neg (by decide)]
    simp only [Api.call, hversion, hmethod, hparams, hhash]
    rfl

end Api

end SoftConfirm
