import Mathlib.Data.List.TakeWhile
import SoftConfirm.Proofs.History
import SoftConfirm.Proofs.Receipt.RoundTrip

namespace SoftConfirm

namespace Http

namespace Request

-- A request whose path names the receipt of a text, in some encoding.
def Names (request : Request) (text : String) : Prop :=
  ∃ raw, request.path = "/preconfirm/".toList ++ raw ∧ raw ≠ [] ∧ '/' ∉ raw ∧
    parameter? raw = some text

-- A request for the receipt of a text.
structure Fetches (request : Request) (text : String) : Prop where
  method : request.method = "GET"
  path : request.Names text

-- A request that carries a call to the gateway.
structure Calls (request : Request) (call : Rpc.Request) : Prop where
  method : request.method = "POST"
  path : request.path = "/rpc".toList
  typed : ∃ type, request.header? "content-type" = some type ∧ isJsonType type
  size : request.body.length ≤ Api.bodyLimit
  body : Rpc.Request.ofBytes request.body = .ok call

end Request

end Http

namespace Rpc

-- The call for the receipt of a text.
def confirm (text : String) (id : Json) : Request :=
  ⟨"2.0", "ynx_preconfirmTx", some (.array [.text text]), id⟩

-- The call as it may be written.
def confirmBody (text : String) : Json :=
  .object [("jsonrpc", .text "2.0"), ("method", .text "ynx_preconfirmTx"),
    ("params", .array [.text text]), ("id", .null)]

theorem ofBytes_confirmBody (text : String) :
    Request.ofBytes (Text.utf8 (confirmBody text).render) = .ok (confirm text .null) := by
  have hlegible : (confirmBody text).Legible := by
    refine .object fun m hm => ?_
    simp only [List.mem_cons, List.not_mem_nil, or_false] at hm
    rcases hm with rfl | rfl | rfl | rfl
    · exact .text _
    · exact .text _
    · refine .array fun item hitem => ?_
      obtain rfl := List.mem_singleton.mp hitem
      exact .text text
    · exact .null
  rw [Request.ofBytes, hlegible.ofBytes_render]
  simp only [confirmBody, Json.toTerm, List.map_cons, List.map_nil]
  rfl

end Rpc

theorem Http.Request.exists_calls {text : String}
    (h : (Rpc.confirmBody text).render.utf8ByteSize ≤ Api.bodyLimit) :
    ∃ post : Http.Request, post.Calls (Rpc.confirm text .null) := by
  have hpath : "/rpc".toList.takeWhile (fun c => c != '?' && c != '#') = "/rpc".toList := by decide
  have hheader : [("content-type", "application/json")].find?
      (fun h => h.1.map Char.toLower == "content-type") =
        some ("content-type", "application/json") := by decide +kernel
  have hsize : (Text.utf8 (Rpc.confirmBody text).render).length ≤ Api.bodyLimit := by
    rwa [Text.length_utf8]
  exact ⟨⟨"POST", "/rpc", [("content-type", "application/json")],
      Text.utf8 (Rpc.confirmBody text).render⟩,
    rfl, hpath, ⟨"application/json", congrArg (Option.map Prod.snd) hheader, by decide⟩, hsize,
    Rpc.ofBytes_confirmBody text⟩

namespace Api

variable {n : Node} {now : Timestamp} {text : String} {get post : Http.Request}

theorem resource?_receipt {raw : List Char} (hne : raw ≠ []) (hslash : '/' ∉ raw) :
    resource? ("/preconfirm/".toList ++ raw) = some (.receipt raw) := by
  simp [resource?, hne, hslash]

theorem route_get {resource : Resource} (hmethod : get.method = "GET")
    (hresource : resource? get.path = some resource) :
    route n now get = read n now resource := by
  simp [route, hmethod, hresource]

theorem route_of_fetches (h : get.Fetches text) :
    route n now get =
      match Identifier.ofHex text with
      | .error e => .reply (.json 400 (errorBody ("invalid tx hash: " ++ e.message)))
      | .ok hash => .attest hash receiptResponse := by
  obtain ⟨raw, hpath, hne, hslash, hraw⟩ := h.path
  have hresource : resource? get.path = some (.receipt raw) := by
    rw [hpath, resource?_receipt hne hslash]
  rw [route_get h.method hresource]
  cases hhash : (Identifier.ofHex text : Except Identifier.Error TxHash) with
  | error e => simp only [read, askReceipt, hraw, hhash]
  | ok hash => simp only [read, askReceipt, hraw, hhash]

theorem route_of_calls {call : Rpc.Request} (h : post.Calls call) :
    route n now post = Api.call n call := by
  obtain ⟨type, htype, hjson⟩ := h.typed
  have hgateway : resource? post.path = some .gateway := by
    rw [h.path]
    rfl
  have hsize : ¬ bodyLimit < post.body.length := Nat.not_lt.mpr h.size
  have hask : route n now post = askGateway n post := by
    simp [route, h.method, hgateway]
  rw [hask]
  simp [askGateway, htype, hjson, hsize, h.body]

section

variable {σ : Type} (update : (Node → Node) → σ → σ)
  (issue : TxHash → σ → Except IssueError Receipt × σ)

end

end Api

end SoftConfirm
