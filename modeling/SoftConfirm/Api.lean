import SoftConfirm.Http
import SoftConfirm.Node
import SoftConfirm.Receipt.Wire
import SoftConfirm.Rpc

/-!
What the node answers to HTTP requests. A request only ever comes down to one of three actions:
a reply from what is known, a submitted transaction, or an attempt to issue a receipt; the two
gateways differ in how they ask and how they put the outcome.
-/

namespace SoftConfirm

open Http (Request Response)

inductive Action where
  | reply (response : Response)
  | submit (raw : RawTx) (response : Response)
  -- Attempts to issue a receipt and renders the outcome.
  | attest (hash : TxHash) (render : Except IssueError Receipt → Response)

namespace Api

inductive Resource where
  | health
  | status
  | signers
  | receipt (raw : List Char)
  | gateway
  deriving DecidableEq, Repr

-- What a path names. Receipts have one more segment, which is not empty.
def resource? (path : List Char) : Option Resource :=
  if path = "/health".toList then some .health
  else if path = "/status".toList then some .status
  else if path = "/signers".toList then some .signers
  else if path = "/rpc".toList then some .gateway
  else
    let root := "/preconfirm/".toList
    let rest := path.drop root.length
    if path.take root.length = root ∧ rest ≠ [] ∧ '/' ∉ rest then some (.receipt rest) else none

def errorBody (reason : String) : Json := .object [("error", .text reason)]

def statusOf : FailureKind → Nat
  | .txNotFound => 404
  | .disabled | .backendMissing | .backendUnavailable => 503
  | .cancelled | .deadlineExceeded => 504
  | .config | .signing => 500

def signersBody (active : Option SignerSet) : Json :=
  let addresses := (active.map SignerSet.addresses).getD []
  let threshold := (active.map (·.threshold.toNat)).getD 0
  .object [("enabled", .bool active.isSome), ("threshold", .number (.integer threshold)),
    ("signers", .array (addresses.map fun a => .text a.toHex))]

def statusBody (n : Node) (now : Timestamp) : Json :=
  let number (k : Nat) : Json := .number (.integer k)
  .object [("version", .text n.version), ("chain_id", .text n.context.chainId),
    ("evm_chain_id", number n.context.evmChainId.toNat), ("head", number n.chain.head.toNat),
    ("pending_txs", number n.chain.pool.length), ("preconfirm_enabled", .bool n.active.isSome),
    ("signer_count", number ((n.active.map SignerSet.size).getD 0)),
    ("threshold", number ((n.active.map (·.threshold.toNat)).getD 0)),
    ("timestamp", .text now.render)]

-- The outcome of an attempt as the resource of a receipt.
def receiptResponse : Except IssueError Receipt → Response
  | .ok receipt => .json 200 receipt.toJson
  | .error e => .json (statusOf e.kind) (errorBody e.message)

-- A request for the receipt of a hash, as it stands in the path.
def askReceipt (raw : List Char) : Action :=
  match Http.parameter? raw with
  | none => .reply (.plain 400 "path parameter is not UTF-8")
  | some text =>
      match Identifier.ofHex text with
      | .error e => .reply (.json 400 (errorBody ("invalid tx hash: " ++ e.message)))
      | .ok hash => .attest hash receiptResponse

-- The bytes of a raw transaction. Only a lower-case marker may stand before them.
def rawTx (decode : Decoder) (text : String) : Except String (RawTx × TxHash) := do
  let digits := match text.toList with
    | '0' :: 'x' :: cs => cs
    | cs => cs
  let raw ← (Hex.decode (Text.utf8 (String.ofList digits))).mapError (·.message)
  let hash ← (decode raw).mapError (·.message)
  return (raw, hash)

-- The outcome of an attempt as the result of a call.
def receiptOutcome : Except IssueError Receipt → Except Rpc.Error Json
  | .ok receipt => .ok receipt.toJson.canonical
  | .error e => .error (Rpc.Error.ofIssue e)

def call (n : Node) (request : Rpc.Request) : Action :=
  let answer (outcome : Except Rpc.Error Json) : Response :=
    .json 200 (Rpc.respond request.id outcome)
  if request.version ≠ "2.0" then .reply (answer (.error .badVersion))
  else
    match request.method with
    | "ynx_preconfirmTx" =>
        match Rpc.firstText? request.params with
        | none => .reply (answer (.error (.badParams "expected [txHash]")))
        | some text =>
            match Identifier.ofHex text with
            | .error e => .reply (answer (.error (.badParams ("txHash: " ++ e.message))))
            | .ok hash => .attest hash fun outcome => answer (receiptOutcome outcome)
    | "ynx_sendRawTransaction" =>
        match Rpc.firstText? request.params with
        | none => .reply (answer (.error (.badParams "expected [rawTx]")))
        | some text =>
            match rawTx n.decode text with
            | .error reason => .reply (answer (.error (.badParams ("rawTx: " ++ reason))))
            | .ok (raw, hash) => .submit raw (answer (.ok (.text hash.toHex)))
    | "ynx_blockNumber" => .reply (answer (.ok (.text (Quantity.encode n.chain.head))))
    | "ynx_signers" => .reply (answer (.ok (signersBody n.active).canonical))
    | name => .reply (answer (.error (.unknownMethod name)))

def bodyLimit : Nat := 2097152

-- A request to the gateway. Its type, its size and its form are looked at in this order.
def askGateway (n : Node) (request : Request) : Action :=
  let typed := match request.header? "content-type" with
    | some type => Http.isJsonType type
    | none => false
  if !typed then .reply (.plain 415 "expected a JSON body")
  else if bodyLimit < request.body.length then .reply (.plain 413 "body too long")
  else
    match Rpc.Request.ofBytes request.body with
    | .error (.text _) => .reply (.plain 400 "body is not JSON")
    | .error (.shape m) => .reply (.plain 422 m.message)
    | .ok request => call n request

-- What a resource answers to readers.
def read (n : Node) (now : Timestamp) : Resource → Action
  | .health => .reply (.json 200 (.object [("status", .text "ok")]))
  | .status => .reply (.json 200 (statusBody n now))
  | .signers => .reply (.json 200 (signersBody n.active))
  | .receipt raw => askReceipt raw
  | .gateway => .reply (.empty 405)

-- The action without the body of its response.
def headOnly : Action → Action
  | .reply response => .reply response.headOnly
  | .submit raw response => .submit raw response.headOnly
  | .attest hash render => .attest hash fun outcome => (render outcome).headOnly

-- What a request comes down to. Preflights are answered for any path.
def route (n : Node) (now : Timestamp) (request : Request) : Action :=
  if request.method = "OPTIONS" then .reply (.empty 200)
  else
    match resource? request.path with
    | none => .reply (.empty 404)
    | some resource =>
        match request.method, resource with
        | "POST", .gateway => askGateway n request
        | "GET", resource => read n now resource
        | "HEAD", resource => headOnly (read n now resource)
        | _, _ => .reply (.empty 405)

-- Carries out an action on a state that holds a node. Attempts are made by `issue` and counted
-- when they are over.
def perform {σ : Type} (update : (Node → Node) → σ → σ)
    (issue : TxHash → σ → Except IssueError Receipt × σ) (action : Action) (s : σ) :
    Response × σ :=
  match action with
  | .reply response => (response, s)
  | .submit raw response => (response, update (·.submit raw) s)
  | .attest hash render =>
      let (outcome, s) := issue hash s
      (render outcome, update (·.countAttempt outcome) s)

end Api

def Node.serve [SignatureScheme] (n : Node) (now : Timestamp) (request : Request) :
    Response × Node :=
  Api.perform id (fun hash n => n.issue hash now.seconds) (Api.route n now request) n

end SoftConfirm
