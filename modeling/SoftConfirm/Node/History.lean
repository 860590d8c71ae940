import SoftConfirm.Api

/-!
What a node goes through, one thing after the other: requests that it serves to their end, requests
that their signals stop, and the ticks of its block loop.
-/

namespace SoftConfirm.Node

inductive Event where
  | request (now : Timestamp) (request : Http.Request)
  -- A request for a receipt that has been stopped. It is counted, and nothing else comes of it.
  | stopped (cause : Interruption)
  | tick

-- Whether a request hands in a transaction with this hash and is answered with the hash.
def Accepts (n : Node) (now : Timestamp) (request : Http.Request) (hash : TxHash) : Prop :=
  ∃ raw id, n.decode raw = .ok hash ∧
    Api.route n now request = .submit raw (.json 200 (Rpc.respond id (.ok (.text hash.toHex))))

-- Whether a request asks for a receipt for this hash.
def Asks (n : Node) (now : Timestamp) (request : Http.Request) (hash : TxHash) : Prop :=
  ∃ render, Api.route n now request = .attest hash render

variable [SignatureScheme]

def act (event : Event) (n : Node) : Node :=
  match event with
  | .request now request => (n.serve now request).2
  | .stopped cause => n.countAttempt (.error (.interrupted cause))
  | .tick => n.tick

def after (n : Node) (events : List Event) : Node := events.foldl (fun n event => n.act event) n

-- The receipt that is issued for a request.
def receipt? (n : Node) (now : Timestamp) (request : Http.Request) : Option Receipt :=
  match Api.route n now request with
  | .attest hash _ => (n.issue hash now.seconds).1.toOption
  | .reply _ | .submit _ _ => none

end SoftConfirm.Node
