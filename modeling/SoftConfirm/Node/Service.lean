import SoftConfirm.Api
import SoftConfirm.Node.Managed

/-!
A node in service: requests and ticks of the block loop, each of them completed before the next
one. What an attempt to issue a receipt comes to is up to signers, collaborators and clocks, so a
request carries it along.
-/

namespace SoftConfirm

-- Serves a request whose attempt, if there is one, meets what stands outside of the node.
def ManagedNode.serve {ω : Type} (s : ManagedNode ω) (outside : Node → Surroundings ω)
    (now : Timestamp) (request : Http.Request) : Http.Response × ManagedNode ω :=
  Api.perform (fun f s => { s with node := f s.node })
    (fun hash s => (Issuance.issue s.node.backend? s.node.scanLimit hash now.seconds).run.run
      (surroundings (outside s.node)) s)
    (Api.route s.node now request) s

namespace Node

inductive Step where
  -- A request, and what an attempt for each hash would come to by then.
  | request (now : Timestamp) (request : Http.Request)
      (attempt : TxHash → Except IssueError Receipt)
  | tick

-- Serves a request whose attempt, if there is one, comes to what is given.
def serveWith (n : Node) (now : Timestamp) (request : Http.Request)
    (attempt : TxHash → Except IssueError Receipt) : Http.Response × Node :=
  Api.perform id (fun hash n => (attempt hash, n)) (Api.route n now request) n

-- Answers a call in the same way, whoever has read it and from whatever text.
def callWith (n : Node) (call : Rpc.Request) (attempt : TxHash → Except IssueError Receipt) :
    Http.Response × Node :=
  Api.perform id (fun hash n => (attempt hash, n)) (Api.call n call) n

def step (s : Step) (n : Node) : Node :=
  match s with
  | .request now request attempt => (n.serveWith now request attempt).2
  | .tick => n.tick

def afterSteps (n : Node) (steps : List Step) : Node := steps.foldl (fun n s => n.step s) n

end Node

end SoftConfirm
