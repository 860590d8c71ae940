import SoftConfirm.Api
import SoftConfirm.Signal

/-!
A node under a virtual clock, with collaborators that answer late or fail, and with devices that
sign, refuse, or raise the flag of the request that asks them. Waiting costs nothing but time on
the clock, and computing not even that.
-/

namespace SoftConfirm

-- How a collaborator behaves: each call takes a while, and calls after the first few fail.
structure Script where
  latency : Nat
  failure : Option String
  after : Nat
  calls : Nat
  deriving DecidableEq, Repr

def Script.none : Script := ⟨0, Option.none, 0, 0⟩

def Script.failure? (s : Script) : Option String := s.failure.filter fun _ => s.after < s.calls

inductive Collaborator where
  | indexer
  | head
  | pool
  deriving DecidableEq, Repr

inductive PoolKind where
  -- Nothing: scripts have no effect.
  | plain
  | scripted
  -- A pool that lists everything, whatever the limit.
  | greedy
  -- A pool that produces a block before each listing.
  | landing
  deriving DecidableEq, Repr

-- A signing device: it signs with a key or gives a reason for not signing.
structure Device where
  behaviour : Except String Key
  -- Whether it raises the flag of the request first.
  raises : Bool

structure Simulation where
  node : Node
  clock : Nat
  kind : PoolKind
  scripts : Collaborator → Script
  -- The devices behind the handles of remote signers.
  devices : List Device
  signal : Signal
  -- Whether devices can raise the signal's flag.
  exposed : Bool
  -- How many calls devices have had during this request.
  deviceCalls : Nat
  shutdownAt : Option Nat

namespace Simulation

def ofNode (node : Node) (kind : PoolKind) : Simulation :=
  ⟨node, 0, kind, fun _ => .none, [], .never, false, 0, none⟩

def updateNode (f : Node → Node) (s : Simulation) : Simulation := { s with node := f s.node }

def setScript (s : Simulation) (target : Collaborator) (script : Script) : Simulation :=
  { s with scripts := fun other => if other = target then script else s.scripts other }

def connect (s : Simulation) (device : Device) : Nat × Simulation :=
  (s.devices.length, { s with devices := s.devices ++ [device] })

def shutDown (s : Simulation) : Simulation :=
  { s with shutdownAt := some ((s.shutdownAt.map (min s.clock)).getD s.clock) }

def collaborator : Query → Collaborator
  | .lookup _ => .indexer
  | .pending _ => .pool
  | .head => .head

def unavailable (target : Collaborator) (reason : String) : BackendError :=
  match target with
  | .indexer => .indexer reason
  | .head => .head reason
  | .pool => .pool reason

def look (s : Simulation) (q : Query) : q.Value × Simulation :=
  match q, s.kind with
  | .pending _, .greedy => (s.node.chain.pool, s)
  | .pending limit, .landing =>
      let s := s.updateNode fun n => n.produceBlock.2
      (s.node.chain.pending limit, s)
  | q, _ => (s.node.look q, s)

-- A query, which takes the time that its script says.
def query (s : Simulation) (q : Query) : Except Interruption (Except BackendError q.Value) × Simulation :=
  if s.kind = .plain then
    let (value, s) := s.look q
    (.ok (.ok value), s)
  else
    let target := collaborator q
    let script := { s.scripts target with calls := (s.scripts target).calls + 1 }
    let s := s.setScript target script
    let finish := s.clock + script.latency
    match s.signal.interrupts finish with
    | some (cause, time) => (.error cause, { s with clock := max s.clock time })
    | none =>
        let s := { s with clock := finish }
        match script.failure? with
        | some reason => (.ok (.error (unavailable target reason)), s)
        | none =>
            let (value, s) := s.look q
            (.ok (.ok value), s)

variable [SignatureScheme]

-- Has a signer sign. A device may raise the flag before it signs or refuses.
def sign (s : Simulation) (signer : Signer) (digest : Digest) :
    Except SigningError Signature × Simulation :=
  match signer with
  | .held key => (.ok (Signature.ofDigest key digest), s)
  | .remote address handle =>
      match s.devices[handle]? with
      | none => (.error ⟨address, "unreachable"⟩, s)
      | some device =>
          let s := { s with
            deviceCalls := s.deviceCalls + 1
            signal := if device.raises && s.exposed then s.signal.raise s.clock else s.signal }
          match device.behaviour with
          | .ok key => (.ok (Signature.ofDigest key digest), s)
          | .error reason => (.error ⟨address, reason⟩, s)

def surroundings : Surroundings Simulation := fun call s =>
  match call with
  | .signers => (s.node.active, s)
  | .check => (s.signal.status s.clock, s)
  | .query q => s.query q
  | .sign signer digest => s.sign signer digest

def begin (s : Simulation) (signal : Signal) (exposed : Bool) : Simulation :=
  { s with signal, exposed, deviceCalls := 0 }

def attempt {α : Type} (s : Simulation) (signal : Signal) (exposed : Bool)
    (program : Attempt α) : Except IssueError α × Simulation :=
  program.run.run surroundings (s.begin signal exposed)

def ask (s : Simulation) (q : Query) : Except BackendError q.Value × Simulation :=
  match (s.begin .never false).query q with
  | (.ok answer, s) => (answer, s)
  | (.error _, s) => (.error (unavailable (collaborator q) ""), s)

-- Where a transaction is. This asks the chain even if the issuer has no backend.
def resolve (s : Simulation) (signal : Signal) (hash : TxHash) :
    Except IssueError Resolution × Simulation :=
  s.attempt signal false (Issuance.resolve s.node.decode s.node.scanLimit hash)

def issue (s : Simulation) (signal : Signal) (exposed : Bool) (hash : TxHash)
    (issuedAt : UInt64) : Except IssueError Receipt × Simulation :=
  s.attempt signal exposed (Issuance.issue s.node.backend? s.node.scanLimit hash issuedAt)

-- Answers an HTTP request. Attempts stop at the shutdown, or when they have taken too long.
def serve (s : Simulation) (timeout : Nat) (now : Timestamp) (request : Http.Request) :
    Http.Response × Simulation :=
  let signal : Signal := ⟨true, s.shutdownAt, some (s.clock + timeout)⟩
  Api.perform updateNode (fun hash s => s.issue signal false hash now.seconds)
    (Api.route s.node now request) s

def waitAndCheck (s : Simulation) (signal : Signal) (wait : Nat) :
    Option Interruption × Simulation :=
  let s := { s with clock := s.clock + wait }
  (signal.status s.clock, s)

-- Work under the signal's guard, which is not begun when the signal has fired already.
def guardWork (s : Simulation) (signal : Signal) (work : Nat) :
    Option Interruption × Simulation :=
  match signal.status s.clock with
  | some cause => (some cause, s)
  | none =>
      match signal.interrupts (s.clock + work) with
      | some (cause, time) => (some cause, { s with clock := max s.clock time })
      | none => (none, { s with clock := s.clock + work })

-- Runs the block loop for some time. The first block comes one interval after the start.
def runBlockLoop (s : Simulation) (interval duration : Nat) : Simulation :=
  let ticks := duration / max interval 1
  { s with
    node := (List.range ticks).foldl (fun n _ => n.tick) s.node
    clock := s.clock + duration }

end Simulation

end SoftConfirm
