import SoftConfirm.KeySource
import SoftConfirm.Metrics
import SoftConfirm.Timestamp

/-!
The state of a running node: its chain, the active signer set, and what it has counted. The node
answers the calls of its own requests from that state, never late and never in vain.
-/

namespace SoftConfirm

structure Node where
  version : String
  context : ChainContext
  decode : Decoder
  -- Whether requests for receipts have a chain to ask.
  hasBackend : Bool
  scanLimit : UInt64
  active : Option SignerSet
  chain : Chain
  metrics : Metrics

namespace Node

def backend? (n : Node) : Option Backend :=
  if n.hasBackend then some ⟨n.context, n.decode⟩ else none

-- A description of the issuer that shows no secrets.
def describeIssuer (n : Node) : String :=
  let signers := match n.active with
    | some set => s!"Some({set.describe})"
    | none => "None"
  "ReceiptIssuer \x7b signers: " ++ signers ++ s!", backend: {n.hasBackend}, resolver: " ++
    s!"StatusResolver \x7b scan_limit: {n.scanLimit.toNat} \x7d \x7d"

def install (n : Node) (set : SignerSet) : Node := { n with active := some set }

-- Makes the set of a source active. When it does not load, all stays as it is.
def installFrom [SignatureScheme] (n : Node) (fs : FileSystem) (source : KeySource)
    (threshold : Option UInt32) : Except ConfigError Unit × Node :=
  match source.loadSigners fs threshold with
  | .ok set => (.ok (), n.install set)
  | .error e => (.error e, n)

def disable (n : Node) : Node := { n with active := none }

def updateChain (n : Node) (f : Chain → Chain) : Node := { n with chain := f n.chain }

def produceBlock (n : Node) : Block × Node :=
  let (block, chain) := n.chain.produceBlock n.decode
  (block, { n with chain })

-- One tick of the block loop: a block, and the gauges of head and pool.
def tick (n : Node) : Node :=
  let (block, next) := n.produceBlock
  { next with
    metrics := (next.metrics.setHead block.height).setPoolSize next.chain.pool.length }

def submit (n : Node) (raw : RawTx) : Node :=
  let chain := n.chain.push [raw]
  { n with chain, metrics := n.metrics.setPoolSize chain.pool.length }

def recordSigners (n : Node) : Node := { n with metrics := n.metrics.setSigners n.active }

def countAttempt (n : Node) (outcome : Except IssueError Receipt) : Node :=
  { n with metrics := n.metrics.countAttempt outcome }

variable [SignatureScheme]

-- Has a signer sign. Only keys that are held here can.
def sign (signer : Signer) (digest : Digest) : Except SigningError Signature :=
  match signer with
  | .held key => .ok (Signature.ofDigest key digest)
  | .remote address _ => .error ⟨address, "unreachable"⟩

def look (n : Node) : (q : Query) → q.Value
  | .lookup hash => n.chain.height? hash
  | .pending limit => n.chain.pending limit
  | .head => n.chain.head

def answer (n : Node) : (call : Call) → call.Answer
  | .signers => n.active
  | .check => none
  | .query q => .ok (.ok (n.look q))
  | .sign signer digest => sign signer digest

-- The node as the surroundings of its own requests, which change nothing in it.
def surroundings : Surroundings Node := fun call n => (n.answer call, n)

def issue (n : Node) (hash : TxHash) (issuedAt : UInt64) : Except IssueError Receipt × Node :=
  (Issuance.issue n.backend? n.scanLimit hash issuedAt).run.run surroundings n

end Node

end SoftConfirm
