import SoftConfirm.Binary64
import SoftConfirm.Issuance

/-!
What the node counts, and the text in which it is scraped. Every attempt to issue a receipt adds
to the sample count and to exactly one of the counters of successes and failures.
-/

namespace SoftConfirm

-- The kinds of failure that are counted apart, in the order of their names.
inductive FailureKind where
  | backendMissing
  | backendUnavailable
  | cancelled
  | config
  | deadlineExceeded
  | disabled
  | signing
  | txNotFound
  deriving DecidableEq, Repr

namespace FailureKind

def all : List FailureKind :=
  [backendMissing, backendUnavailable, cancelled, config, deadlineExceeded, disabled, signing,
    txNotFound]

def label : FailureKind → String
  | backendMissing => "backend_missing"
  | backendUnavailable => "backend_unavailable"
  | cancelled => "cancelled"
  | config => "config"
  | deadlineExceeded => "deadline_exceeded"
  | disabled => "disabled"
  | signing => "signing"
  | txNotFound => "tx_not_found"

end FailureKind

def IssueError.kind : IssueError → FailureKind
  | config _ => .config
  | disabled => .disabled
  | backendMissing => .backendMissing
  | backendUnavailable _ => .backendUnavailable
  | txNotFound _ => .txNotFound
  | signing _ => .signing
  | interrupted .cancelled => .cancelled
  | interrupted .deadlineExceeded => .deadlineExceeded

def IssueError.label (e : IssueError) : String := e.kind.label

-- Counters, and gauges of 64 bits with a sign.
structure Metrics where
  issued : Nat
  failed : FailureKind → Nat
  notFound : Nat
  samples : Nat
  signerCount : Int
  signerThreshold : Int
  chainHead : Int
  poolSize : Int

namespace Metrics

def zero : Metrics := ⟨0, fun _ => 0, 0, 0, 0, 0, 0, 0⟩

def gauge (n : Nat) : Int := Int.bmod n UInt64.size

def countAttempt (m : Metrics) : Except IssueError Receipt → Metrics
  | .ok _ => { m with samples := m.samples + 1, issued := m.issued + 1 }
  | .error e =>
      { m with
        samples := m.samples + 1
        failed := fun kind => if kind = e.kind then m.failed kind + 1 else m.failed kind
        notFound := if e.kind = .txNotFound then m.notFound + 1 else m.notFound }

def setPoolSize (m : Metrics) (size : Nat) : Metrics := { m with poolSize := gauge size }

def setHead (m : Metrics) (height : UInt64) : Metrics := { m with chainHead := gauge height.toNat }

-- Notes the size and the threshold of the active signer set, zeros if there is none.
def setSigners (m : Metrics) (active : Option SignerSet) : Metrics :=
  { m with
    signerCount := gauge ((active.map SignerSet.size).getD 0)
    signerThreshold := gauge ((active.map (·.threshold.toNat)).getD 0) }

-- A whole number in the text format: its shortest digits as a float, then zeros.
def number (n : Int) : String :=
  if n = 0 then "0"
  else
    match Binary64.ofQuotient? n.natAbs 1 with
    | none => ""
    | some value =>
        let decimal := value.shortest
        let digits := toString decimal.digits ++
          String.ofList (List.replicate decimal.exponent.toNat '0')
        let shown := if decimal.exponent < 0 then
          toString (decimal.digits / Nat.pow 10 decimal.exponent.natAbs) else digits
        (if n < 0 then "-" else "") ++ shown

-- One family of samples: its name and kind, what it says, and its lines.
structure Family where
  name : String
  help : String
  kind : String
  lines : List String

def namespaceMark : String := "ynx_"

def Family.single (name help kind : String) (value : Int) : Family :=
  { name, help, kind, lines := [s!"{namespaceMark}{name} {number value}"] }

-- The families in the order of their names. One without samples is left out.
def families (m : Metrics) : List Family :=
  let failures := FailureKind.all.filter fun kind => m.failed kind ≠ 0
  [.single "chain_head" "Height of the latest block" "gauge" m.chainHead,
    { name := "issuance_latency_seconds", help := "Receipt issuance latency in seconds"
      kind := "histogram"
      lines := [s!"{namespaceMark}issuance_latency_seconds_count {m.samples}"] },
    .single "pending_pool_size" "Transactions waiting in the pending pool" "gauge" m.poolSize,
    { name := "receipts_failed_total"
      help := "Total number of failed receipt requests by error kind"
      kind := "counter"
      lines := failures.map fun kind =>
        s!"{namespaceMark}receipts_failed_total\x7bkind=\"{kind.label}\"\x7d " ++
          number (m.failed kind) },
    .single "receipts_issued_total" "Total number of preconfirmation receipts issued" "counter"
      m.issued,
    .single "signer_count" "Signers in the active preconfirm set" "gauge" m.signerCount,
    .single "signer_threshold" "Threshold of the active preconfirm set" "gauge" m.signerThreshold,
    .single "tx_not_found_total"
      "Receipt requests for transactions that were neither indexed nor pending" "counter"
      m.notFound].filter fun family => !family.lines.isEmpty

-- The lines of the text format, without those that depend on measured times.
def lines (m : Metrics) : List String :=
  m.families.flatMap fun family =>
    [s!"# HELP {namespaceMark}{family.name} {family.help}",
      s!"# TYPE {namespaceMark}{family.name} {family.kind}"] ++ family.lines

def contentType : String := "text/plain; version=0.0.4; charset=utf-8"

end Metrics

end SoftConfirm
