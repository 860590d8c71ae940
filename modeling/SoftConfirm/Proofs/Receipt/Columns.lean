import SoftConfirm.Receipt.Wire
import SoftConfirm.Proofs.Json.Reading
import SoftConfirm.Proofs.Quantity

namespace SoftConfirm

open Json (Member Reading Term)

namespace Status

theorem ofText?_name (status : Status) : ofText? status.name = some status := by
  cases status <;> decide

end Status

namespace Json.Term

theorem readSpelled_of_ok {α : Type} {spell : String → Except String α} {s : String} {value : α}
    (h : spell s = .ok value) : readSpelled spell (Json.text s).toTerm = .ok value :=
  readSpelled_eq_ok_iff.mpr ⟨s, rfl, h⟩

theorem readIdentifier_toHex {kind : IdentifierKind} (id : Identifier kind) :
    readIdentifier (Json.text id.toHex).toTerm = .ok id := by
  refine readSpelled_of_ok ?_
  rw [Identifier.ofHex_toHex]
  rfl

theorem readSignature_toHex (signature : Signature) :
    readSignature (Json.text signature.toHex).toTerm = .ok signature := by
  refine readSpelled_of_ok ?_
  rw [Signature.ofHex?_toHex]

theorem readQuantity_encode (value : UInt64) :
    readQuantity (Json.text (Quantity.encode value)).toTerm = .ok value := by
  refine readSpelled_of_ok ?_
  rw [Quantity.decode_encode]
  rfl

theorem readStatus_name (status : Status) :
    readStatus (Json.text status.name).toTerm = .ok status := by
  refine readSpelled_of_ok ?_
  rw [Status.ofText?_name]

-- A list is read when each of its items is.
theorem readList_of_ok {α : Type} {item : Term → Reading α} {spelled : α → Json}
    (h : ∀ value, item (spelled value).toTerm = .ok value) (depth : Nat) (values : List α) :
    readList (depth + 1) item (Json.array (values.map spelled)).toTerm = .ok values := by
  have hitems : List.Forall₂ (fun held read => item held.toTerm = .ok read)
      (values.map spelled) values := by
    rw [List.forall₂_map_left_iff, List.forall₂_same]
    exact fun value _ => h value
  exact readList_eq_ok_iff.mpr ⟨values.map spelled, rfl, hitems⟩

end Json.Term

namespace Receipt

inductive Column where
  | status
  | chainId
  | evmChainId
  | txHash
  | targetBlock
  | issuedAt
  | signer
  | digest
  | signature
  | signers
  | signatures
  | threshold
  deriving DecidableEq

namespace Column

-- The columns in the order in which receipts are written.
def all : List Column :=
  [.status, .chainId, .evmChainId, .txHash, .targetBlock, .issuedAt, .signer, .digest, .signature,
    .signers, .signatures, .threshold]

def name : Column → String
  | status => "status"
  | chainId => "chainId"
  | evmChainId => "evmChainId"
  | txHash => "txHash"
  | targetBlock => "targetBlock"
  | issuedAt => "issuedAt"
  | signer => "signer"
  | digest => "digest"
  | signature => "signature"
  | signers => "signers"
  | signatures => "signatures"
  | threshold => "threshold"

def optional : Column → Bool
  | signers | signatures | threshold => true
  | _ => false

def Value : Column → Type
  | status => Status
  | chainId => String
  | evmChainId | targetBlock | issuedAt => UInt64
  | txHash => TxHash
  | signer => Address
  | digest => Digest
  | signature => Signature
  | signers => List Address
  | signatures => List Signature
  | threshold => UInt32

def get : (c : Column) → Draft → Option c.Value
  | status, d => d.status
  | chainId, d => d.chainId
  | evmChainId, d => d.evmChainId
  | txHash, d => d.txHash
  | targetBlock, d => d.targetBlock
  | issuedAt, d => d.issuedAt
  | signer, d => d.signer
  | digest, d => d.digest
  | signature, d => d.signature
  | signers, d => d.signers
  | signatures, d => d.signatures
  | threshold, d => d.threshold

def put : (c : Column) → c.Value → Draft → Draft
  | status, v, d => { d with status := some v }
  | chainId, v, d => { d with chainId := some v }
  | evmChainId, v, d => { d with evmChainId := some v }
  | txHash, v, d => { d with txHash := some v }
  | targetBlock, v, d => { d with targetBlock := some v }
  | issuedAt, v, d => { d with issuedAt := some v }
  | signer, v, d => { d with signer := some v }
  | digest, v, d => { d with digest := some v }
  | signature, v, d => { d with signature := some v }
  | signers, v, d => { d with signers := some v }
  | signatures, v, d => { d with signatures := some v }
  | threshold, v, d => { d with threshold := some v }

def read : (c : Column) → (depth : Nat) → Term → Reading c.Value
  | status, _, t => t.readStatus
  | chainId, _, t => t.readText
  | evmChainId, _, t | targetBlock, _, t | issuedAt, _, t => t.readQuantity
  | txHash, _, t | signer, _, t | digest, _, t => t.readIdentifier
  | signature, _, t => t.readSignature
  | signers, depth, t => t.readList depth Term.readIdentifier
  | signatures, depth, t => t.readList depth Term.readSignature
  | threshold, _, t => t.readWord32

def write : (c : Column) → c.Value → Json
  | status, v => .text (Status.name v)
  | chainId, v => .text v
  | evmChainId, v | targetBlock, v | issuedAt, v => .text (Quantity.encode v)
  | txHash, v | signer, v | digest, v => .text (Identifier.toHex v)
  | signature, v => .text (Signature.toHex v)
  | signers, v => .array (List.map (fun address => .text (Identifier.toHex address)) v)
  | signatures, v => .array (List.map (fun signature => .text (Signature.toHex signature)) v)
  | threshold, v => .number (.integer (UInt32.toNat v))

def member (c : Column) : Member Draft where
  name := c.name
  optional := c.optional
  isSet d := (c.get d).isSome
  read depth t d := return c.put (← c.read depth t) d

theorem fields_eq : Draft.fields = all.map member := rfl

theorem mem_all (c : Column) : c ∈ all := by
  cases c <;> decide

theorem find?_name (c : Column) : all.find? (fun other => other.name == c.name) = some c := by
  cases c <;> rfl

theorem name_injective {c c' : Column} (h : c.name = c'.name) : c = c' := by
  have hfind := find?_name c
  rw [h, find?_name c'] at hfind
  exact (Option.some.inj hfind).symm

theorem get_blank (c : Column) : c.get {} = none := by
  cases c <;> rfl

theorem get_put_self (c : Column) (v : c.Value) (d : Draft) : c.get (c.put v d) = some v := by
  cases c <;> rfl

theorem get_put_of_ne {c c' : Column} (h : c ≠ c') (v : c.Value) (d : Draft) :
    c'.get (c.put v d) = c'.get d := by
  cases c <;> cases c' <;> first | rfl | exact absurd rfl h

-- What is written in a column is read back from it.
theorem read_write (c : Column) (v : c.Value) (depth : Nat) :
    c.read (depth + 1) (c.write v).toTerm = .ok v := by
  cases c with
  | status => exact Term.readStatus_name v
  | chainId => exact Term.readText_eq_ok_iff.mpr rfl
  | evmChainId | targetBlock | issuedAt => exact Term.readQuantity_encode v
  | txHash | signer | digest => exact Term.readIdentifier_toHex v
  | signature => exact Term.readSignature_toHex v
  | signers => exact Term.readList_of_ok Term.readIdentifier_toHex depth v
  | signatures => exact Term.readList_of_ok Term.readSignature_toHex depth v
  | threshold => exact Term.readWord32_eq_ok_iff.mpr rfl

end Column

theorem Draft.ext_get {d e : Draft} (h : ∀ c : Column, c.get d = c.get e) : d = e := by
  cases d
  cases e
  rw [Draft.mk.injEq]
  exact ⟨h .status, h .chainId, h .evmChainId, h .txHash, h .targetBlock, h .issuedAt, h .signer,
    h .digest, h .signature, h .signers, h .signatures, h .threshold⟩

end Receipt

end SoftConfirm
