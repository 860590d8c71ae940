import Mathlib.Algebra.Group.Nat.Defs
import SoftConfirm.Crypto.Ecdsa
import SoftConfirm.Receipt.Verification

namespace SoftConfirm

namespace Bytes

-- Writing a number on some bytes keeps as many of its lowest base-256 digits.
theorem toNat_bigEndian (count value : Nat) :
    toNat (bigEndian count value) = value % 256 ^ count := by
  induction count generalizing value with
  | zero => simp [bigEndian, toNat, Nat.mod_one]
  | succ count ih =>
      have low : (UInt8.ofNat value).toNat = value % 256 := by simp
      rw [bigEndian, toNat_append_singleton, ih, low, Nat.pow_succ,
        Nat.mul_comm (256 ^ count) 256, Nat.mod_mul]
      omega

theorem bigEndian_inj {count a b : Nat} (ha : a < 256 ^ count) (hb : b < 256 ^ count)
    (h : bigEndian count a = bigEndian count b) : a = b := by
  have hn := congrArg toNat h
  rwa [toNat_bigEndian, toNat_bigEndian, Nat.mod_eq_of_lt ha, Nat.mod_eq_of_lt hb] at hn

theorem bigEndian_word_inj {a b : UInt64} (h : bigEndian 8 a.toNat = bigEndian 8 b.toNat) :
    a = b := by
  have hbound : 2 ^ 64 = 256 ^ 8 := by decide
  exact UInt64.toNat_inj.mp (bigEndian_inj (hbound ▸ a.toNat_lt) (hbound ▸ b.toNat_lt) h)

theorem bigEndian_two {n : Nat} (hn : n < 256 ^ 2) :
    ∃ high low : UInt8, bigEndian 2 n = [high, low] ∧ high.toNat * 256 + low.toNat = n := by
  refine ⟨_, _, rfl, ?_⟩
  simp only [UInt8.toNat_ofNat']
  omega

end Bytes

theorem Status.modeByte_inj {s t : Status} (h : s.modeByte = t.modeByte) : s = t := by
  cases s <;> cases t <;> first | rfl | exact absurd h (by decide)

theorem Identifier.ext {kind : IdentifierKind} {a b : Identifier kind} (h : a.bytes = b.bytes) :
    a = b := by
  cases a
  cases b
  cases h
  rfl

namespace Payload

-- The name of a chain as verifiers compare it.
def normalName (chainId : String) : Bytes :=
  (Text.utf8 (if Text.trim chainId = "" then "unknown" else Text.trim chainId)).take 65535

-- What two payloads have to share to be attested by one signature.
structure Agrees (p q : Payload) : Prop where
  status : p.status = q.status
  chain : normalName p.chainId = normalName q.chainId
  evmChainId : p.evmChainId = q.evmChainId
  txHash : p.txHash = q.txHash
  targetBlock : p.targetBlock = q.targetBlock
  issuedAt : p.issuedAt = q.issuedAt

theorem chainIdBytes_eq (chainId : String) : chainIdBytes chainId = normalName chainId := by
  simp only [chainIdBytes, normalName, chainIdLimit, unnamedChain, String.isEmpty_iff]

theorem length_normalName_lt (chainId : String) : (normalName chainId).length < 256 ^ 2 := by
  have h := List.length_take_le 65535
    (Text.utf8 (if Text.trim chainId = "" then "unknown" else Text.trim chainId))
  exact Nat.lt_of_le_of_lt h (by decide)

-- The fields behind the chain name, all of them of fixed width.
def tail (p : Payload) : Bytes :=
  Bytes.bigEndian 8 p.evmChainId.toNat ++ (p.txHash.bytes ++
    (Bytes.bigEndian 8 p.targetBlock.toNat ++ Bytes.bigEndian 8 p.issuedAt.toNat))

theorem length_tail (p : Payload) : p.tail.length = 56 := by
  simp [tail, p.txHash.length_bytes, IdentifierKind.width]

theorem preimage_eq (p : Payload) :
    p.preimage = domain ++ ([p.status.modeByte] ++
      (Bytes.bigEndian 2 (normalName p.chainId).length ++ (normalName p.chainId ++ p.tail))) := by
  simp only [preimage, chainIdBytes_eq, tail, List.append_assoc]

theorem tail_inj {p q : Payload} (h : p.tail = q.tail) :
    p.evmChainId = q.evmChainId ∧ p.txHash = q.txHash ∧ p.targetBlock = q.targetBlock ∧
      p.issuedAt = q.issuedAt := by
  obtain ⟨hevm, h⟩ := List.append_inj h (by simp)
  obtain ⟨hhash, h⟩ := List.append_inj h (by simp [p.txHash.length_bytes, q.txHash.length_bytes])
  obtain ⟨htarget, hissued⟩ := List.append_inj h (by simp)
  exact ⟨Bytes.bigEndian_word_inj hevm, Identifier.ext hhash, Bytes.bigEndian_word_inj htarget,
    Bytes.bigEndian_word_inj hissued⟩

-- The length field stands before the name, so it settles where the name ends and no byte can pass
-- from the name into the fields behind it.
theorem preimage_inj {p q : Payload} (h : p.preimage = q.preimage) : p.Agrees q := by
  rw [preimage_eq, preimage_eq] at h
  have h := List.append_cancel_left h
  obtain ⟨hmode, h⟩ := List.append_inj h rfl
  obtain ⟨hcount, h⟩ := List.append_inj h (by simp)
  have hlen := Bytes.bigEndian_inj (length_normalName_lt p.chainId)
    (length_normalName_lt q.chainId) hcount
  obtain ⟨hname, htail⟩ := List.append_inj h hlen
  obtain ⟨hevm, hhash, htarget, hissued⟩ := tail_inj htail
  exact ⟨Status.modeByte_inj (List.singleton_inj.mp hmode), hname, hevm, hhash, htarget, hissued⟩

theorem Agrees.preimage_eq {p q : Payload} (h : p.Agrees q) : p.preimage = q.preimage := by
  simp only [Payload.preimage_eq, tail, h.status, h.chain, h.evmChainId, h.txHash, h.targetBlock,
    h.issuedAt]

-- Where one digest stands for payloads that do not agree, two messages have one hash.
theorem collision_of_digest_eq {p q : Payload} (hne : ¬ p.Agrees q) (h : p.digest = q.digest) :
    p.preimage ≠ q.preimage ∧ Keccak.hash p.preimage = Keccak.hash q.preimage :=
  ⟨fun hp => hne (preimage_inj hp), congrArg Identifier.bytes h⟩

end Payload

theorem Receipt.verify_of_digest_ne [SignatureScheme] {r : Receipt} (allowlist : List Address)
    (h : r.payload.digest ≠ r.digest) :
    r.verify allowlist = .error (.digestMismatch r.digest r.payload.digest) := by
  simp only [Receipt.verify, h, ne_eq, not_false_eq_true, ite_true]

namespace Payload

-- The signed bytes hold every attested field, and whoever puts other fields under a digest has
-- either found a collision of the hash or is refused.
theorem preimage_binds [SignatureScheme] (p q : Payload) :
    (p.preimage = q.preimage ↔ p.Agrees q) ∧
      (∃ high low : UInt8, ∃ rest : Bytes,
        p.preimage = Text.utf8 "YNX_TXCONFIRM_V0" ++
          ([p.status.modeByte] ++ ([high, low] ++ (normalName p.chainId ++ rest))) ∧
        high.toNat * 256 + low.toNat = (normalName p.chainId).length ∧ rest.length = 56) ∧
      ∀ (r : Receipt) (allowlist : List Address),
        r.digest = p.digest → r.payload = q → ¬ p.Agrees q →
          (p.preimage ≠ q.preimage ∧ Keccak.hash p.preimage = Keccak.hash q.preimage) ∨
            r.verify allowlist = .error (.digestMismatch p.digest q.digest) := by
  refine ⟨⟨preimage_inj, Agrees.preimage_eq⟩, ?_, ?_⟩
  · obtain ⟨high, low, hcount, hvalue⟩ := Bytes.bigEndian_two (length_normalName_lt p.chainId)
    refine ⟨high, low, p.tail, ?_, hvalue, length_tail p⟩
    rw [← hcount]
    exact Payload.preimage_eq p
  · rintro r allowlist hdigest rfl hne
    by_cases hd : p.digest = r.payload.digest
    · exact .inl (collision_of_digest_eq hne hd)
    · refine .inr ?_
      rw [← hdigest]
      exact Receipt.verify_of_digest_ne allowlist fun h => hd (hdigest.symm.trans h.symm)

-- A receipt that is moved from one block to the next is refused, unless the two messages collide.
theorem preimage_binds_targetBlock :
    let p : Payload := ⟨"", 0, .zero, .pending, 1, 0⟩
    let q : Payload := { p with targetBlock := 2 }
    let r : Receipt := ⟨q, p.digest, 0, ⟨.zero, ⟨[]⟩⟩, []⟩
    (r.digest = p.digest ∧ r.payload = q ∧ ¬ p.Agrees q) ∧
      ((p.preimage ≠ q.preimage ∧ Keccak.hash p.preimage = Keccak.hash q.preimage) ∨
        r.verify [] = .error (.digestMismatch p.digest q.digest)) := by
  intro p q r
  have hne : ¬ p.Agrees q := fun h => absurd h.targetBlock (by decide)
  exact ⟨⟨rfl, rfl, hne⟩, (preimage_binds p q).2.2 r [] rfl rfl hne⟩

end Payload

end SoftConfirm
