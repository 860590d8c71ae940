import SoftConfirm.Crypto.Scheme
import SoftConfirm.Crypto.Sha256

/-!
ECDSA with public-key recovery. Nonces come from the message and the key alone (RFC 6979), and
the second scalar of a signature is at most half the order.
-/

namespace SoftConfirm.Ecdsa

open Secp256k1

-- The state of the deterministic byte generator.
structure Generator where
  key : Bytes
  value : Bytes

namespace Generator

-- Mixes a separator byte and seed bytes into the generator.
def reseed (g : Generator) (separator : UInt8) (seed : Bytes) : Generator :=
  let key := Sha256.keyedHash g.key (g.value ++ separator :: seed)
  ⟨key, Sha256.keyedHash key g.value⟩

def ofSeed (seed : Bytes) : Generator :=
  let start : Generator := ⟨List.replicate 32 0, List.replicate 32 1⟩
  (start.reseed 0 seed).reseed 1 seed

-- The next 32 bytes are the value of the generator that this gives.
def next (g : Generator) : Generator := { g with value := Sha256.keyedHash g.key g.value }

end Generator

-- The two scalars of a signature and its recovery number.
structure Parts where
  r : Nat
  s : Nat
  recovery : Nat
  deriving DecidableEq, Repr

-- The signature that a nonce gives, unless the nonce or one of the scalars is unusable.
def signWith? (secret message nonce : Nat) : Option Parts :=
  if nonce = 0 ∨ order ≤ nonce then none
  else
    match (Jacobian.multiply nonce (.ofPoint generator)).toPoint? with
    | none => none
    | some p =>
        let r := p.x % order
        let s := inverseMod order nonce * ((message + r * secret) % order) % order
        if r = 0 ∨ s = 0 then none
        else
          let recovery := (if order ≤ p.x then 2 else 0) + p.y % 2
          if order / 2 < s then some ⟨r, order - s, recovery ^^^ 1⟩
          else some ⟨r, s, recovery⟩

-- Tries the generator's values in turn. A value fails with negligible probability.
def signFrom (secret message : Nat) : (attempts : Nat) → Generator → Parts
  | 0, _ => ⟨0, 0, 0⟩
  | attempts + 1, g =>
      match signWith? secret message (Bytes.toNat g.value) with
      | some parts => parts
      | none => signFrom secret message attempts (g.reseed 0 []).next

def attempts : Nat := 256

def Parts.compact (parts : Parts) : CompactSignature :=
  ⟨Bytes.bigEndian 32 parts.r ++ Bytes.bigEndian 32 parts.s, by simp⟩

def sign (secret : SecretKey) (digest : Digest) : CompactSignature × UInt8 :=
  let message := Bytes.toNat digest.bytes % order
  let seed := secret.toBytes ++ Bytes.bigEndian 32 message
  let parts := signFrom secret.scalar message attempts (Generator.ofSeed seed).next
  (parts.compact, UInt8.ofNat parts.recovery)

-- The public key `(s R - m G) / r`, where `R` is the point whose first coordinate is `r`.
def recover (digest : Digest) (signature : CompactSignature) (odd : Bool) : Option PublicKey :=
  let r := Bytes.toNat (signature.bytes.take 32)
  let s := Bytes.toNat (signature.bytes.drop 32)
  if r = 0 ∨ order ≤ r ∨ s = 0 ∨ order ≤ s then none
  else
    match liftX r odd with
    | none => none
    | some p =>
        let inverse := inverseMod order r
        let message := Bytes.toNat digest.bytes % order
        let onGenerator := (order - message) % order * inverse % order
        let onPoint := s * inverse % order
        (Jacobian.add (.multiply onGenerator (.ofPoint generator))
          (.multiply onPoint (.ofPoint p))).toPoint?

-- The public point of a secret. A valid secret never gives the neutral element.
def publicKey (secret : SecretKey) : PublicKey :=
  ((Jacobian.multiply secret.scalar (.ofPoint generator)).toPoint?).getD generator

instance : SignatureScheme where
  publicKey := publicKey
  sign := sign
  recover := recover

end SoftConfirm.Ecdsa
