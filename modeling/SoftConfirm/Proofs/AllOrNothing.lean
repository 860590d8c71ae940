import SoftConfirm.Proofs.Receipt.Entries
import SoftConfirm.Proofs.Resolving

namespace SoftConfirm

variable {α β σ ω : Type}

-- What a signer was given to sign, and what it answered.
structure Signing where
  signer : Signer
  digest : Digest
  answer : Except SigningError Signature

def Exchange.signing? : Exchange → Option Signing
  | ⟨.sign signer digest, answer⟩ => some ⟨signer, digest, answer⟩
  | _ => none

-- The call that takes the active set, and a check that interrupts nothing.
def Exchange.taken (active : Option SignerSet) : Exchange := ⟨.signers, active⟩

def Exchange.passed : Exchange := ⟨.check, none⟩

-- The calls for one signature.
def Exchange.signing (signer : Signer) (digest : Digest)
    (answer : Except SigningError Signature) : List Exchange :=
  [passed, ⟨.sign signer digest, answer⟩]

namespace Program

end Program

namespace Attempt

variable {answer : Surroundings σ}

-- An attempt goes on where the one before it has ended, unless that one has failed.
theorem trace_bind (attempt : Attempt α) (f : α → Attempt β) (s : σ) :
    (attempt >>= f).run.trace answer s =
      attempt.run.trace answer s ++
        match attempt.run.run answer s with
        | (.ok value, t) => (f value).run.trace answer t
        | (.error _, _) => [] := by
  rw [run_bind, Program.trace_bind]
  rcases attempt.run.run answer s with ⟨e | value, t⟩
  · rfl
  · rfl

variable {kinds : Call → Prop}

end Attempt

namespace Issuance

-- Signers that have all signed a digest, each once and in their order.
def allSigned (digest : Digest) : List Signer → List Signature → List Signing :=
  List.zipWith fun signer signature => ⟨signer, digest, .ok signature⟩

-- The entries that pair signers with their own signatures.
def pairedEntries : List Signer → List Signature → List Entry :=
  List.zipWith fun signer signature => ⟨signer.address, signature⟩

-- What signers were given, in their order, up to the one that failed.
def FailsAt (digest : Digest) (signers : List Signer) (signings : List Signing)
    (cause : SigningError) : Prop :=
  ∃ (signed : List Signer) (failing : Signer) (spared : List Signer)
    (signatures : List Signature),
    signers = signed ++ failing :: spared ∧ signatures.length = signed.length ∧
      signings = allSigned digest signed signatures ++ [⟨failing, digest, .error cause⟩]

-- How signers go about a digest: they ask no collaborator, and all of them sign it in their order,
-- or the first that fails ends it.
structure InOrder (digest : Digest) (signers : List Signer)
    (course : List Exchange × Except IssueError (List Entry)) : Prop where
  quiet : course.1.filterMap Exchange.inquiry? = []
  signed :
    (∃ signatures : List Signature, signatures.length = signers.length ∧
        course.1.filterMap Exchange.signing? = allSigned digest signers signatures ∧
        course.2 = .ok (pairedEntries signers signatures)) ∨
      ∃ cause, course.2 = .error (.signing cause) ∧
        FailsAt digest signers (course.1.filterMap Exchange.signing?) cause

theorem InOrder.nil (digest : Digest) : InOrder digest [] ([], .ok []) where
  quiet := rfl
  signed := .inl ⟨[], rfl, rfl, rfl⟩

theorem InOrder.refused (digest : Digest) (signer : Signer) (spared : List Signer)
    (cause : SigningError) :
    InOrder digest (signer :: spared)
      (Exchange.signing signer digest (.error cause), .error (.signing cause)) where
  quiet := rfl
  signed := .inr ⟨cause, rfl, [], signer, spared, [], rfl, rfl, rfl⟩

theorem InOrder.cons {digest : Digest} {signers : List Signer}
    {course : List Exchange × Except IssueError (List Entry)} (h : InOrder digest signers course)
    (signer : Signer) (signature : Signature) :
    InOrder digest (signer :: signers)
      (Exchange.signing signer digest (.ok signature) ++ course.1,
        course.2.map (⟨signer.address, signature⟩ :: ·)) where
  quiet := h.quiet
  signed := by
    have hlonger : (Exchange.signing signer digest (.ok signature) ++ course.1).filterMap
        Exchange.signing? =
          ⟨signer, digest, .ok signature⟩ :: course.1.filterMap Exchange.signing? := rfl
    rw [hlonger]
    rcases h.signed with ⟨signatures, hcount, hsignings, houtcome⟩ |
      ⟨cause, houtcome, signed, failing, spared, signatures, rfl, hcount, hsignings⟩
    · refine .inl ⟨signature :: signatures, congrArg Nat.succ hcount, ?_, ?_⟩
      · rw [hsignings]
        rfl
      · rw [houtcome]
        rfl
    · refine .inr ⟨cause, ?_, signer :: signed, failing, spared, signature :: signatures, rfl,
        congrArg Nat.succ hcount, ?_⟩
      · rw [houtcome]
        rfl
      · rw [hsignings]
        rfl

end Issuance

namespace Conduct

variable {c : Conduct ω} {active : Option SignerSet}

-- All the calls of an attempt that nothing interrupts, and what it comes to.
def course (c : Conduct ω) (active : Option SignerSet) (attempt : Attempt α) (s : Clocked ω) :
    List Exchange × Except IssueError α :=
  (attempt.run.trace (c.under active .never) s, (attempt.run.run (c.under active .never) s).1)

end Conduct

end SoftConfirm
