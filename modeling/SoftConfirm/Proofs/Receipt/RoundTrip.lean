import Mathlib.Data.List.Nodup
import SoftConfirm.Proofs.Json.Agreement
import SoftConfirm.Proofs.Receipt.Filling

namespace SoftConfirm

open Json (Origin Term memberTerm)

namespace Receipt

namespace Column

theorem legible_texts {α : Type} (spelled : α → String) (values : List α) :
    (Json.array (values.map fun value => .text (spelled value))).Legible := by
  refine .array fun item hitem => ?_
  obtain ⟨value, -, rfl⟩ := List.mem_map.mp hitem
  exact .text (spelled value)

theorem canonical_texts {α : Type} (spelled : α → String) (values : List α) :
    (Json.array (values.map fun value => .text (spelled value))).canonical =
      .array (values.map fun value => .text (spelled value)) := by
  rw [Json.canonical_array, List.map_map]
  simp only [Function.comp_def, Json.canonical_text]

theorem legible_write (c : Column) (v : c.Value) : (c.write v).Legible := by
  cases c with
  | status | chainId | evmChainId | targetBlock | issuedAt | txHash | signer | digest | signature =>
      exact .text _
  | signers => exact legible_texts Identifier.toHex v
  | signatures => exact legible_texts Signature.toHex v
  | threshold =>
      have hlt := UInt32.toNat_lt v
      exact .integer (by omega) (by omega)

theorem fits_texts {α : Type} (spelled : α → String) (depth : Nat) (values : List α) :
    (Json.array (values.map fun value => .text (spelled value))).Fits (depth + 1) := by
  refine .array fun item hitem => ?_
  obtain ⟨value, -, rfl⟩ := List.mem_map.mp hitem
  exact .text depth (spelled value)

theorem fits_write (c : Column) (v : c.Value) (depth : Nat) : (c.write v).Fits (depth + 1) := by
  cases c with
  | status | chainId | evmChainId | targetBlock | issuedAt | txHash | signer | digest | signature =>
      exact .text _ _
  | signers => exact fits_texts Identifier.toHex depth v
  | signatures => exact fits_texts Signature.toHex depth v
  | threshold => exact .number _ _

theorem canonical_write (c : Column) (v : c.Value) : (c.write v).canonical = c.write v := by
  cases c with
  | status | chainId | evmChainId | targetBlock | issuedAt | txHash | signer | digest | signature =>
      exact Json.canonical_text _
  | signers => exact canonical_texts Identifier.toHex v
  | signatures => exact canonical_texts Signature.toHex v
  | threshold => exact Json.canonical_number _

end Column

namespace Draft

-- The members that a draft is written as, one for each column that has a value.
def written (d : Draft) : List (String × Json) :=
  Column.all.filterMap fun c => (c.get d).map fun v => (c.name, c.write v)

theorem mem_written {d : Draft} {m : String × Json} :
    m ∈ d.written ↔ ∃ (c : Column) (v : c.Value), c.get d = some v ∧ m = (c.name, c.write v) := by
  simp only [written, List.mem_filterMap, Option.map_eq_some_iff]
  constructor
  · rintro ⟨c, -, v, hv, rfl⟩
    exact ⟨c, v, hv, rfl⟩
  · rintro ⟨c, v, hv, rfl⟩
    exact ⟨c, c.mem_all, v, hv, rfl⟩

theorem nodup_written_keys (d : Draft) : (d.written.map (·.1)).Nodup := by
  have hall : Column.all.Nodup := by decide
  rw [List.Nodup, List.pairwise_map, written, List.pairwise_filterMap]
  refine hall.imp fun hne m hm m' hm' hname => hne (Column.name_injective ?_)
  obtain ⟨v, -, rfl⟩ := Option.map_eq_some_iff.mp hm
  obtain ⟨v', -, rfl⟩ := Option.map_eq_some_iff.mp hm'
  exact hname

-- However the written members are ordered, they are read back as the draft.
theorem read_written {d : Draft} {members : List (String × Json)}
    (hperm : members.Perm d.written) (origin : Origin) (depth : Nat) :
    shape.read origin (depth + 2) (Json.object members).toTerm = shape.conclude d := by
  have hkeys : (members.map (·.1)).Nodup :=
    (hperm.map (·.1)).nodup_iff.mpr d.nodup_written_keys
  have hnames : ∀ name, (members.map (·.1)).count name ≤ 1 := List.nodup_iff_count_le_one.mp hkeys
  have hreading : ∀ c : Column,
      c.reading (depth + 1) {} (memberTerms members) = .ok (c.get d) := by
    intro c
    have hlookup := lookup_memberTerms members c.name
    cases hget : c.get d with
    | some v =>
        have hmem := hperm.mem_iff.mpr (mem_written.mpr ⟨c, v, hget, rfl⟩)
        rw [(Json.lookup_eq_some_iff_mem (hnames c.name)).mpr hmem] at hlookup
        rw [Column.reading_of_lookup_some hlookup, c.read_write v depth]
        rfl
    | none =>
        have habsent : c.name ∉ members.map (·.1) := by
          intro hname
          obtain ⟨m, hm, hname⟩ := List.mem_map.mp hname
          obtain ⟨c', v, hv, rfl⟩ := mem_written.mp (hperm.mem_iff.mp hm)
          obtain rfl := Column.name_injective hname
          rw [hget] at hv
          exact absurd hv nofun
        rw [Json.lookup_eq_none_iff_notMem.mpr habsent] at hlookup
        rw [Column.reading_of_lookup_none hlookup, c.get_blank]
  have hfold := (foldlM_memberTerms_eq_ok_iff fun c => hnames c.name).mpr hreading
  rw [toTerm_object, Json.Shape.read_object_closed]
  exact congrArg (· >>= shape.conclude) hfold

-- A receipt's draft: all columns but a threshold that says nothing.
def ofReceipt (r : Receipt) : Draft where
  status := some r.payload.status
  chainId := some r.payload.chainId
  evmChainId := some r.payload.evmChainId
  txHash := some r.payload.txHash
  targetBlock := some r.payload.targetBlock
  issuedAt := some r.payload.issuedAt
  signer := some r.primary.signer
  digest := some r.digest
  signature := some r.primary.signature
  signers := some r.signers
  signatures := some (r.entries.map (·.signature))
  threshold := if r.threshold = 0 then none else some r.threshold

-- A receipt is written as its draft.
theorem toJson_eq (r : Receipt) : r.toJson = .object (ofReceipt r).written := by
  have hsigners : r.entries.map (fun e => Json.text e.signer.toHex) =
      r.signers.map fun address => .text address.toHex := by
    rw [Receipt.signers, List.map_map]
    rfl
  have hsignatures : r.entries.map (fun e => Json.text e.signature.toHex) =
      (r.entries.map (·.signature)).map fun signature => .text signature.toHex := by
    rw [List.map_map]
    rfl
  by_cases h : r.threshold = 0
  · simp only [toJson, if_pos h, hsigners, hsignatures, ofReceipt]
    rfl
  · simp only [toJson, if_neg h, hsigners, hsignatures, ofReceipt]
    rfl

theorem zipWith_mk (entries : List Entry) :
    List.zipWith Entry.mk (entries.map (·.signer)) (entries.map (·.signature)) = entries := by
  induction entries with
  | nil => rfl
  | cons entry entries ih => rw [List.map_cons, List.map_cons, List.zipWith_cons_cons, ih]

theorem pairUp_entries (r : Receipt) :
    pairUp ⟨r.primary.signer, r.primary.signature⟩ r.signers (r.entries.map (·.signature)) =
      .ok r.entries := by
  have hlength : r.signers.length = (r.entries.map (·.signature)).length := by
    rw [Receipt.signers, List.length_map, List.length_map]
  rw [pairUp, if_neg (not_not_intro hlength), Receipt.signers, zipWith_mk]
  exact if_pos rfl

theorem toReceipt_ofReceipt (r : Receipt) : (ofReceipt r).toReceipt = .ok r := by
  have hthreshold : (ofReceipt r).threshold.getD 0 = r.threshold := by
    by_cases h : r.threshold = 0
    · simp only [ofReceipt, if_pos h, Option.getD_none]
      exact h.symm
    · simp only [ofReceipt, if_neg h, Option.getD_some]
  simp only [toReceipt, hthreshold]
  simp only [ofReceipt, Json.need, bind, Except.bind, Option.getD_some, pairUp_entries]
  rfl

end Draft

theorem legible_toJson (r : Receipt) : r.toJson.Legible := by
  rw [Draft.toJson_eq]
  refine .object fun m hm => ?_
  obtain ⟨c, v, -, rfl⟩ := Draft.mem_written.mp hm
  exact c.legible_write v

theorem fits_toJson (r : Receipt) (depth : Nat) : r.toJson.Fits (depth + 2) := by
  rw [Draft.toJson_eq]
  refine .object fun m hm => ?_
  obtain ⟨c, v, -, rfl⟩ := Draft.mem_written.mp hm
  exact c.fits_write v depth

theorem canonical_toJson (r : Receipt) :
    r.toJson.canonical = .object (Json.sortMembers (Draft.ofReceipt r).written) := by
  have hmembers : ∀ m ∈ (Draft.ofReceipt r).written, (m.1, m.2.canonical) = m := by
    intro m hm
    obtain ⟨c, v, -, rfl⟩ := Draft.mem_written.mp hm
    rw [c.canonical_write]
  rw [Draft.toJson_eq, Json.canonical_object, List.map_congr_left hmembers, List.map_id']

theorem ofTerm_of_perm {r : Receipt} {members : List (String × Json)}
    (hperm : members.Perm (Draft.ofReceipt r).written) (origin : Origin) :
    ofTerm origin (Json.object members).toTerm = .ok r := by
  rw [ofTerm, Json.nestingLimit, Draft.read_written hperm origin 125, Json.Shape.conclude,
    show Draft.shape.finish = Draft.toReceipt from rfl, Draft.toReceipt_ofReceipt]

theorem ofText_render (r : Receipt) : ofText r.toJson.render = .ok r := by
  rw [ofText, r.legible_toJson.readDocument_render, Draft.toJson_eq]
  exact ofTerm_of_perm (List.Perm.refl _) .text

theorem ofText_render_canonical (r : Receipt) : ofText r.toJson.canonical.render = .ok r := by
  rw [ofText, r.legible_toJson.canonical.readDocument_render, canonical_toJson]
  exact ofTerm_of_perm (Json.sortMembers_perm (Draft.nodup_written_keys _)) .text

-- Whatever parts a receipt is made of, both texts that are written of it hold exactly that
-- receipt, and whoever reads one of them and writes it again writes the same text.
theorem wire_round_trip (payload : Payload) (digest : Digest) {entries : List Entry}
    (hentries : entries ≠ []) (threshold : UInt32) :
    ∃ r, ofEntries payload digest entries threshold = .ok r ∧
      (r.payload = payload ∧ r.digest = digest ∧ r.entries = entries ∧ r.threshold = threshold) ∧
      (ofText r.toJson.render = .ok r ∧ ofText r.toJson.canonical.render = .ok r) ∧
      (ofText r.toJson.render).map (fun back => back.toJson.render) = .ok r.toJson.render ∧
      (ofText r.toJson.canonical.render).map (fun back => back.toJson.canonical.render) =
        .ok r.toJson.canonical.render := by
  obtain ⟨primary, others, rfl⟩ := List.exists_cons_of_ne_nil hentries
  have hplain := ofText_render ⟨payload, digest, threshold, primary, others⟩
  have hsorted := ofText_render_canonical ⟨payload, digest, threshold, primary, others⟩
  refine ⟨⟨payload, digest, threshold, primary, others⟩, rfl, ⟨rfl, rfl, rfl, rfl⟩,
    ⟨hplain, hsorted⟩, ?_, ?_⟩
  · rw [hplain]
    rfl
  · rw [hsorted]
    rfl

-- A name with a quote, a line break and a control character in it, the greatest quantity, an
-- empty signature, one signer twice and no threshold.
theorem wire_round_trip_awkward :
    ∃ r, ofEntries ⟨"\"é\n\x01\\", 0xFFFFFFFFFFFFFFFF, .zero, .included, 0, 1⟩ .zero
        [⟨.zero, ⟨[]⟩⟩, ⟨.zero, ⟨[255]⟩⟩] 0 = .ok r ∧
      (ofText r.toJson.render = .ok r ∧ ofText r.toJson.canonical.render = .ok r) := by
  obtain ⟨r, hr, -, hread, -⟩ :=
    wire_round_trip ⟨"\"é\n\x01\\", 0xFFFFFFFFFFFFFFFF, .zero, .included, 0, 1⟩ .zero
      (List.cons_ne_nil (⟨.zero, ⟨[]⟩⟩ : Entry) [⟨.zero, ⟨[255]⟩⟩]) 0
  exact ⟨r, hr, hread⟩

end Receipt

end SoftConfirm
