import Mathlib.Data.List.Nodup
import SoftConfirm.Proofs.Receipt.Entries
import SoftConfirm.Proofs.Receipt.Filling
import SoftConfirm.Proofs.Spelling

namespace SoftConfirm

namespace Json.Term

variable {value : Json}

theorem readIdentifier_eq_ok_iff {kind : IdentifierKind} {id : Identifier kind} :
    readIdentifier value.toTerm = .ok id ↔ ∃ s, value = .text s ∧ Hex.Spells s id.bytes := by
  simp only [readIdentifier, readSpelled_eq_ok_iff, mapError_eq_ok_iff,
    Identifier.ofHex_eq_ok_iff]

theorem readQuantity_eq_ok_iff {quantity : UInt64} :
    readQuantity value.toTerm = .ok quantity ↔
      ∃ s, value = .text s ∧ Quantity.decode s = .ok quantity := by
  simp only [readQuantity, readSpelled_eq_ok_iff, mapError_eq_ok_iff]

theorem readSignature_eq_ok_iff {signature : Signature} :
    readSignature value.toTerm = .ok signature ↔
      ∃ s, value = .text s ∧ Hex.Spells s signature.bytes := by
  rw [readSignature, readSpelled_eq_ok_iff]
  refine exists_congr fun s => and_congr_right fun _ => ?_
  rw [← Signature.ofHex?_eq_some_iff]
  cases Signature.ofHex? s <;> simp

theorem readStatus_eq_ok_iff {status : Status} :
    readStatus value.toTerm = .ok status ↔ ∃ s, value = .text s ∧ status.Spells s := by
  rw [readStatus, readSpelled_eq_ok_iff]
  refine exists_congr fun s => and_congr_right fun _ => ?_
  rw [← Status.ofText?_eq_some_iff]
  cases Status.ofText? s <;> simp

-- Texts that are read one by one stand in an array of texts.
theorem readList_text_eq_ok_iff {α : Type} {depth : Nat} {item : Term → Reading α}
    {spells : String → α → Prop} {values : List α}
    (h : ∀ (held : Json) (read : α),
      item held.toTerm = .ok read ↔ ∃ s, held = .text s ∧ spells s read) :
    readList (depth + 1) item value.toTerm = .ok values ↔
      ∃ texts : List String, value = .array (texts.map .text) ∧
        List.Forall₂ spells texts values := by
  simp only [readList_eq_ok_iff, h]
  constructor
  · rintro ⟨items, rfl, hitems⟩
    induction hitems with
    | nil => exact ⟨[], rfl, .nil⟩
    | cons hitem _ ih =>
        obtain ⟨s, rfl, hs⟩ := hitem
        obtain ⟨texts, heq, htexts⟩ := ih
        obtain rfl := Json.array.inj heq
        exact ⟨s :: texts, rfl, .cons hs htexts⟩
  · rintro ⟨texts, rfl, htexts⟩
    refine ⟨texts.map .text, rfl, ?_⟩
    rw [List.forall₂_map_left_iff]
    exact htexts.imp fun s value hs => ⟨s, rfl, hs⟩

end Json.Term

namespace Receipt

open Json (Reading Term)

namespace Column

-- The values that say this in a column.
def Says : (c : Column) → c.Value → Json → Prop
  | status, v, value => ∃ s, value = .text s ∧ Status.Spells v s
  | chainId, v, value => value = .text v
  | evmChainId, v, value | targetBlock, v, value | issuedAt, v, value =>
      ∃ s, value = .text s ∧ Quantity.decode s = .ok v
  | txHash, v, value | signer, v, value | digest, v, value =>
      ∃ s, value = .text s ∧ Hex.Spells s (Identifier.bytes v)
  | signature, v, value => ∃ s, value = .text s ∧ Hex.Spells s (Signature.bytes v)
  | signers, v, value =>
      ∃ texts : List String, value = .array (texts.map .text) ∧
        List.Forall₂ (fun s address => Hex.Spells s (Identifier.bytes address)) texts v
  | signatures, v, value =>
      ∃ texts : List String, value = .array (texts.map .text) ∧
        List.Forall₂ (fun s signature => Hex.Spells s (Signature.bytes signature)) texts v
  | threshold, v, value => value = .number (.integer (UInt32.toNat v))

-- What an object gives in a column, if it has a member of that name.
def Given (c : Column) (members : List (String × Json)) : Option c.Value → Prop
  | none => members.lookup c.name = none
  | some v => ∃ value, members.lookup c.name = some value ∧ c.Says v value

variable {c : Column} {members : List (String × Json)}

theorem read_eq_ok_iff (depth : Nat) {v : c.Value} {value : Json} :
    c.read (depth + 1) value.toTerm = .ok v ↔ c.Says v value := by
  cases c with
  | status => exact Term.readStatus_eq_ok_iff
  | chainId => exact Term.readText_eq_ok_iff
  | evmChainId | targetBlock | issuedAt => exact Term.readQuantity_eq_ok_iff
  | txHash | signer | digest => exact Term.readIdentifier_eq_ok_iff
  | signature => exact Term.readSignature_eq_ok_iff
  | signers => exact Term.readList_text_eq_ok_iff fun _ _ => Term.readIdentifier_eq_ok_iff
  | signatures => exact Term.readList_text_eq_ok_iff fun _ _ => Term.readSignature_eq_ok_iff
  | threshold => exact Term.readWord32_eq_ok_iff

theorem reading_eq_ok_iff (depth : Nat) {given : Option c.Value} :
    c.reading (depth + 1) {} (memberTerms members) = .ok given ↔ c.Given members given := by
  unfold reading
  rw [lookup_memberTerms, get_blank]
  cases hlookup : members.lookup c.name with
  | none =>
      cases given with
      | none => simp [Given, hlookup]
      | some v => simp [Given, hlookup]
  | some value =>
      cases given with
      | none =>
          refine ⟨fun h => ?_, fun h => absurd (hlookup.symm.trans h) nofun⟩
          cases hread : c.read (depth + 1) value.toTerm with
          | ok v => simp [hread, Except.map] at h
          | error fault => simp [hread, Except.map] at h
      | some v =>
          simp only [Given, hlookup, Option.map_some, Option.some.injEq, exists_eq_left',
            ← read_eq_ok_iff depth]
          cases c.read (depth + 1) value.toTerm <;> simp [Except.map]

end Column

variable {members : List (String × Json)} {r : Receipt}

-- The lists that hold the entries of a receipt. They may be empty if there is only the primary one.
structure Lists (r : Receipt) (signers : List Address) (signatures : List Signature) : Prop where
  length : signers.length = signatures.length
  signer : ∀ first ∈ signers.head?, first = r.primary.signer
  signature : ∀ first ∈ signatures.head?, first = r.primary.signature
  entries : r.entries =
    if signers = [] then [r.primary] else List.zipWith Entry.mk signers signatures

theorem pairUp_eq_ok_iff_lists {signers : List Address} {signatures : List Signature} :
    Draft.pairUp r.primary signers signatures = .ok r.entries ↔ r.Lists signers signatures := by
  rw [Draft.pairUp_eq_ok_iff]
  constructor
  · rintro ⟨hlength, -, hentries⟩
    cases signers with
    | nil =>
        obtain rfl := List.length_eq_zero_iff.mp hlength.symm
        exact ⟨hlength, nofun, nofun, hentries⟩
    | cons signer signers =>
        obtain ⟨signature, signatures, rfl⟩ := List.exists_cons_of_length_eq_add_one hlength.symm
        have hprimary : r.primary = ⟨signer, signature⟩ := (List.cons_eq_cons.mp hentries).1
        refine ⟨hlength, ?_, ?_, hentries⟩
        · rintro _ ⟨⟩
          rw [hprimary]
        · rintro _ ⟨⟩
          rw [hprimary]
  · exact fun h => ⟨h.length, rfl, h.entries⟩

-- What the members of an object say when they describe a receipt. Lists that are left out are
-- empty, and a threshold that is left out is zero.
structure Describes (members : List (String × Json)) (r : Receipt) : Prop where
  status : Column.status.Given members (some r.payload.status)
  chainId : Column.chainId.Given members (some r.payload.chainId)
  evmChainId : Column.evmChainId.Given members (some r.payload.evmChainId)
  txHash : Column.txHash.Given members (some r.payload.txHash)
  targetBlock : Column.targetBlock.Given members (some r.payload.targetBlock)
  issuedAt : Column.issuedAt.Given members (some r.payload.issuedAt)
  signer : Column.signer.Given members (some r.primary.signer)
  digest : Column.digest.Given members (some r.digest)
  signature : Column.signature.Given members (some r.primary.signature)
  lists : ∃ (signers : Option (List Address)) (signatures : Option (List Signature)),
    Column.signers.Given members signers ∧ Column.signatures.Given members signatures ∧
      r.Lists (signers.getD []) (signatures.getD [])
  threshold : ∃ threshold : Option UInt32,
    Column.threshold.Given members threshold ∧ threshold.getD 0 = r.threshold

-- An object describes a receipt if the draft that its members give amounts to it.
theorem describes_iff :
    Describes members r ↔ ∃ d : Draft, (∀ c : Column, c.Given members (c.get d)) ∧ d.Holds r := by
  constructor
  · intro h
    obtain ⟨signers, signatures, hsigners, hsignatures, hlists⟩ := h.lists
    obtain ⟨threshold, hthreshold, hvalue⟩ := h.threshold
    refine ⟨⟨r.payload.status, r.payload.chainId, r.payload.evmChainId, r.payload.txHash,
      r.payload.targetBlock, r.payload.issuedAt, r.primary.signer, r.digest, r.primary.signature,
      signers, signatures, threshold⟩, ?_, ?_⟩
    · intro c
      cases c with
      | status => exact h.status
      | chainId => exact h.chainId
      | evmChainId => exact h.evmChainId
      | txHash => exact h.txHash
      | targetBlock => exact h.targetBlock
      | issuedAt => exact h.issuedAt
      | signer => exact h.signer
      | digest => exact h.digest
      | signature => exact h.signature
      | signers => exact hsigners
      | signatures => exact hsignatures
      | threshold => exact hthreshold
    · exact ⟨rfl, rfl, rfl, rfl, rfl, rfl, rfl, rfl, rfl, pairUp_eq_ok_iff_lists.mpr hlists, hvalue⟩
  · rintro ⟨d, hgiven, hd⟩
    constructor
    case status => exact hd.status ▸ hgiven .status
    case chainId => exact hd.chainId ▸ hgiven .chainId
    case evmChainId => exact hd.evmChainId ▸ hgiven .evmChainId
    case txHash => exact hd.txHash ▸ hgiven .txHash
    case targetBlock => exact hd.targetBlock ▸ hgiven .targetBlock
    case issuedAt => exact hd.issuedAt ▸ hgiven .issuedAt
    case signer => exact hd.signer ▸ hgiven .signer
    case digest => exact hd.digest ▸ hgiven .digest
    case signature => exact hd.signature ▸ hgiven .signature
    case lists =>
      exact ⟨d.signers, d.signatures, hgiven .signers, hgiven .signatures,
        pairUp_eq_ok_iff_lists.mp hd.entries⟩
    case threshold => exact ⟨d.threshold, hgiven .threshold, hd.threshold⟩

theorem ofJson_object_eq_ok_iff (hnames : ∀ c : Column, (members.map (·.1)).count c.name ≤ 1) :
    ofJson (.object members) = .ok r ↔ Describes members r := by
  have hread : ofJson (.object members) = (keyed (memberTerms members)).foldlM
      (Draft.shape.readMember 126 .closed) {} >>= Draft.shape.conclude := by
    rw [ofJson, ofTerm, toTerm_object]
    rfl
  rw [hread, describes_iff]
  simp only [← Column.reading_eq_ok_iff 125, ← foldlM_memberTerms_eq_ok_iff hnames,
    ← Draft.toReceipt_eq_ok_iff]
  constructor
  · intro h
    obtain ⟨d, hfilled, h⟩ := exists_of_bind_eq_ok h
    exact ⟨d, hfilled, Json.Shape.conclude_eq_ok_iff.mp h⟩
  · rintro ⟨d, hfilled, hd⟩
    rw [hfilled]
    exact Json.Shape.conclude_eq_ok_iff.mpr hd

-- The members of an object with the two lists after them.
def withLists (members : List (String × Json)) (signers signatures : List Json) :
    List (String × Json) :=
  members ++ [("signers", .array signers), ("signatures", .array signatures)]

section

variable {signers signatures : List Json}

theorem lookup_withLists_of_ne {c : Column} (hsigners : c ≠ .signers)
    (hsignatures : c ≠ .signatures) :
    (withLists members signers signatures).lookup c.name = members.lookup c.name := by
  rw [withLists, List.lookup_append,
    Json.lookup_cons_of_ne fun h => hsigners (Column.name_injective h),
    Json.lookup_cons_of_ne fun h => hsignatures (Column.name_injective h), List.lookup_nil,
    Option.or_none]

theorem lookup_signers_withLists (h : members.lookup "signers" = none) :
    (withLists members signers signatures).lookup Column.signers.name = some (.array signers) := by
  rw [withLists, List.lookup_append, Column.name, h]
  rfl

theorem lookup_signatures_withLists (h : members.lookup "signatures" = none) :
    (withLists members signers signatures).lookup Column.signatures.name =
      some (.array signatures) := by
  rw [withLists, List.lookup_append, Column.name, h]
  rfl

theorem count_withLists_le {c : Column} (hsigners : members.lookup "signers" = none)
    (hsignatures : members.lookup "signatures" = none)
    (h : (members.map (·.1)).count c.name ≤ 1) :
    ((withLists members signers signatures).map (·.1)).count c.name ≤ 1 := by
  rw [Json.lookup_eq_none_iff_notMem, ← List.count_eq_zero] at hsigners hsignatures
  rw [withLists, List.map_append, List.count_append]
  cases c with
  | signers => simp [Column.name, hsigners]
  | signatures => simp [Column.name, hsignatures]
  | status | chainId | evmChainId | txHash | targetBlock | issuedAt | signer | digest | signature
  | threshold => simpa [Column.name] using h

end

theorem Lists.nil {signers : List Address} {signatures : List Signature}
    (h : r.Lists signers signatures) (hlength : signers.length ≤ 1) : r.Lists [] [] := by
  refine ⟨rfl, nofun, nofun, ?_⟩
  have hentries := h.entries
  rw [if_pos rfl]
  split at hentries
  · exact hentries
  · have hone : r.entries.length ≤ 1 := by
      rw [hentries, List.length_zipWith]
      omega
    have hnone : r.others = [] := by
      rw [Receipt.entries, List.length_cons] at hone
      exact List.length_eq_zero_iff.mp (by omega)
    rw [Receipt.entries, hnone]

theorem Lists.singleton (h : r.Lists [] []) :
    r.Lists [r.primary.signer] [r.primary.signature] := by
  refine ⟨rfl, ?_, ?_, h.entries⟩
  · rintro _ ⟨⟩
    rfl
  · rintro _ ⟨⟩
    rfl

-- Only the lists of a description look at the two list members.
theorem Describes.of_lookup_eq {others : List (String × Json)} (h : Describes members r)
    (hsame : ∀ c : Column, c ≠ .signers → c ≠ .signatures →
      others.lookup c.name = members.lookup c.name)
    (hlists : ∃ (signers : Option (List Address)) (signatures : Option (List Signature)),
      Column.signers.Given others signers ∧ Column.signatures.Given others signatures ∧
        r.Lists (signers.getD []) (signatures.getD [])) :
    Describes others r := by
  have hgiven : ∀ c : Column, c ≠ .signers → c ≠ .signatures →
      c.Given others = c.Given members := by
    intro c hsigners hsignatures
    funext given
    cases given with
    | none => rw [Column.Given, Column.Given, hsame c hsigners hsignatures]
    | some v => rw [Column.Given, Column.Given, hsame c hsigners hsignatures]
  constructor
  case lists => exact hlists
  case threshold =>
    rw [hgiven .threshold nofun nofun]
    exact h.threshold
  case status => exact hgiven .status nofun nofun ▸ h.status
  case chainId => exact hgiven .chainId nofun nofun ▸ h.chainId
  case evmChainId => exact hgiven .evmChainId nofun nofun ▸ h.evmChainId
  case txHash => exact hgiven .txHash nofun nofun ▸ h.txHash
  case targetBlock => exact hgiven .targetBlock nofun nofun ▸ h.targetBlock
  case issuedAt => exact hgiven .issuedAt nofun nofun ▸ h.issuedAt
  case signer => exact hgiven .signer nofun nofun ▸ h.signer
  case digest => exact hgiven .digest nofun nofun ▸ h.digest
  case signature => exact hgiven .signature nofun nofun ▸ h.signature

-- Lists of at most one item say nothing new, as long as they may stand beside the primary entry.
theorem describes_withLists_iff {signers signatures : List Json}
    (hsigners : members.lookup "signers" = none)
    (hsignatures : members.lookup "signatures" = none) (hlength : signers.length ≤ 1)
    (hmeant : Describes members r → r.Lists [] [] → ∃ addresses held,
      Column.signers.Says addresses (.array signers) ∧
        Column.signatures.Says held (.array signatures) ∧ r.Lists addresses held) :
    Describes (withLists members signers signatures) r ↔ Describes members r := by
  constructor
  · intro h
    refine h.of_lookup_eq (fun c hc hc' => (lookup_withLists_of_ne hc hc').symm) ?_
    obtain ⟨addresses, held, haddresses, -, hlists⟩ := h.lists
    refine ⟨none, none, hsigners, hsignatures, hlists.nil ?_⟩
    cases addresses with
    | none => exact Nat.zero_le 1
    | some addresses =>
        obtain ⟨value, hlookup, texts, rfl, htexts⟩ := haddresses
        rw [lookup_signers_withLists hsigners, Option.some.injEq, Json.array.injEq] at hlookup
        rw [Option.getD_some, ← htexts.length_eq]
        rwa [hlookup, List.length_map] at hlength
  · intro h
    refine h.of_lookup_eq (fun c hc hc' => lookup_withLists_of_ne hc hc') ?_
    have hnil : r.Lists [] [] := by
      obtain ⟨addresses, held, haddresses, -, hlists⟩ := h.lists
      cases addresses with
      | none => exact hlists.nil (Nat.zero_le 1)
      | some addresses =>
          obtain ⟨value, hlookup, -⟩ := haddresses
          exact absurd (hsigners.symm.trans hlookup) nofun
    obtain ⟨addresses, held, haddresses, hheld, hlists⟩ := hmeant h hnil
    exact ⟨some addresses, some held, ⟨_, lookup_signers_withLists hsigners, haddresses⟩,
      ⟨_, lookup_signatures_withLists hsignatures, hheld⟩, hlists⟩

-- An object is a receipt exactly if its members describe one, whatever else it holds. The
-- receipt of one signer is the same without the lists, with empty ones and with lists of one.
theorem accepts_exactly_format (hkeys : (members.map (·.1)).Nodup) :
    (∀ r, ofJson (.object members) = .ok r ↔ Describes members r) ∧
      ∀ signer signature, members.lookup "signer" = some signer →
        members.lookup "signature" = some signature → members.lookup "signers" = none →
        members.lookup "signatures" = none →
        ∀ r, (ofJson (.object (withLists members [] [])) = .ok r ↔
            ofJson (.object members) = .ok r) ∧
          (ofJson (.object (withLists members [signer] [signature])) = .ok r ↔
            ofJson (.object members) = .ok r) := by
  have hnames : ∀ c : Column, (members.map (·.1)).count c.name ≤ 1 := fun c =>
    List.nodup_iff_count_le_one.mp hkeys c.name
  refine ⟨fun r => ofJson_object_eq_ok_iff hnames, ?_⟩
  intro signer signature hsigner hsignature hsigners hsignatures r
  have hlisted : ∀ c : Column, ∀ signers signatures : List Json,
      ((withLists members signers signatures).map (·.1)).count c.name ≤ 1 := fun c _ _ =>
    count_withLists_le hsigners hsignatures (hnames c)
  rw [ofJson_object_eq_ok_iff hnames, ofJson_object_eq_ok_iff (hlisted · _ _),
    ofJson_object_eq_ok_iff (hlisted · _ _)]
  constructor
  · refine describes_withLists_iff hsigners hsignatures (Nat.zero_le 1) fun _ hnil => ?_
    exact ⟨[], [], ⟨[], rfl, .nil⟩, ⟨[], rfl, .nil⟩, hnil⟩
  · refine describes_withLists_iff hsigners hsignatures (Nat.le_refl 1) fun h hnil => ?_
    obtain ⟨value, hlookup, s, rfl, hs⟩ := h.signer
    obtain rfl := Option.some.inj (hsigner.symm.trans hlookup)
    obtain ⟨value, hlookup, s', rfl, hs'⟩ := h.signature
    obtain rfl := Option.some.inj (hsignature.symm.trans hlookup)
    exact ⟨[r.primary.signer], [r.primary.signature], ⟨[s], rfl, .cons hs .nil⟩,
      ⟨[s'], rfl, .cons hs' .nil⟩, hnil.singleton⟩

-- A receipt without lists and without a threshold, in other letters than it is written in. It has
-- a member that says nothing about receipts.
def unlisted : List (String × Json) :=
  [("note", .array [.bool true, .array []]), ("status", .text " PENDING\n"),
    ("chainId", .text "éclair"), ("evmChainId", .text "0x1"),
    ("txHash", .text (String.ofList (List.replicate 64 'A'))),
    ("targetBlock", .text "0XfF"), ("issuedAt", .text "0x0"),
    ("signer", .text (String.ofList ('0' :: 'X' :: List.replicate 40 'b'))),
    ("digest", .text (String.ofList (List.replicate 64 '0'))), ("signature", .text "0xc0C1")]

def unlistedReceipt : Receipt where
  payload := ⟨"éclair", 1, ⟨List.replicate 32 0xaa, rfl⟩, .pending, 255, 0⟩
  digest := .zero
  threshold := 0
  primary := ⟨⟨List.replicate 20 0xbb, rfl⟩, ⟨[0xc0, 0xc1]⟩⟩
  others := []

theorem lists_unlisted : unlistedReceipt.Lists [] [] := ⟨rfl, nofun, nofun, rfl⟩

theorem describes_unlisted : Describes unlisted unlistedReceipt where
  status := ⟨_, rfl, _, rfl, by decide⟩
  chainId := ⟨_, rfl, rfl⟩
  evmChainId := ⟨_, rfl, _, rfl, by decide⟩
  txHash := ⟨_, rfl, _, rfl, by decide⟩
  targetBlock := ⟨_, rfl, _, rfl, by decide⟩
  issuedAt := ⟨_, rfl, _, rfl, by decide⟩
  signer := ⟨_, rfl, _, rfl, by decide⟩
  digest := ⟨_, rfl, _, rfl, by decide⟩
  signature := ⟨_, rfl, _, rfl, by decide⟩
  lists := ⟨none, none, rfl, rfl, lists_unlisted⟩
  threshold := ⟨none, rfl, rfl⟩

theorem accepts_exactly_format_unlisted :
    ofJson (.object unlisted) = .ok unlistedReceipt ∧
      ofJson (.object (withLists unlisted
        [.text (String.ofList ('0' :: 'X' :: List.replicate 40 'b'))] [.text "0xc0C1"])) =
          .ok unlistedReceipt := by
  have hkeys : (unlisted.map (·.1)).Nodup := by decide
  obtain ⟨hformat, hlists⟩ := accepts_exactly_format hkeys
  have hread := (hformat unlistedReceipt).mpr describes_unlisted
  exact ⟨hread, (hlists _ _ rfl rfl rfl rfl unlistedReceipt).2.mpr hread⟩

end Receipt

end SoftConfirm
