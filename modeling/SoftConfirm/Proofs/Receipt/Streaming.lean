import SoftConfirm.Proofs.Json.Agreement
import SoftConfirm.Proofs.Json.Building
import SoftConfirm.Proofs.Receipt.Format

namespace SoftConfirm

open Json (Reading Term)

namespace Receipt

variable {depth : Nat}

-- A column is read from a tree as from the value that the tree holds.
theorem Column.read_of_holds (c : Column) {t : Term} {value : Json} (h : t.Holds value) :
    c.read depth t = c.read depth value.toTerm := by
  cases c with
  | chainId => exact h.readText
  | status | evmChainId | targetBlock | issuedAt | txHash | signer | digest | signature =>
      exact h.readSpelled _
  | signers | signatures => exact h.readList (fun hitem => hitem.readSpelled _) depth
  | threshold => exact h.readWord32

-- Members of a text that hold these members of a value, each in its place.
abbrev MembersHold : List (String × Term) → List (String × Json) → Prop :=
  List.Forall₂ fun m held => m.1 = held.1 ∧ m.2.Holds held.2

theorem exists_keyed {members : List (Term × Term)} {values : List (String × Json)}
    (h : List.Forall₂ (fun m held => m.1 = Term.text (some held.1) ∧ m.2.Holds held.2) members
      values) : ∃ terms, members = keyed terms ∧ MembersHold terms values := by
  induction h with
  | nil => exact ⟨[], rfl, .nil⟩
  | @cons m held _ _ hfirst _ ih =>
      obtain ⟨terms, rfl, hterms⟩ := ih
      obtain ⟨key, t⟩ := m
      obtain ⟨rfl, hholds⟩ := hfirst
      exact ⟨(held.1, t) :: terms, rfl, .cons ⟨rfl, hholds⟩ hterms⟩

theorem keys_keyed (terms : List (String × Term)) (ending : Json.Ending) :
    (Term.object (keyed terms) ending).keys = terms.map (·.1) := by
  rw [Term.keys, keyed, List.filterMap_map, ← List.filterMap_eq_map]
  rfl

section

variable {terms : List (String × Term)} {values : List (String × Json)}

theorem MembersHold.names (h : MembersHold terms values) :
    terms.map (·.1) = values.map (·.1) := by
  induction h with
  | nil => rfl
  | cons hfirst _ ih => rw [List.map_cons, List.map_cons, hfirst.1, ih]

theorem MembersHold.skip (h : MembersHold terms values) : ∀ m ∈ terms, m.2.skip = .ok () := by
  induction h with
  | nil => exact nofun
  | cons hfirst _ ih =>
      intro m hm
      rcases List.mem_cons.mp hm with rfl | hm
      · exact hfirst.2.skip
      · exact ih m hm

theorem MembersHold.reading (h : MembersHold terms values) (c : Column) (d : Draft) :
    c.reading depth d terms = c.reading depth d (memberTerms values) := by
  induction h with
  | nil => rfl
  | @cons m held terms values hfirst _ ih =>
      obtain ⟨name, t⟩ := m
      obtain ⟨rfl, hholds⟩ := hfirst
      rw [memberTerms, List.map_cons, ← memberTerms]
      by_cases heq : c.name = held.1
      · have hlookup : ((held.1, t) :: terms).lookup c.name = some t := by
          rw [heq, List.lookup_cons_self]
        have hheld : ((held.1, held.2.toTerm) :: memberTerms values).lookup c.name =
            some held.2.toTerm := by
          rw [heq, List.lookup_cons_self]
        rw [Column.reading_of_lookup_some hlookup, Column.reading_of_lookup_some hheld,
          c.read_of_holds hholds]
      · rw [Column.reading_cons_of_ne heq rfl, Column.reading_cons_of_ne heq rfl, ih]

end

theorem reading_sortMembers {c : Column} {d : Draft} {members : List (String × Json)}
    (h : (members.map (·.1)).count c.name ≤ 1) :
    c.reading depth d (memberTerms (Json.sortMembers members)) =
      c.reading depth d (memberTerms members) := by
  simp only [Column.reading, lookup_memberTerms, Json.lookup_sortMembers h]

-- An object of a text is the receipt that its value is, although its members stand in another
-- order in the value.
theorem ofTerm_object_of_holds {terms : List (String × Term)} {values : List (String × Json)}
    {r : Receipt} (h : MembersHold terms values)
    (hnames : ∀ c : Column, (terms.map (·.1)).count c.name ≤ 1)
    (hr : ofTerm .value (Json.object (Json.sortMembers values)).toTerm = .ok r) :
    ofTerm .text (.object (keyed terms) .closed) = .ok r := by
  have hvalues : ∀ c : Column, (values.map (·.1)).count c.name ≤ 1 := fun c => h.names ▸ hnames c
  have hsorted : ∀ c : Column, ((Json.sortMembers values).map (·.1)).count c.name ≤ 1 := fun c =>
    Nat.le_trans (Json.count_sortMembers_le values c.name) (hvalues c)
  rw [toTerm_object, ofTerm, Json.nestingLimit, Json.Shape.read_object_closed] at hr
  obtain ⟨d, hfilled, hconclude⟩ := exists_of_bind_eq_ok hr
  have hreading := (foldlM_memberTerms_eq_ok_iff hsorted).mp hfilled
  have hterms : (keyed terms).foldlM (Draft.shape.readMember 126 .closed) {} = .ok d := by
    refine (foldlM_readMember_eq_ok_iff .closed hnames (fun c _ => c.get_blank)
      fun m hm _ => h.skip m hm).mpr fun c => ?_
    rw [h.reading, ← reading_sortMembers (hvalues c)]
    exact hreading c
  rw [ofTerm, Json.nestingLimit, Json.Shape.read_object_closed]
  exact (congrArg (· >>= Draft.shape.conclude) hterms).trans hconclude

theorem ofTerm_array_of_holds {items : List Term} {values : List Json} {r : Receipt}
    (h : List.Forall₂ Term.Holds items values)
    (hr : ofTerm .value (Json.array values).toTerm = .ok r) :
    ofTerm .text (.array items .closed) = .ok r := by
  have hfields : ∀ field ∈ Draft.shape.fields, ∀ {t : Term} {value : Json}, t.Holds value →
      ∀ d, field.read 126 t d = field.read 126 value.toTerm d := by
    intro field hfield t value hholds d
    rw [show Draft.shape.fields = Column.all.map Column.member from Column.fields_eq] at hfield
    obtain ⟨c, -, rfl⟩ := List.mem_map.mp hfield
    simp only [Column.member, c.read_of_holds hholds]
  rw [Json.toTerm, ofTerm, Json.nestingLimit, Json.Shape.read_array_eq_ok_iff] at hr
  obtain ⟨d, hitems, hd⟩ := hr
  rw [ofTerm, Json.nestingLimit, Json.Shape.read_array_eq_ok_iff]
  refine ⟨d, ?_, hd⟩
  rw [Json.Shape.readItems_of_holds hfields h]
  exact hitems

theorem ofTerm_of_holds {t : Term} {value : Json} {r : Receipt} (h : t.Holds value)
    (hkeys : ∀ c : Column, t.keys.count c.name ≤ 1)
    (hr : ofTerm .value value.toTerm = .ok r) : ofTerm .text t = .ok r := by
  cases t with
  | array items ending =>
      obtain ⟨values, rfl, rfl, hitems⟩ := h.array
      exact ofTerm_array_of_holds hitems hr
  | object members ending =>
      obtain ⟨values, rfl, rfl, hmembers⟩ := h.object
      obtain ⟨terms, rfl, hterms⟩ := exists_keyed hmembers
      rw [keys_keyed] at hkeys
      exact ofTerm_object_of_holds hterms hkeys hr
  | null | bool held | number held | text held | broken fault bare =>
      obtain htop | ⟨_, _, htop, -⟩ | ⟨_, _, htop, -⟩ := h.top
      · rw [← htop] at hr
        exact absurd hr (Term.refuse_ne_ok _ _)
      · exact absurd htop nofun
      · exact absurd htop nofun

-- Whoever reads a receipt through a value can read it from the text itself, and gets the same
-- one. It does not matter in which order the text has the keys and what else stands in it.
theorem ofText_eq_ok_of_ofJson {s : String} {value : Json} {r : Receipt}
    (hkeys : ∀ field ∈ Draft.fields, (Json.Document.ofText s).root.keys.count field.name ≤ 1)
    (hvalue : Json.ofText s = .ok value) (hr : ofJson value = .ok r) : ofText s = .ok r := by
  obtain ⟨hread, htrailing⟩ := Json.readDocument_eq_ok_iff.mp hvalue
  have hnames : ∀ c : Column, (Json.Document.ofText s).root.keys.count c.name ≤ 1 := fun c =>
    hkeys c.member (Column.fields_eq ▸ List.mem_map_of_mem c.mem_all)
  exact Json.readDocument_eq_ok_iff.mpr ⟨ofTerm_of_holds ⟨_, hread⟩ hnames hr, htrailing⟩

-- A text in which the last key comes first and a member that is no column comes last.
theorem ofText_eq_ok_of_ofJson_reversed :
    ofText (Json.object unlisted.reverse).render = .ok unlistedReceipt := by
  have hlegible : (Json.object unlisted.reverse).Legible := by
    refine .object fun m hm => ?_
    rw [List.mem_reverse, unlisted] at hm
    rcases List.mem_cons.mp hm with rfl | hm
    · refine .array fun item hitem => ?_
      rcases List.mem_pair.mp hitem with rfl | rfl
      · exact .bool true
      · exact .array fun _ hnone => absurd hnone List.not_mem_nil
    · simp only [List.mem_cons, List.not_mem_nil, or_false] at hm
      rcases hm with rfl | rfl | rfl | rfl | rfl | rfl | rfl | rfl | rfl
      all_goals exact .text _
  have hkeys : ∀ field ∈ Draft.fields, (Json.Document.ofText
      (Json.object unlisted.reverse).render).root.keys.count field.name ≤ 1 := by
    rw [hlegible.ofText_render, toTerm_object, keys_keyed, names_memberTerms]
    decide
  have hvalue : Json.ofText (Json.object unlisted.reverse).render =
      .ok (.object (Json.sortMembers unlisted.reverse)) := by
    rw [Json.ofText, hlegible.readDocument_render]
    simp only [unlisted, List.reverse_cons, List.reverse_nil, List.nil_append, List.cons_append,
      Json.toTerm, List.map_cons, List.map_nil]
    rfl
  have hr : ofJson (.object (Json.sortMembers unlisted.reverse)) = .ok unlistedReceipt := by
    have hnames : ∀ c : Column, (unlisted.reverse.map (·.1)).count c.name ≤ 1 := by
      intro c
      cases c <;> decide
    have hlookup : ∀ c : Column,
        (Json.sortMembers unlisted.reverse).lookup c.name = unlisted.lookup c.name := by
      intro c
      rw [Json.lookup_sortMembers (hnames c)]
      cases c <;> rfl
    have hsorted : ∀ c : Column,
        ((Json.sortMembers unlisted.reverse).map (·.1)).count c.name ≤ 1 := fun c =>
      Nat.le_trans (Json.count_sortMembers_le _ c.name) (hnames c)
    refine (ofJson_object_eq_ok_iff hsorted).mpr
      (describes_unlisted.of_lookup_eq (fun c _ _ => hlookup c) ?_)
    exact ⟨none, none, hlookup .signers, hlookup .signatures, lists_unlisted⟩
  exact ofText_eq_ok_of_ofJson hkeys hvalue hr

end Receipt

end SoftConfirm
