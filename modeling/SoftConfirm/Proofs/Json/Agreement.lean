import SoftConfirm.Proofs.Json.Building
import SoftConfirm.Proofs.Json.Canonical
import SoftConfirm.Proofs.Json.Reading

namespace SoftConfirm.Json

namespace Ending

theorem check_eq_ok_iff {ending : Ending} {u : Unit} : ending.check = .ok u ↔ ending = .closed := by
  cases ending with
  | closed => exact ⟨fun _ => rfl, fun _ => rfl⟩
  | cut fault => exact ⟨nofun, nofun⟩

end Ending

-- Values that are nested at most so deep.
inductive Fits : Nat → Json → Prop
  | null (depth : Nat) : Fits depth .null
  | bool (depth : Nat) (value : Bool) : Fits depth (.bool value)
  | number (depth : Nat) (value : Number) : Fits depth (.number value)
  | text (depth : Nat) (value : String) : Fits depth (.text value)
  | array {depth : Nat} {items : List Json} (fits : ∀ item ∈ items, Fits depth item) :
      Fits (depth + 1) (.array items)
  | object {depth : Nat} {members : List (String × Json)} (fits : ∀ m ∈ members, Fits depth m.2) :
      Fits (depth + 1) (.object members)

-- The tree of a value is read as the canonical form of the value.
theorem Fits.readJson {depth : Nat} {value : Json} (h : Fits depth value) :
    value.toTerm.readJson depth = .ok value.canonical := by
  induction h with
  | null | bool | number | text => simp [toTerm, Term.readJson]
  | @array depth items _ ih =>
      have hitems : (items.map toTerm).mapM (Term.readJson depth) =
          .ok (items.map canonical) := mapM_map_eq_ok_iff.mpr ih
      rw [toTerm, canonical_array, Term.readJson, hitems]
      rfl
  | @object depth members _ ih =>
      have hmembers : (members.map fun m => (Term.text (some m.1), m.2.toTerm)).mapM (fun m => do
          let key ← Term.readKey .closed m.1
          return (key, ← m.2.readJson depth)) =
            .ok (members.map fun m => (m.1, m.2.canonical)) := by
        refine mapM_map_eq_ok_iff.mpr fun m hm => ?_
        rw [ih m hm]
        rfl
      rw [toTerm, canonical_object, Term.readJson, hmembers]
      rfl

theorem Fits.ofText_render {value : Json} (hlegible : value.Legible)
    (h : Fits nestingLimit value) : Json.ofText value.render = .ok value.canonical := by
  rw [Json.ofText, hlegible.readDocument_render, h.readJson]

namespace Term

variable {α : Type} {t : Term} {value : Json}

-- Whether the whole of a tree can be read, and as which value. The members of objects are sorted
-- in the value, while the tree has them as they stand in the text.
def Holds (t : Term) (value : Json) : Prop := ∃ depth, t.readJson depth = .ok value

-- The keys of an object in the order of the text, those that stand there twice included. An array
-- has none.
def keys : Term → List String
  | .object members _ =>
      members.filterMap fun m =>
        match m.1 with
        | .text key => key
        | _ => none
  | _ => []

theorem readKey_eq_ok_iff {ending : Ending} {key : String} :
    readKey ending t = .ok key ↔ t = .text (some key) := by
  cases t with
  | text held =>
      cases held with
      | some s =>
          rw [readKey, Except.ok.injEq, Term.text.injEq, Option.some.injEq]
      | none => exact ⟨nofun, nofun⟩
  | null | bool value | number value | array items ending | object members ending
  | broken fault bare =>
      refine ⟨fun h => ?_, nofun⟩
      obtain ⟨_, _, h⟩ := exists_of_bind_eq_ok h
      exact absurd h nofun

-- How a container is read: closed, and all that is in it one level further down.
theorem readJson_array {depth : Nat} {items : List Term} {ending : Ending}
    (h : (array items ending).readJson depth = .ok value) :
    ∃ inner values, depth = inner + 1 ∧ ending = .closed ∧ value = .array values ∧
      List.Forall₂ (fun item held => item.readJson inner = .ok held) items values := by
  cases depth with
  | zero => exact absurd h nofun
  | succ inner =>
      obtain ⟨values, hvalues, h⟩ := exists_of_bind_eq_ok h
      obtain ⟨_, hending, h⟩ := exists_of_bind_eq_ok h
      obtain rfl := Except.ok.inj h
      exact ⟨inner, values, rfl, Ending.check_eq_ok_iff.mp hending, rfl, mapM_eq_ok_iff.mp hvalues⟩

theorem readJson_object {depth : Nat} {members : List (Term × Term)} {ending : Ending}
    (h : (object members ending).readJson depth = .ok value) :
    ∃ inner values, depth = inner + 1 ∧ ending = .closed ∧ value = .object (sortMembers values) ∧
      List.Forall₂ (fun m held => m.1 = .text (some held.1) ∧ m.2.readJson inner = .ok held.2)
        members values := by
  cases depth with
  | zero => exact absurd h nofun
  | succ inner =>
      obtain ⟨values, hvalues, h⟩ := exists_of_bind_eq_ok h
      obtain ⟨_, hending, h⟩ := exists_of_bind_eq_ok h
      obtain rfl := Except.ok.inj h
      refine ⟨inner, values, rfl, Ending.check_eq_ok_iff.mp hending, rfl, ?_⟩
      refine (mapM_eq_ok_iff.mp hvalues).imp fun m held h => ?_
      obtain ⟨key, hkey, h⟩ := exists_of_bind_eq_ok h
      obtain ⟨read, hread, h⟩ := exists_of_bind_eq_ok h
      obtain rfl := Except.ok.inj h
      exact ⟨readKey_eq_ok_iff.mp hkey, hread⟩

theorem Holds.array {items : List Term} {ending : Ending} (h : (array items ending).Holds value) :
    ∃ values, ending = .closed ∧ value = .array values ∧ List.Forall₂ Holds items values := by
  obtain ⟨depth, h⟩ := h
  obtain ⟨inner, values, -, hending, hvalue, hvalues⟩ := readJson_array h
  exact ⟨values, hending, hvalue, hvalues.imp fun _ _ h => ⟨inner, h⟩⟩

theorem Holds.object {members : List (Term × Term)} {ending : Ending}
    (h : (object members ending).Holds value) :
    ∃ values, ending = .closed ∧ value = .object (sortMembers values) ∧
      List.Forall₂ (fun m held => m.1 = .text (some held.1) ∧ m.2.Holds held.2) members values := by
  obtain ⟨depth, h⟩ := h
  obtain ⟨inner, values, -, hending, hvalue, hvalues⟩ := readJson_object h
  exact ⟨values, hending, hvalue, hvalues.imp fun _ _ h => ⟨h.1, inner, h.2⟩⟩

-- A tree that holds a value is the tree of that value, as far as its top goes.
theorem Holds.top (h : t.Holds value) :
    t = value.toTerm ∨
      (∃ items values, t = .array items .closed ∧ value = .array values ∧
        List.Forall₂ Holds items values) ∨
      ∃ members values, t = .object members .closed ∧ value = .object (sortMembers values) ∧
        List.Forall₂ (fun m held => m.1 = .text (some held.1) ∧ m.2.Holds held.2) members
          values := by
  cases t with
  | array items ending =>
      obtain ⟨values, rfl, rfl, hitems⟩ := h.array
      exact .inr (.inl ⟨items, values, rfl, rfl, hitems⟩)
  | object members ending =>
      obtain ⟨values, rfl, rfl, hmembers⟩ := h.object
      exact .inr (.inr ⟨members, values, rfl, rfl, hmembers⟩)
  | null | bool held =>
      obtain ⟨depth, h⟩ := h
      rw [readJson] at h
      rw [← Except.ok.inj h, toTerm]
      exact .inl rfl
  | number held | text held =>
      obtain ⟨depth, h⟩ := h
      cases held with
      | none =>
          rw [readJson] at h
          cases h
      | some held =>
          rw [readJson] at h
          rw [← Except.ok.inj h, toTerm]
          exact .inl rfl
  | broken fault bare =>
      obtain ⟨depth, h⟩ := h
      rw [readJson] at h
      cases h

theorem Holds.skip (h : t.Holds value) : t.skip = .ok () := by
  obtain rfl | ⟨items, values, rfl, -⟩ | ⟨members, values, rfl, -⟩ := h.top
  · exact skip_toTerm value
  · rfl
  · rfl

theorem Holds.readText (h : t.Holds value) : t.readText = value.toTerm.readText := by
  obtain rfl | ⟨items, values, rfl, rfl, -⟩ | ⟨members, values, rfl, rfl, -⟩ := h.top
  · rfl
  · rw [toTerm]
    rfl
  · rw [toTerm]
    rfl

theorem Holds.readSpelled (h : t.Holds value) (spell : String → Except String α) :
    t.readSpelled spell = value.toTerm.readSpelled spell := by
  rw [Term.readSpelled, Term.readSpelled, h.readText]

theorem Holds.readWord32 (h : t.Holds value) : t.readWord32 = value.toTerm.readWord32 := by
  obtain rfl | ⟨items, values, rfl, rfl, -⟩ | ⟨members, values, rfl, rfl, -⟩ := h.top
  · rfl
  · rw [toTerm]
    rfl
  · rw [toTerm]
    rfl

theorem mapM_of_holds {item : Term → Reading α}
    (hitem : ∀ {t : Term} {value : Json}, t.Holds value → item t = item value.toTerm)
    {items : List Term} {values : List Json} (h : List.Forall₂ Holds items values) :
    items.mapM item = (values.map toTerm).mapM item := by
  induction h with
  | nil => rfl
  | cons hfirst _ ih => rw [List.mapM_cons, List.map_cons, List.mapM_cons, hitem hfirst, ih]

theorem Holds.readList (h : t.Holds value) {item : Term → Reading α}
    (hitem : ∀ {t : Term} {value : Json}, t.Holds value → item t = item value.toTerm)
    (depth : Nat) : t.readList depth item = value.toTerm.readList depth item := by
  obtain rfl | ⟨items, values, rfl, rfl, hitems⟩ | ⟨members, values, rfl, rfl, -⟩ := h.top
  · rfl
  · rw [toTerm, Term.readList, Term.readList, mapM_of_holds hitem hitems]
  · rw [toTerm]
    rfl

-- Whatever has been read is nested no deeper than was allowed, and is in its canonical form.
theorem fits_of_readJson {depth : Nat} {t : Term} {value : Json}
    (h : t.readJson depth = .ok value) : value.Fits depth ∧ value.canonical = value := by
  match t with
  | .null | .bool _ | .number (some _) | .text (some _) =>
      rw [readJson] at h
      obtain rfl := Except.ok.inj h
      exact ⟨by constructor, by simp⟩
  | .number none | .text none | .broken _ _ =>
      rw [readJson] at h
      cases h
  | .array items ending =>
      obtain ⟨inner, values, rfl, -, rfl, hvalues⟩ := readJson_array h
      have hread : ∀ held ∈ values, held.Fits inner ∧ held.canonical = held := by
        intro held hheld
        obtain ⟨item, -, hitem⟩ := exists_of_mem_forall₂ hvalues hheld
        exact fits_of_readJson hitem
      refine ⟨.array fun held hheld => (hread held hheld).1, ?_⟩
      rw [canonical_array, List.map_congr_left fun held hheld => (hread held hheld).2, List.map_id']
  | .object members ending =>
      obtain ⟨inner, values, rfl, -, rfl, hvalues⟩ := readJson_object h
      have hread : ∀ m ∈ sortMembers values, m.2.Fits inner ∧ m.2.canonical = m.2 := by
        intro m hm
        obtain ⟨member, -, -, hmember⟩ :=
          exists_of_mem_forall₂ hvalues (sortMembers_subset values hm)
        exact fits_of_readJson hmember
      have hsame : ∀ m ∈ sortMembers values, (m.1, m.2.canonical) = m := fun m hm =>
        Prod.ext rfl (hread m hm).2
      refine ⟨.object fun m hm => (hread m hm).1, ?_⟩
      rw [canonical_object, List.map_congr_left hsame, List.map_id', sortMembers_sortMembers]
termination_by depth

end Term

theorem Fits.canonical {depth : Nat} {value : Json} (h : value.Fits depth) :
    value.canonical.Fits depth :=
  (Term.fits_of_readJson h.readJson).1

namespace Shape

variable {δ α : Type} {shape : Shape δ α}

-- Fields that do not tell a tree from the value that it holds take either for the other.
theorem readItems_of_holds {depth : Nat} {ending : Ending} {fields : List (Member δ)}
    (hfields : ∀ field ∈ fields, ∀ {t : Term} {value : Json}, t.Holds value → ∀ draft,
      field.read depth t draft = field.read depth value.toTerm draft)
    {items : List Term} {values : List Json} (h : List.Forall₂ Term.Holds items values)
    (draft : δ) :
    shape.readItems depth ending fields items draft =
      shape.readItems depth ending fields (values.map toTerm) draft := by
  induction fields generalizing items values draft with
  | nil => rw [readItems, readItems, List.length_map, h.length_eq]
  | cons field fields ih =>
      have hrest : ∀ other ∈ fields, ∀ {t : Term} {value : Json}, t.Holds value → ∀ draft,
          other.read depth t draft = other.read depth value.toTerm draft :=
        fun other hother => hfields other (List.mem_cons_of_mem field hother)
      cases h with
      | nil => rfl
      | cons hfirst hothers =>
          rw [List.map_cons, readItems, readItems, hfields field List.mem_cons_self hfirst]
          exact bind_congr fun next => ih hrest hothers next

end Shape

end SoftConfirm.Json
