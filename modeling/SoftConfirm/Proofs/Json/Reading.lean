import Mathlib.Data.List.Forall2
import SoftConfirm.Json.Reader

namespace SoftConfirm

section

variable {ε ε' α β : Type}

theorem exists_of_bind_eq_ok {x : Except ε α} {f : α → Except ε β} {b : β}
    (h : x >>= f = .ok b) : ∃ a, x = .ok a ∧ f a = .ok b := by
  cases x with
  | ok a => exact ⟨a, rfl, h⟩
  | error e => exact absurd h nofun

theorem mapError_eq_ok_iff {x : Except ε α} {f : ε → ε'} {a : α} :
    x.mapError f = .ok a ↔ x = .ok a := by
  cases x <;> simp [Except.mapError]

theorem mapM_eq_ok_iff {f : α → Except ε β} {items : List α} {values : List β} :
    items.mapM f = .ok values ↔
      List.Forall₂ (fun item value => f item = .ok value) items values := by
  induction items generalizing values with
  | nil =>
      rw [List.mapM_nil, List.forall₂_nil_left_iff]
      exact ⟨fun h => (Except.ok.inj h).symm, fun h => congrArg Except.ok h.symm⟩
  | cons item items ih =>
      rw [List.mapM_cons]
      constructor
      · intro h
        obtain ⟨value, hvalue, h⟩ := exists_of_bind_eq_ok h
        obtain ⟨rest, hrest, h⟩ := exists_of_bind_eq_ok h
        obtain rfl := Except.ok.inj h
        exact .cons hvalue (ih.mp hrest)
      · intro h
        cases h with
        | cons hvalue hrest =>
            rw [hvalue, ih.mpr hrest]
            rfl

theorem exists_of_mem_forall₂ {R : α → β → Prop} {items : List α} {values : List β} {value : β}
    (h : List.Forall₂ R items values) (hvalue : value ∈ values) : ∃ item ∈ items, R item value := by
  induction h with
  | nil => cases hvalue
  | @cons item first items values hfirst _ ih =>
      rcases List.mem_cons.mp hvalue with rfl | hvalue
      · exact ⟨item, List.mem_cons_self, hfirst⟩
      · obtain ⟨found, hfound, hR⟩ := ih hvalue
        exact ⟨found, List.mem_cons_of_mem item hfound, hR⟩

-- What every step of a fold keeps, the whole fold keeps.
theorem keeps_foldlM {P : β → Prop} {f : β → α → Except ε β} {items : List α} {b c : β} (hb : P b)
    (hstep : ∀ b item next, P b → f b item = .ok next → P next) (h : items.foldlM f b = .ok c) :
    P c := by
  induction items generalizing b with
  | nil => exact Except.ok.inj h ▸ hb
  | cons item items ih =>
      rw [List.foldlM_cons] at h
      obtain ⟨next, hnext, h⟩ := exists_of_bind_eq_ok h
      exact ih (hstep b item next hb hnext) h

-- What is made of each item is read as what is said of it.
theorem mapM_map_eq_ok_iff {γ : Type} {f : α → Except ε β} {made : γ → α} {said : γ → β}
    {items : List γ} :
    (items.map made).mapM f = .ok (items.map said) ↔
      ∀ item ∈ items, f (made item) = .ok (said item) := by
  rw [mapM_eq_ok_iff, List.forall₂_map_left_iff, List.forall₂_map_right_iff, List.forall₂_same]

end

namespace Json

variable {δ α : Type}

theorem need_eq_ok_iff {name : String} {given : Option α} {value : α} :
    need name given = .ok value ↔ given = some value := by
  cases given <;> simp [need]

theorem Term.refuse_ne_ok (term : Term) (expected : String) {value : α} :
    term.refuse expected ≠ .ok value := by
  intro h
  obtain ⟨_, _, h⟩ := exists_of_bind_eq_ok h
  exact absurd h nofun

-- There is nothing wrong in the tree of a value, so it can be passed over.
theorem skip_toTerm (value : Json) : value.toTerm.skip = .ok () := by
  cases value with
  | null | bool value | number value | text value | array items | object members =>
      rw [toTerm]
      rfl

namespace Term

-- How a value has to look for its tree to be read.
variable {value : Json}

theorem readText_eq_ok_iff {s : String} : readText value.toTerm = .ok s ↔ value = .text s := by
  cases value with
  | text held =>
      rw [toTerm, Json.text.injEq]
      exact ⟨Except.ok.inj, congrArg Except.ok⟩
  | null | bool | number | array | object =>
      rw [toTerm]
      refine ⟨fun h => absurd h (refuse_ne_ok _ _), fun h => ?_⟩
      cases h

theorem readSpelled_eq_ok_iff {spell : String → Except String α} {meant : α} :
    readSpelled spell value.toTerm = .ok meant ↔ ∃ s, value = .text s ∧ spell s = .ok meant := by
  constructor
  · intro h
    obtain ⟨s, hs, h⟩ := exists_of_bind_eq_ok h
    refine ⟨s, readText_eq_ok_iff.mp hs, ?_⟩
    split at h
    · rename_i hspell
      rw [hspell, Except.ok.inj h]
    · exact absurd h nofun
  · rintro ⟨s, rfl, hspell⟩
    rw [readSpelled, readText_eq_ok_iff.mpr rfl]
    simp only [bind, Except.bind, hspell]
    rfl

theorem readList_eq_ok_iff {depth : Nat} {item : Term → Reading α} {values : List α} :
    readList (depth + 1) item value.toTerm = .ok values ↔
      ∃ items, value = .array items ∧
        List.Forall₂ (fun held read => item held.toTerm = .ok read) items values := by
  cases value with
  | array items =>
      have hlist : readList (depth + 1) item (Json.array items).toTerm =
          (items.map toTerm).mapM item := by
        rw [toTerm, readList]
        cases (items.map toTerm).mapM item <;> rfl
      rw [hlist, mapM_eq_ok_iff, List.forall₂_map_left_iff]
      constructor
      · exact fun h => ⟨items, rfl, h⟩
      · rintro ⟨others, hothers, h⟩
        rwa [Json.array.inj hothers]
  | null | bool | number | text | object =>
      rw [toTerm]
      refine ⟨fun h => absurd h (refuse_ne_ok _ _), ?_⟩
      rintro ⟨_, h, -⟩
      cases h

theorem readWord32_eq_ok_iff {word : UInt32} :
    readWord32 value.toTerm = .ok word ↔ value = .number (.integer word.toNat) := by
  have hword := word.toNat_lt
  cases value with
  | number n =>
      cases n with
      | integer k =>
          rw [toTerm, readWord32, readBounded, Json.number.injEq, Number.integer.injEq]
          split
          · rename_i hbounds
            unfold UInt32.size at hbounds
            simp only [Except.map, Except.ok.injEq]
            constructor
            · rintro rfl
              rw [UInt32.toNat_ofNat']
              omega
            · rintro rfl
              rw [Int.toNat_natCast, UInt32.ofNat_toNat]
          · rename_i hbounds
            unfold UInt32.size at hbounds
            constructor
            · intro h
              cases h
            · rintro rfl
              omega
      | float negative magnitude =>
          rw [toTerm]
          constructor
          · intro h
            cases h
          · intro h
            cases h
  | null | bool | text | array | object =>
      rw [toTerm]
      constructor
      · intro h
        cases h
      · intro h
        cases h

end Term

namespace Shape

variable {shape : Shape δ α} {value : α}

theorem conclude_eq_ok_iff {draft : δ} :
    shape.conclude draft = .ok value ↔ shape.finish draft = .ok value := by
  unfold conclude
  cases shape.finish draft <;> simp [mismatch]

-- A closed object is read as what its members make of a blank draft.
theorem read_object_closed (shape : Shape δ α) (origin : Origin) (depth : Nat)
    (members : List (Term × Term)) :
    shape.read origin (depth + 1) (.object members .closed) =
      members.foldlM (shape.readMember depth .closed) shape.blank >>= shape.conclude := rfl

-- A closed array is read as what its items make of a blank draft, if there is none too many.
theorem read_array_eq_ok_iff {origin : Origin} {depth : Nat} {items : List Term} :
    shape.read origin (depth + 1) (.array items .closed) = .ok value ↔
      ∃ draft, shape.readItems depth .closed shape.fields items shape.blank = .ok (draft, 0) ∧
        shape.finish draft = .ok value := by
  constructor
  · intro h
    obtain ⟨_, hdepth, h⟩ := exists_of_bind_eq_ok h
    obtain rfl := Except.ok.inj hdepth
    obtain ⟨⟨draft, left⟩, hitems, h⟩ := exists_of_bind_eq_ok h
    cases left with
    | zero => exact ⟨draft, hitems, conclude_eq_ok_iff.mp h⟩
    | succ left =>
        cases origin with
        | text => exact absurd h nofun
        | value => exact absurd h nofun
  · rintro ⟨draft, hitems, hfinish⟩
    simp only [read, enter, bind, Except.bind, hitems]
    exact conclude_eq_ok_iff.mpr hfinish

section Keeps

-- Something that a blank draft has, and that reading any of the fields keeps.
variable {origin : Origin} {depth : Nat} {keeps : δ → Prop} (hfields : ∀ field ∈ shape.fields,
  ∀ term draft next, keeps draft → field.read depth term draft = .ok next → keeps next)

include hfields

theorem keeps_readMember {ending : Ending} {draft next : δ} {member : Term × Term}
    (hdraft : keeps draft) (h : shape.readMember depth ending draft member = .ok next) :
    keeps next := by
  obtain ⟨key, -, h⟩ := exists_of_bind_eq_ok h
  split at h
  · rename_i field hfield
    split at h
    · cases h
    · exact hfields field (List.mem_of_find?_eq_some hfield) _ _ _ hdraft h
  · obtain ⟨_, -, h⟩ := exists_of_bind_eq_ok h
    exact Except.ok.inj h ▸ hdraft

theorem keeps_readItems {ending : Ending} {fields : List (Member δ)} {items : List Term}
    {draft next : δ} {left : Nat} (hsub : fields ⊆ shape.fields) (hdraft : keeps draft)
    (h : shape.readItems depth ending fields items draft = .ok (next, left)) : keeps next := by
  induction fields generalizing items draft with
  | nil => exact (Prod.mk.inj (Except.ok.inj h)).1 ▸ hdraft
  | cons field fields ih =>
      have hrest := List.subset_of_cons_subset hsub
      cases items with
      | nil =>
          obtain ⟨_, -, h⟩ := exists_of_bind_eq_ok h
          split at h
          · exact ih hrest hdraft h
          · cases h
      | cons item items =>
          obtain ⟨middle, hmiddle, h⟩ := exists_of_bind_eq_ok h
          exact ih hrest (hfields field (hsub List.mem_cons_self) _ _ _ hdraft hmiddle) h

-- A record that has been read is what some draft of it amounts to, one that has all this.
theorem exists_kept_of_read {term : Term} (hblank : keeps shape.blank)
    (h : shape.read origin (depth + 1) term = .ok value) :
    ∃ draft, keeps draft ∧ shape.finish draft = .ok value := by
  cases term with
  | object members ending =>
      obtain ⟨inner, hinner, h⟩ := exists_of_bind_eq_ok h
      obtain rfl := Except.ok.inj hinner
      obtain ⟨draft, hdraft, h⟩ := exists_of_bind_eq_ok h
      obtain ⟨_, _, h⟩ := exists_of_bind_eq_ok h
      refine ⟨draft, keeps_foldlM hblank ?_ hdraft, conclude_eq_ok_iff.mp h⟩
      exact fun _ _ _ => keeps_readMember hfields
  | array items ending =>
      obtain ⟨inner, hinner, h⟩ := exists_of_bind_eq_ok h
      obtain rfl := Except.ok.inj hinner
      obtain ⟨⟨draft, left⟩, hdraft, h⟩ := exists_of_bind_eq_ok h
      simp only at h
      split at h
      · cases origin with
        | text => exact absurd h nofun
        | value => exact absurd h nofun
      · obtain ⟨_, _, h⟩ := exists_of_bind_eq_ok h
        exact ⟨draft, keeps_readItems hfields (List.Subset.refl _) hblank hdraft,
          conclude_eq_ok_iff.mp h⟩
  | null | bool | number | text | broken => exact absurd h (Term.refuse_ne_ok _ _)

end Keeps

theorem read_zero_ne_ok {origin : Origin} (term : Term) : shape.read origin 0 term ≠ .ok value := by
  intro h
  cases term with
  | object members ending | array items ending =>
      obtain ⟨_, henter, -⟩ := exists_of_bind_eq_ok h
      cases henter
  | null | bool | number | text | broken => exact absurd h (Term.refuse_ne_ok _ _)

theorem exists_finish_of_read {origin : Origin} {depth : Nat} {term : Term}
    (h : shape.read origin depth term = .ok value) :
    ∃ draft, shape.finish draft = .ok value := by
  cases depth with
  | zero => exact absurd h (read_zero_ne_ok term)
  | succ depth =>
      have hfields : ∀ field ∈ shape.fields, ∀ term draft next, True →
          field.read depth term draft = .ok next → True := fun _ _ _ _ _ _ _ => trivial
      obtain ⟨draft, -, hfinish⟩ := exists_kept_of_read hfields trivial h
      exact ⟨draft, hfinish⟩

end Shape

theorem readDocument_eq_ok_iff {read : Term → Reading α} {s : String} {value : α} :
    readDocument read s = .ok value ↔
      read (Document.ofText s).root = .ok value ∧ (Document.ofText s).trailing = false := by
  constructor
  · intro h
    obtain ⟨found, hfound, h⟩ := exists_of_bind_eq_ok h
    split at h
    · exact absurd h nofun
    · rename_i htrailing
      obtain rfl := Except.ok.inj h
      exact ⟨hfound, Bool.eq_false_iff.mpr htrailing⟩
  · rintro ⟨hread, htrailing⟩
    simp only [readDocument, hread, htrailing]
    rfl

theorem exists_read_of_readDocument {read : Term → Reading α} {s : String} {value : α}
    (h : readDocument read s = .ok value) : ∃ term, read term = .ok value :=
  ⟨_, (readDocument_eq_ok_iff.mp h).1⟩

end Json

end SoftConfirm
