import Mathlib.Data.List.Basic
import SoftConfirm.Proofs.Json.Canonical

namespace SoftConfirm.Json

section

variable {β γ : Type} {members : List (String × β)} {name : String} {value : β}

theorem lookup_cons_of_ne {m : String × β} (h : name ≠ m.1) :
    (m :: members).lookup name = members.lookup name := by
  rw [List.lookup_cons (k := m.1), beq_eq_false_iff_ne.mpr h]

theorem lookup_eq_none_iff_notMem : members.lookup name = none ↔ name ∉ members.map (·.1) := by
  rw [List.lookup_eq_none_iff]
  simp only [bne_iff_ne, ne_eq, List.mem_map, not_exists, not_and]
  exact forall₂_congr fun m _ => not_congr eq_comm

-- A name that stands at most once has the value that stands beside it.
theorem lookup_eq_some_iff_mem (h : (members.map (·.1)).count name ≤ 1) :
    members.lookup name = some value ↔ (name, value) ∈ members := by
  induction members with
  | nil => simp
  | cons m members ih =>
      obtain ⟨other, held⟩ := m
      rw [List.map_cons, List.count_cons] at h
      by_cases heq : name = other
      · subst heq
        simp only [beq_self_eq_true, if_true] at h
        have hnone : name ∉ members.map (·.1) := List.count_eq_zero.mp (by omega)
        have habsent : (name, value) ∉ members := fun hm => hnone (List.mem_map_of_mem hm)
        simp [habsent, eq_comm]
      · have hle : (members.map (·.1)).count name ≤ 1 := by omega
        rw [lookup_cons_of_ne heq, ih hle]
        simp [heq]

theorem lookup_map_value (f : β → γ) (members : List (String × β)) (name : String) :
    (members.map fun m => (m.1, f m.2)).lookup name = (members.lookup name).map f := by
  induction members with
  | nil => rfl
  | cons m members ih =>
      obtain ⟨other, held⟩ := m
      by_cases heq : name = other
      · simp [heq]
      · rw [List.map_cons, lookup_cons_of_ne heq, ih, lookup_cons_of_ne heq]

end

theorem lookup_keepLast {members : List (String × Json)} {name : String}
    (h : (members.map (·.1)).count name ≤ 1) :
    (keepLast members).lookup name = members.lookup name := by
  fun_induction keepLast members with
  | case1 a b rest heq ih =>
      simp only [List.map_cons, List.count_cons] at h ih
      have hne : name ≠ a.1 := by
        rintro rfl
        simp only [heq, beq_self_eq_true, if_true] at h
        omega
      rw [ih (by omega), lookup_cons_of_ne hne]
  | case2 a b rest hne ih =>
      simp only [List.map_cons, List.count_cons] at h ih
      obtain ⟨other, held⟩ := a
      by_cases heq : name = other
      · simp [heq]
      · rw [lookup_cons_of_ne (m := (other, held)) heq, ih (by omega),
          lookup_cons_of_ne (m := (other, held)) heq]
  | case3 => rfl

-- Sorting changes nothing about a name that stands at most once.
theorem lookup_sortMembers {members : List (String × Json)} {name : String}
    (h : (members.map (·.1)).count name ≤ 1) :
    (sortMembers members).lookup name = members.lookup name := by
  have hperm := List.mergeSort_perm members fun a b => decide (a.1 ≤ b.1)
  have hsorted : ((members.mergeSort fun a b => decide (a.1 ≤ b.1)).map (·.1)).count name ≤ 1 := by
    rwa [(hperm.map (·.1)).count_eq]
  rw [sortMembers, lookup_keepLast hsorted]
  refine Option.ext fun value => ?_
  rw [lookup_eq_some_iff_mem hsorted, lookup_eq_some_iff_mem h, hperm.mem_iff]

-- What stands beside a name in the canonical form of an object.
theorem lookup_canonical {members : List (String × Json)} {name : String}
    (h : (members.map (·.1)).count name ≤ 1) :
    (sortMembers (members.map fun m => (m.1, m.2.canonical))).lookup name =
      (members.lookup name).map Json.canonical := by
  have hkeys : ((members.map fun m => (m.1, m.2.canonical)).map (·.1)).count name ≤ 1 := by
    rwa [List.map_map]
  rw [lookup_sortMembers hkeys, lookup_map_value]

end SoftConfirm.Json
