import SoftConfirm.Proofs.Json.Tokens

namespace SoftConfirm

namespace Json

@[simp]
theorem canonical_null : Json.null.canonical = .null := by simp [canonical]

@[simp]
theorem canonical_bool (value : Bool) : (Json.bool value).canonical = .bool value := by
  simp [canonical]

@[simp]
theorem canonical_number (value : Number) : (Json.number value).canonical = .number value := by
  simp [canonical]

@[simp]
theorem canonical_text (value : String) : (Json.text value).canonical = .text value := by
  simp [canonical]

theorem canonical_array (items : List Json) :
    (Json.array items).canonical = .array (items.map canonical) := by
  rw [canonical]

theorem canonical_object (members : List (String × Json)) :
    (Json.object members).canonical =
      .object (sortMembers (members.map fun m => (m.1, m.2.canonical))) := by
  rw [canonical]

theorem keepLast_of_nodup {members : List (String × Json)} (h : (members.map (·.1)).Nodup) :
    keepLast members = members := by
  fun_induction keepLast members with
  | case1 a b rest heq _ =>
      rw [List.map_cons, List.map_cons, heq] at h
      exact absurd List.mem_cons_self (List.nodup_cons.mp h).1
  | case2 a b rest _ ih =>
      rw [List.map_cons] at h
      rw [ih (List.nodup_cons.mp h).2]
  | case3 => rfl

theorem keepLast_sublist (members : List (String × Json)) :
    (keepLast members).Sublist members := by
  fun_induction keepLast members with
  | case1 a b rest _ ih => exact ih.cons a
  | case2 a b rest _ ih => exact ih.cons_cons a
  | case3 => exact List.Sublist.refl _

theorem sortMembers_subset (members : List (String × Json)) : sortMembers members ⊆ members := by
  intro m hm
  exact List.mem_mergeSort.mp ((keepLast_sublist _).subset hm)

theorem count_sortMembers_le (members : List (String × Json)) (name : String) :
    ((sortMembers members).map (·.1)).count name ≤ (members.map (·.1)).count name := by
  have hperm := List.mergeSort_perm members fun a b => decide (a.1 ≤ b.1)
  rw [← (hperm.map (·.1)).count_eq]
  exact ((keepLast_sublist _).map (·.1)).count_le name

-- Members that share no key are only put in another order.
theorem sortMembers_perm {members : List (String × Json)} (h : (members.map (·.1)).Nodup) :
    (sortMembers members).Perm members := by
  have hperm := List.mergeSort_perm members fun a b => decide (a.1 ≤ b.1)
  have hkeys : ((members.mergeSort fun a b => decide (a.1 ≤ b.1)).map (·.1)).Nodup :=
    (hperm.map _).nodup_iff.mpr h
  rw [sortMembers, keepLast_of_nodup hkeys]
  exact hperm

theorem pairwise_keepLast {members : List (String × Json)}
    (h : members.Pairwise fun a b => a.1 ≤ b.1) :
    (keepLast members).Pairwise fun a b => a.1 < b.1 := by
  fun_induction keepLast members with
  | case1 a b rest _ ih => exact ih (List.pairwise_cons.mp h).2
  | case2 a b rest hne ih =>
      obtain ⟨hfirst, hrest⟩ := List.pairwise_cons.mp h
      have hnext : a.1 < b.1 := Std.lt_of_le_of_ne (hfirst b List.mem_cons_self) hne
      refine .cons (fun c hc => ?_) (ih hrest)
      rcases List.mem_cons.mp ((keepLast_sublist _).subset hc) with rfl | hc
      · exact hnext
      · exact Std.lt_of_lt_of_le hnext ((List.pairwise_cons.mp hrest).1 c hc)
  | case3 short hshort =>
      match short with
      | [] => exact .nil
      | [a] => exact List.pairwise_singleton _ a
      | a :: b :: rest => exact absurd rfl (hshort a b rest)

-- Sorted members stand in the order of their keys, each key once.
theorem pairwise_sortMembers (members : List (String × Json)) :
    (sortMembers members).Pairwise fun a b => a.1 < b.1 := by
  have htrans (a b c : String × Json) (hab : decide (a.1 ≤ b.1) = true)
      (hbc : decide (b.1 ≤ c.1) = true) : decide (a.1 ≤ c.1) = true :=
    decide_eq_true (String.le_trans (of_decide_eq_true hab) (of_decide_eq_true hbc))
  have htotal (a b : String × Json) : (decide (a.1 ≤ b.1) || decide (b.1 ≤ a.1)) = true := by
    simpa using String.le_total a.1 b.1
  exact pairwise_keepLast ((List.pairwise_mergeSort htrans htotal members).imp of_decide_eq_true)

theorem sortMembers_of_pairwise {members : List (String × Json)}
    (h : members.Pairwise fun a b => a.1 < b.1) : sortMembers members = members := by
  have hsorted : members.Pairwise fun a b => decide (a.1 ≤ b.1) = true :=
    h.imp fun hab => decide_eq_true (Std.le_of_lt hab)
  have hkeys : (members.map (·.1)).Nodup := List.pairwise_map.mpr (h.imp Std.ne_of_lt)
  rw [sortMembers, List.mergeSort_of_pairwise hsorted, keepLast_of_nodup hkeys]

theorem sortMembers_sortMembers (members : List (String × Json)) :
    sortMembers (sortMembers members) = sortMembers members :=
  sortMembers_of_pairwise (pairwise_sortMembers members)

theorem Legible.canonical {value : Json} (h : value.Legible) : value.canonical.Legible := by
  induction h with
  | null =>
      rw [canonical_null]
      exact .null
  | bool value =>
      rw [canonical_bool]
      exact .bool value
  | integer low high =>
      rw [canonical_number]
      exact .integer low high
  | text value =>
      rw [canonical_text]
      exact .text value
  | array _ ih =>
      rw [canonical_array]
      refine .array fun item hitem => ?_
      obtain ⟨original, horiginal, rfl⟩ := List.mem_map.mp hitem
      exact ih original horiginal
  | object _ ih =>
      rw [canonical_object]
      refine .object fun m hm => ?_
      obtain ⟨original, horiginal, rfl⟩ := List.mem_map.mp (sortMembers_subset _ hm)
      exact ih original horiginal

end Json

end SoftConfirm
