import Mathlib.Data.List.DropRight
import SoftConfirm.Text.Blank

namespace SoftConfirm

namespace Text

variable {cs before after : List Char}

theorem dropWhile_of_head? (h : ∀ c, cs.head? = some c → isBlank c = false) :
    cs.dropWhile isBlank = cs := by
  cases cs with
  | nil => rfl
  | cons c cs => simp [h c rfl]

theorem dropWhile_of_not_blank (h : ∀ c ∈ cs, isBlank c = false) :
    cs.dropWhile isBlank = cs :=
  dropWhile_of_head? fun c hc => h c (List.mem_of_head? hc)

-- A text without blanks is left as it is.
theorem trimChars_of_not_blank (h : ∀ c ∈ cs, isBlank c = false) : trimChars cs = cs := by
  rw [trimChars, dropWhile_of_not_blank h,
    dropWhile_of_not_blank (fun c hc => h c (List.mem_reverse.mp hc)), List.reverse_reverse]

theorem trimChars_append_left (h : ∀ c ∈ before, isBlank c = true) :
    trimChars (before ++ cs) = trimChars cs := by
  rw [trimChars, List.dropWhile_append_of_pos h, trimChars]

theorem trimChars_append_right (h : ∀ c ∈ after, isBlank c = true) :
    trimChars (cs ++ after) = trimChars cs := by
  have hreverse : ∀ c ∈ after.reverse, isBlank c = true := fun c hc => h c (List.mem_reverse.mp hc)
  have hnil : after.dropWhile isBlank = [] := List.dropWhile_eq_nil_iff.mpr h
  rw [trimChars, trimChars, List.dropWhile_append]
  split
  · rename_i hempty
    rw [hnil, List.isEmpty_iff.mp hempty]
  · rw [List.reverse_append, List.dropWhile_append_of_pos hreverse]

-- A text is what trimming leaves of it, with blanks around.
theorem exists_eq_append_trimChars (cs : List Char) :
    ∃ before after, cs = before ++ trimChars cs ++ after ∧
      (∀ c ∈ before, isBlank c = true) ∧ ∀ c ∈ after, isBlank c = true := by
  refine ⟨cs.takeWhile isBlank, (cs.dropWhile isBlank).rtakeWhile isBlank, ?_, ?_, ?_⟩
  · have hright : trimChars cs ++ (cs.dropWhile isBlank).rtakeWhile isBlank =
        cs.dropWhile isBlank := List.rdropWhile_append_rtakeWhile
    rw [List.append_assoc, hright, List.takeWhile_append_dropWhile]
  · exact fun c hc => List.mem_takeWhile_imp hc
  · exact fun c hc => List.mem_rtakeWhile_imp hc

theorem trimChars_eq_nil_iff : trimChars cs = [] ↔ ∀ c ∈ cs, isBlank c = true := by
  constructor
  · intro h c hc
    obtain ⟨before, after, hcs, hbefore, hafter⟩ := exists_eq_append_trimChars cs
    rw [h, List.append_nil] at hcs
    rw [hcs] at hc
    exact (List.mem_append.mp hc).elim (hbefore c) (hafter c)
  · intro h
    have htrim : trimChars (cs ++ []) = trimChars [] := trimChars_append_left h
    rwa [List.append_nil] at htrim

-- What is left of a text when the blanks at both of its ends are taken off.
structure Trimmed (cs inner : List Char) : Prop where
  around : ∃ before after, cs = before ++ inner ++ after ∧
    (∀ c ∈ before, isBlank c = true) ∧ ∀ c ∈ after, isBlank c = true
  head : ∀ c, inner.head? = some c → isBlank c = false
  last : ∀ c, inner.getLast? = some c → isBlank c = false

theorem Trimmed.trimChars_eq {inner : List Char} (h : Trimmed cs inner) : trimChars cs = inner := by
  obtain ⟨before, after, rfl, hbefore, hafter⟩ := h.around
  have hlast : ∀ c, inner.reverse.head? = some c → isBlank c = false := by
    intro c hc
    rw [List.head?_reverse] at hc
    exact h.last c hc
  rw [trimChars_append_right hafter, trimChars_append_left hbefore, trimChars,
    dropWhile_of_head? h.head, dropWhile_of_head? hlast, List.reverse_reverse]

theorem trimmed_trimChars (cs : List Char) : Trimmed cs (trimChars cs) where
  around := exists_eq_append_trimChars cs
  head := by
    intro c hc
    have hright : trimChars cs ++ (cs.dropWhile isBlank).rtakeWhile isBlank =
        cs.dropWhile isBlank := List.rdropWhile_append_rtakeWhile
    have hfirst : (cs.dropWhile isBlank).head? = some c := by
      rw [← hright, List.head?_append, hc, Option.some_or]
    have hstop := List.head?_dropWhile_not isBlank cs
    rwa [hfirst] at hstop
  last := by
    intro c hc
    have hne : (cs.dropWhile isBlank).rdropWhile isBlank ≠ [] := by
      intro hnil
      rw [show trimChars cs = [] from hnil] at hc
      cases hc
    have hstop := List.rdropWhile_last_not isBlank (cs.dropWhile isBlank) hne
    have hlast := List.getLast?_eq_some_getLast hne
    rw [← Option.some.inj (hlast.symm.trans hc)]
    simpa using hstop

theorem trimmed_iff {inner : List Char} : Trimmed cs inner ↔ inner = trimChars cs := by
  constructor
  · exact fun h => h.trimChars_eq.symm
  · rintro rfl
    exact trimmed_trimChars cs

end Text

end SoftConfirm
