import SoftConfirm.Proofs.Trimming
import SoftConfirm.Text.CommaList

namespace SoftConfirm

namespace Text

variable {text entry : String} {parts entries : List String}

-- A text with nothing but blanks in it, if anything.
def Blank (part : String) : Prop := ∀ c ∈ part.toList, isBlank c = true

instance (part : String) : Decidable (Blank part) :=
  decidable_of_iff (part.toList.all isBlank = true) List.all_eq_true

-- A text that can be an entry of a list: something stands in it, but no comma, and no blank at
-- either end.
structure IsEntry (entry : String) : Prop where
  ne_empty : entry ≠ ""
  no_comma : ',' ∉ entry.toList
  head : ∀ c, entry.toList.head? = some c → isBlank c = false
  last : ∀ c, entry.toList.getLast? = some c → isBlank c = false

-- Parts that a list is written with: its entries in their order, each with blanks around it, and
-- any number of blank parts before, between and after them.
inductive Spaced : List String → List String → Prop where
  | nil : Spaced [] []
  | blank {part : String} {parts entries : List String} (hblank : Blank part)
      (hrest : Spaced parts entries) : Spaced (part :: parts) entries
  | entry {before entry after : String} {parts entries : List String} (hbefore : Blank before)
      (hafter : Blank after) (hrest : Spaced parts entries) :
      Spaced ((before ++ entry ++ after) :: parts) (entry :: entries)

-- A comma is no blank, and so blanks can be put around entries without adding any.
theorem Blank.no_comma (h : Blank text) : ',' ∉ text.toList := by
  intro hmem
  have hcomma : isBlank ',' = false := by decide
  rw [h ',' hmem] at hcomma
  cases hcomma

theorem commaList_append (a b : String) :
    commaList (a ++ "," ++ b) = commaList a ++ commaList b := by
  have htext : (a ++ "," ++ b).toList = a.toList ++ ',' :: b.toList := by simp
  have hpieces : pieces (a ++ "," ++ b).toList = pieces a.toList ++ pieces b.toList := by
    rw [htext]
    exact List.splitOn_append_cons_self a.toList b.toList
  rw [commaList, hpieces, List.map_append, List.filter_append, List.map_append]
  rfl

theorem commaList_of_no_comma (h : ',' ∉ text.toList) :
    commaList text = if trim text = "" then [] else [trim text] := by
  have hpieces : pieces text.toList = [text.toList] := List.splitOn_eq_singleton h
  rw [commaList, hpieces, trim]
  by_cases htrim : trimChars text.toList = []
  · simp [htrim]
  · simp [htrim]

theorem trim_eq_empty_iff : trim text = "" ↔ Blank text := by
  rw [Blank, ← trimChars_eq_nil_iff, ← toList_trim, String.toList_eq_nil_iff]

theorem commaList_of_blank (h : Blank text) : commaList text = [] := by
  rw [commaList_of_no_comma h.no_comma, if_pos (trim_eq_empty_iff.mpr h)]

theorem commaList_of_entry {before after : String} (h : IsEntry entry) (hbefore : Blank before)
    (hafter : Blank after) : commaList (before ++ entry ++ after) = [entry] := by
  have hcomma : ',' ∉ (before ++ entry ++ after).toList := by
    simp [hbefore.no_comma, h.no_comma, hafter.no_comma]
  have htrimmed : Trimmed (before ++ entry ++ after).toList entry.toList := {
    around := ⟨before.toList, after.toList, by simp, hbefore, hafter⟩
    head := h.head
    last := h.last }
  have htrim : trim (before ++ entry ++ after) = entry := by
    rw [trim, htrimmed.trimChars_eq, String.ofList_toList]
  rw [commaList_of_no_comma hcomma, htrim, if_neg h.ne_empty]

theorem commaList_intercalate_cons (part : String) (parts : List String) :
    commaList (",".intercalate (part :: parts)) =
      commaList part ++ commaList (",".intercalate parts) := by
  cases parts with
  | nil =>
      have hempty : commaList "" = [] := by decide
      rw [String.intercalate_singleton, String.intercalate_nil, hempty, List.append_nil]
  | cons next rest => rw [String.intercalate_cons_cons, commaList_append]

-- Blank parts add nothing, and the others give an entry each.
theorem Spaced.commaList_intercalate (h : Spaced parts entries)
    (hentries : ∀ entry ∈ entries, IsEntry entry) :
    commaList (",".intercalate parts) = entries := by
  induction h with
  | nil => decide
  | blank hblank hrest ih =>
      rw [commaList_intercalate_cons, commaList_of_blank hblank, ih hentries, List.nil_append]
  | entry hbefore hafter hrest ih =>
      have hentry := hentries _ List.mem_cons_self
      have hothers := ih fun other hother => hentries other (List.mem_cons_of_mem _ hother)
      rw [commaList_intercalate_cons, commaList_of_entry hentry hbefore hafter, hothers]
      rfl

-- Induction over the parts of a text, the first one first.
theorem comma_induction {motive : String → Prop}
    (single : ∀ part, ',' ∉ part.toList → motive part)
    (comma : ∀ part rest, ',' ∉ part.toList → motive rest → motive (part ++ "," ++ rest))
    (text : String) : motive text := by
  induction hlength : text.toList.length using Nat.strongRecOn generalizing text with
  | ind length ih =>
      by_cases hcomma : ',' ∈ text.toList
      · obtain ⟨part, rest, htext, hpart⟩ := List.eq_append_cons_of_mem hcomma
        have hshorter : (String.ofList rest).toList.length < length := by
          rw [← hlength, htext, String.toList_ofList, List.length_append, List.length_cons]
          omega
        have hwhole : text = String.ofList part ++ "," ++ String.ofList rest := by
          apply String.toList_inj.mp
          simp [htext]
        rw [hwhole]
        exact comma _ _ (by simpa using hpart) (ih _ hshorter _ rfl)
      · exact single text hcomma

theorem isEntry_trim (hcomma : ',' ∉ text.toList) (hne : trim text ≠ "") : IsEntry (trim text) := by
  have htrimmed := trimmed_trimChars text.toList
  obtain ⟨before, after, htext, -, -⟩ := htrimmed.around
  rw [← toList_trim] at htrimmed htext
  refine ⟨hne, fun hmem => hcomma ?_, htrimmed.head, htrimmed.last⟩
  rw [htext]
  exact List.mem_append_left _ (List.mem_append_right _ hmem)

theorem isEntry_of_mem_single (hcomma : ',' ∉ text.toList) (h : entry ∈ commaList text) :
    IsEntry entry := by
  rw [commaList_of_no_comma hcomma] at h
  split at h
  · cases h
  · rename_i hne
    rw [List.mem_singleton.mp h]
    exact isEntry_trim hcomma hne

theorem isEntry_of_mem (h : entry ∈ commaList text) : IsEntry entry := by
  induction text using comma_induction with
  | single part hpart => exact isEntry_of_mem_single hpart h
  | comma part rest hpart ih =>
      rw [commaList_append] at h
      rcases List.mem_append.mp h with h | h
      · exact isEntry_of_mem_single hpart h
      · exact ih h

-- A text without a comma is one part, whether an entry stands in it or not.
theorem Spaced.cons_part {part : String} (hcomma : ',' ∉ part.toList) (h : Spaced parts entries) :
    Spaced (part :: parts) (commaList part ++ entries) := by
  rw [commaList_of_no_comma hcomma]
  by_cases hblank : Blank part
  · rw [if_pos (trim_eq_empty_iff.mpr hblank)]
    exact .blank hblank h
  · obtain ⟨before, after, hpart, hbefore, hafter⟩ := exists_eq_append_trimChars part.toList
    have hwhole : part = String.ofList before ++ trim part ++ String.ofList after := by
      apply String.toList_inj.mp
      simpa [toList_trim] using hpart
    have hspaced : Spaced ((String.ofList before ++ trim part ++ String.ofList after) :: parts)
        (trim part :: entries) :=
      .entry (by simpa [Blank] using hbefore) (by simpa [Blank] using hafter) h
    rw [← hwhole] at hspaced
    rw [if_neg (mt trim_eq_empty_iff.mp hblank)]
    exact hspaced

theorem exists_spaced (text : String) :
    ∃ parts, parts ≠ [] ∧ ",".intercalate parts = text ∧ Spaced parts (commaList text) := by
  induction text using comma_induction with
  | single part hpart =>
      have hspaced := Spaced.nil.cons_part hpart
      rw [List.append_nil] at hspaced
      exact ⟨[part], List.cons_ne_nil _ _, String.intercalate_singleton, hspaced⟩
  | comma part rest hpart ih =>
      obtain ⟨parts, hne, rfl, hspaced⟩ := ih
      refine ⟨part :: parts, List.cons_ne_nil _ _, String.intercalate_cons_of_ne_nil hne, ?_⟩
      rw [commaList_append]
      exact hspaced.cons_part hpart

-- Lists of two texts with a comma in between follow each other, an entry is neither empty nor has
-- a comma or a blank at either end, and entries are read back from a text whatever blanks and
-- blank parts are put around them. Every text is written in that way.
theorem commaList_normal_form :
    (∀ a b, commaList (a ++ "," ++ b) = commaList a ++ commaList b) ∧
      (∀ text, ∀ entry ∈ commaList text, IsEntry entry) ∧
      (∀ parts entries, Spaced parts entries → (∀ entry ∈ entries, IsEntry entry) →
        commaList (",".intercalate parts) = entries) ∧
      ∀ text, ∃ parts, ",".intercalate parts = text ∧ Spaced parts (commaList text) := by
  refine ⟨commaList_append, fun text entry h => isEntry_of_mem h,
    fun parts entries h hentries => h.commaList_intercalate hentries, fun text => ?_⟩
  obtain ⟨parts, -, htext, hspaced⟩ := exists_spaced text
  exact ⟨parts, htext, hspaced⟩

-- An ideographic space and a no-break space are blanks. The space inside an entry stays.
theorem commaList_normal_form_spaces :
    let parts := ["", "\u3000" ++ "a b" ++ "\u00a0", " \t", "" ++ "c" ++ ""]
    Spaced parts ["a b", "c"] ∧ (∀ entry ∈ ["a b", "c"], IsEntry entry) ∧
      ",".intercalate parts = ",\u3000a b\u00a0, \t,c" ∧
      commaList ",\u3000a b\u00a0, \t,c" = ["a b", "c"] := by
  intro parts
  have hlast : Spaced ["" ++ "c" ++ ""] ["c"] := .entry (by decide) (by decide) .nil
  have hspaced : Spaced parts ["a b", "c"] :=
    .blank (by decide) (.entry (by decide) (by decide) (.blank (by decide) hlast))
  have hplain : ∀ entry ∈ ["a b", "c"], trim entry = entry ∧ ',' ∉ entry.toList ∧ entry ≠ "" := by
    decide
  have hentries : ∀ entry ∈ ["a b", "c"], IsEntry entry := by
    intro entry hentry
    obtain ⟨htrim, hcomma, hne⟩ := hplain entry hentry
    have htrimmed : IsEntry (trim entry) := isEntry_trim hcomma (by rwa [htrim])
    rwa [htrim] at htrimmed
  have htext : ",".intercalate parts = ",\u3000a b\u00a0, \t,c" := by decide
  obtain ⟨-, -, hread, -⟩ := commaList_normal_form
  have hlist := hread parts ["a b", "c"] hspaced hentries
  rw [htext] at hlist
  exact ⟨hspaced, hentries, htext, hlist⟩

end Text

end SoftConfirm
