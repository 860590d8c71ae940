import SoftConfirm.Proofs.Json.Scanning

namespace SoftConfirm

namespace Json

def commas (parts : List (List Token)) : List Token := List.flatten (parts.intersperse [.comma])

theorem commas_singleton (part : List Token) : commas [part] = part := by
  simp [commas]

theorem commas_cons_cons (part next : List Token) (parts : List (List Token)) :
    commas (part :: next :: parts) = part ++ .comma :: commas (next :: parts) := by
  simp [commas]

theorem separated_singleton (part : List Char) : separated [part] = part := by
  simp [separated]

theorem separated_cons_cons (part next : List Char) (parts : List (List Char)) :
    separated (part :: next :: parts) = part ++ ',' :: separated (next :: parts) := by
  simp [separated]

-- The tokens of a value's text.
def tokens : Json → List Token
  | .null => [.null]
  | .bool value => [.bool value]
  | .number value => [.number (some value)]
  | .text value => [.text (some value)]
  | .array items => .openArray :: commas (items.map tokens) ++ [.closeArray]
  | .object members =>
      .openObject :: commas (members.map fun m => .text (some m.1) :: .colon :: tokens m.2) ++
        [.closeObject]
termination_by value => sizeOf value
decreasing_by
  · have := List.sizeOf_lt_of_mem ‹_ ∈ items›
    simp_all; omega
  · have := List.sizeOf_lt_of_mem ‹_ ∈ members›
    rcases m with ⟨key, value⟩
    simp_all; omega

-- Values whose numbers are all integers of 64 bits, with a sign or without.
inductive Legible : Json → Prop
  | null : Legible .null
  | bool (value : Bool) : Legible (.bool value)
  | integer {value : Int} (low : -2 ^ 63 ≤ value) (high : value < 2 ^ 64) :
      Legible (.number (.integer value))
  | text (value : String) : Legible (.text value)
  | array {items : List Json} (legible : ∀ item ∈ items, Legible item) : Legible (.array items)
  | object {members : List (String × Json)} (legible : ∀ m ∈ members, Legible m.2) :
      Legible (.object members)

namespace Scanner

-- These characters are these tokens, wherever a token may start.
def Spells (cs : List Char) (tokens : List Token) : Prop :=
  ∀ done, Settled (cs.foldl step ⟨done, .between⟩) (tokens.reverse ++ done)

section Separated

variable {α : Type} {chars : α → List Char} {tokens : α → List Token}

-- Parts with commas between them, up to the mark that ends the last part.
theorem foldl_step_separated {parts : List α} (hparts : ∀ part ∈ parts,
    Spells (chars part) (tokens part)) {c : Char} {token : Token} (hmark : Mark c token)
    (done : List Token) :
    (separated (parts.map chars) ++ [c]).foldl step ⟨done, .between⟩ =
      ⟨(commas (parts.map tokens) ++ [token]).reverse ++ done, .between⟩ := by
  induction parts generalizing done with
  | nil => exact (settled_between done).step c token hmark
  | cons part parts ih =>
      have hpart := hparts part List.mem_cons_self done
      cases parts with
      | nil =>
          rw [List.map_singleton, List.map_singleton, separated_singleton, commas_singleton,
            List.foldl_append, List.foldl_cons, List.foldl_nil, hpart.step c token hmark,
            List.reverse_append, List.reverse_singleton, List.append_assoc,
            List.singleton_append]
      | cons next parts =>
          have hrest := ih (fun other hother => hparts other (List.mem_cons_of_mem part hother))
            (.comma :: (tokens part).reverse ++ done)
          simp only [List.map_cons] at hrest ⊢
          rw [separated_cons_cons, commas_cons_cons, List.append_assoc, List.cons_append,
            List.foldl_append, List.foldl_cons, hpart.step ',' .comma .comma, ← List.cons_append,
            hrest]
          simp

end Separated

theorem spells_of_foldl {cs : List Char} {tokens : List Token}
    (h : ∀ done, cs.foldl step ⟨done, .between⟩ = ⟨tokens.reverse ++ done, .between⟩) :
    Spells cs tokens := by
  intro done
  rw [h done]
  exact settled_between _

theorem spells_container {c : Char} {cs : List Char} {token : Token} {tokens : List Token}
    (hopen : ∀ done, step ⟨done, .between⟩ c = ⟨token :: done, .between⟩)
    (hinside : ∀ done, cs.foldl step ⟨done, .between⟩ = ⟨tokens.reverse ++ done, .between⟩) :
    Spells (c :: cs) (token :: tokens) := by
  refine spells_of_foldl fun done => ?_
  rw [List.foldl_cons, hopen, hinside, List.reverse_cons, List.append_assoc,
    List.singleton_append]

theorem spells_member (key : String) {value : Json} (h : Spells value.chars value.tokens) :
    Spells (quotedChars key ++ ':' :: value.chars)
      (.text (some key) :: .colon :: value.tokens) := by
  intro done
  have hcolon : step ⟨.text (some key) :: done, .between⟩ ':' =
      ⟨.colon :: .text (some key) :: done, .between⟩ := rfl
  have hvalue := h (.colon :: .text (some key) :: done)
  rw [List.foldl_append, foldl_step_quotedChars, List.foldl_cons, hcolon]
  simpa using hvalue

end Scanner

open Scanner in
theorem Legible.spells {value : Json} (h : value.Legible) : Spells value.chars value.tokens := by
  induction h with
  | null =>
      rw [chars, tokens]
      exact spells_of_foldl fun _ => rfl
  | bool value =>
      rw [chars, tokens]
      cases value
      · exact spells_of_foldl fun _ => rfl
      · exact spells_of_foldl fun _ => rfl
  | integer low high =>
      rw [chars, tokens]
      exact fun done => settled_integer done low high
  | text value =>
      rw [chars, tokens]
      exact spells_of_foldl fun done => foldl_step_quotedChars done value
  | array _ ih =>
      rw [chars, tokens]
      exact spells_container (fun _ => rfl) fun done => foldl_step_separated ih .closeArray done
  | object _ ih =>
      rw [chars, tokens]
      refine spells_container (fun _ => rfl) fun done => foldl_step_separated ?_ .closeObject done
      exact fun m hm => spells_member m.1 (ih m hm)

-- A legible value's text consists of the value's tokens.
theorem Legible.scan_chars {value : Json} (h : value.Legible) :
    Token.scan (value.chars.map some) = value.tokens := by
  have hfinish := (h.spells []).finish
  rw [List.append_nil, List.reverse_reverse] at hfinish
  rw [Token.scan, List.foldl_map]
  exact hfinish

end Json

end SoftConfirm
