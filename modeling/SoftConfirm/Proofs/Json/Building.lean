import SoftConfirm.Json.Reader
import SoftConfirm.Proofs.Json.Tokens

namespace SoftConfirm

namespace Json

-- Induction over values, through the items of arrays and the members of objects.
@[elab_as_elim]
theorem induction {motive : Json → Prop} (null : motive .null)
    (bool : ∀ value, motive (.bool value)) (number : ∀ value, motive (.number value))
    (text : ∀ value, motive (.text value))
    (array : ∀ items : List Json, (∀ item ∈ items, motive item) → motive (.array items))
    (object : ∀ members : List (String × Json), (∀ m ∈ members, motive m.2) →
      motive (.object members)) (value : Json) : motive value :=
  match value with
  | .null => null
  | .bool value => bool value
  | .number value => number value
  | .text value => text value
  | .array items => array items fun item _ => induction null bool number text array object item
  | .object members =>
      object members fun m _ => induction null bool number text array object m.2
termination_by sizeOf value
decreasing_by
  · have := List.sizeOf_lt_of_mem ‹_ ∈ items›
    simp_all; omega
  · have := List.sizeOf_lt_of_mem ‹_ ∈ members›
    rcases m with ⟨key, value⟩
    simp_all; omega

theorem exists_tokens_eq_cons (value : Json) :
    ∃ token rest, value.tokens = token :: rest ∧ token ≠ .closeArray := by
  cases value with
  | null | bool value | number value | text value | array items | object members =>
      rw [tokens]
      refine ⟨_, _, rfl, ?_⟩
      intro h
      cases h

def memberTokens (m : String × Json) : List Token := .text (some m.1) :: .colon :: m.2.tokens

def memberTerm (m : String × Json) : Term × Term := (.text (some m.1), m.2.toTerm)

theorem exists_commas_eq_append (part : List Token) (parts : List (List Token)) :
    ∃ rest, commas (part :: parts) = part ++ rest := by
  cases parts with
  | nil => exact ⟨[], by rw [commas_singleton, List.append_nil]⟩
  | cons next parts => exact ⟨_, commas_cons_cons part next parts⟩

namespace Builder

-- Feeding a value's tokens to a builder that waits for a value puts the value's tree in place.
def Builds (value : Json) : Prop :=
  ∀ frames, value.tokens.foldl step (.valueNext frames) = plug value.toTerm frames

-- After an opening bracket the first item is built as in the place of any other value.
theorem foldl_step_arrayStart (item : Json) (items : List Json) (rest : List Token)
    (frames : List Frame) :
    (commas ((item :: items).map tokens) ++ rest).foldl step (.arrayStart frames) =
      (commas ((item :: items).map tokens) ++ rest).foldl step
        (.valueNext (.item [] :: frames)) := by
  obtain ⟨token, others, htoken, hne⟩ := exists_tokens_eq_cons item
  obtain ⟨more, hmore⟩ := exists_commas_eq_append item.tokens (items.map tokens)
  have hstep : step (.arrayStart frames) token = step (.valueNext (.item [] :: frames)) token := by
    cases token <;> first | rfl | exact absurd rfl hne
  rw [List.map_cons, hmore, htoken, List.cons_append, List.cons_append, List.foldl_cons, hstep,
    List.foldl_cons]

theorem foldl_step_objectStart (m : String × Json) (members : List (String × Json))
    (rest : List Token) (frames : List Frame) :
    (commas ((m :: members).map memberTokens) ++ rest).foldl step (.objectStart frames) =
      (commas ((m :: members).map memberTokens) ++ rest).foldl step (.keyNext [] frames) := by
  obtain ⟨more, hmore⟩ := exists_commas_eq_append (memberTokens m) (members.map memberTokens)
  rw [List.map_cons, hmore]
  rfl

theorem foldl_step_items {items : List Json} (hitems : ∀ item ∈ items, Builds item)
    (hne : items ≠ []) (before : List Term) (frames : List Frame) :
    (commas (items.map tokens) ++ [Token.closeArray]).foldl step
        (.valueNext (.item before :: frames)) =
      plug (.array (before.reverse ++ items.map toTerm) .closed) frames := by
  induction items generalizing before with
  | nil => exact absurd rfl hne
  | cons item items ih =>
      have hitem := hitems item List.mem_cons_self (.item before :: frames)
      cases items with
      | nil =>
          rw [List.map_singleton, commas_singleton, List.foldl_append, hitem, List.map_singleton,
            ← List.reverse_cons]
          rfl
      | cons next items =>
          have hrest := ih (fun other hother => hitems other (List.mem_cons_of_mem item hother))
            (List.cons_ne_nil next items) (item.toTerm :: before)
          have hcomma : step (plug item.toTerm (.item before :: frames)) .comma =
              .valueNext (.item (item.toTerm :: before) :: frames) := rfl
          simp only [List.map_cons] at hrest ⊢
          rw [commas_cons_cons, List.append_assoc, List.foldl_append, hitem, List.cons_append,
            List.foldl_cons, hcomma, hrest, List.reverse_cons, List.append_assoc,
            List.singleton_append]

theorem foldl_step_member {m : String × Json} (hvalue : Builds m.2)
    (before : List (Term × Term)) (frames : List Frame) :
    (memberTokens m).foldl step (.keyNext before frames) =
      .objectNext (memberTerm m :: before) frames :=
  hvalue (.member before (.text (some m.1)) :: frames)

theorem foldl_step_members {members : List (String × Json)}
    (hmembers : ∀ m ∈ members, Builds m.2) (hne : members ≠ []) (before : List (Term × Term))
    (frames : List Frame) :
    (commas (members.map memberTokens) ++ [Token.closeObject]).foldl step
        (.keyNext before frames) =
      plug (.object (before.reverse ++ members.map memberTerm) .closed) frames := by
  induction members generalizing before with
  | nil => exact absurd rfl hne
  | cons m members ih =>
      have hmember := foldl_step_member (hmembers m List.mem_cons_self) before frames
      cases members with
      | nil =>
          rw [List.map_singleton, commas_singleton, List.foldl_append, hmember,
            List.map_singleton, ← List.reverse_cons]
          rfl
      | cons next members =>
          have hrest := ih (fun other hother => hmembers other (List.mem_cons_of_mem m hother))
            (List.cons_ne_nil next members) (memberTerm m :: before)
          have hcomma (member : Term × Term) : step (.objectNext (member :: before) frames) .comma =
              .keyNext (member :: before) frames := rfl
          simp only [List.map_cons] at hrest ⊢
          rw [commas_cons_cons, List.append_assoc, List.foldl_append, hmember, List.cons_append,
            List.foldl_cons, hcomma, hrest, List.reverse_cons, List.append_assoc,
            List.singleton_append]

-- The tokens of a value build the tree that says it.
theorem builds (value : Json) : Builds value := by
  intro frames
  induction value using Json.induction generalizing frames with
  | null => rw [tokens, toTerm]; rfl
  | bool value => rw [tokens, toTerm]; rfl
  | number value => rw [tokens, toTerm]; rfl
  | text value => rw [tokens, toTerm]; rfl
  | array items ih =>
      rw [tokens, toTerm, List.cons_append, List.foldl_cons]
      cases items with
      | nil => rfl
      | cons item items =>
          exact (foldl_step_arrayStart item items _ frames).trans
            (foldl_step_items ih (List.cons_ne_nil item items) [] frames)
  | object members ih =>
      rw [tokens, toTerm, List.cons_append, List.foldl_cons]
      cases members with
      | nil => rfl
      | cons m members =>
          exact (foldl_step_objectStart m members _ frames).trans
            (foldl_step_members ih (List.cons_ne_nil m members) [] frames)

end Builder

-- The text of a legible value holds the tree that says it, and nothing more.
theorem Legible.ofText_render {value : Json} (h : value.Legible) :
    Document.ofText value.render = ⟨value.toTerm, false⟩ := by
  rw [Document.ofText, Document.ofUnits, render, String.toList_ofList, h.scan_chars,
    Builder.builds]
  rfl

theorem Legible.ofBytes_render {value : Json} (h : value.Legible) :
    Document.ofBytes (Text.utf8 value.render) = ⟨value.toTerm, false⟩ := by
  rw [Document.ofBytes, Text.units_utf8]
  exact h.ofText_render

theorem Legible.readDocument_render {α : Type} {value : Json} (h : value.Legible)
    (read : Term → Reading α) : readDocument read value.render = read value.toTerm := by
  rw [readDocument, h.ofText_render]
  simp

end Json

end SoftConfirm
