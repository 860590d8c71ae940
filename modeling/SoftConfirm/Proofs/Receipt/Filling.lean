import SoftConfirm.Proofs.Json.Members
import SoftConfirm.Proofs.Json.Reading
import SoftConfirm.Proofs.Receipt.Columns

namespace SoftConfirm

open Json (Ending Reading Term)

namespace Receipt

-- Members whose keys are texts, as they stand in a tree.
def keyed (members : List (String × Term)) : List (Term × Term) :=
  members.map fun m => (.text (some m.1), m.2)

-- What a draft comes to have in a column when these members are read into it.
def Column.reading (c : Column) (depth : Nat) (d : Draft) (members : List (String × Term)) :
    Reading (Option c.Value) :=
  match members.lookup c.name with
  | none => .ok (c.get d)
  | some t => (c.read depth t).map some

namespace Column

variable {c : Column} {depth : Nat} {d : Draft} {members : List (String × Term)}

theorem reading_of_lookup_none (h : members.lookup c.name = none) :
    c.reading depth d members = .ok (c.get d) := by
  simp [reading, h]

theorem reading_of_lookup_some {t : Term} (h : members.lookup c.name = some t) :
    c.reading depth d members = (c.read depth t).map some := by
  simp [reading, h]

theorem reading_cons_of_ne {m : String × Term} (h : c.name ≠ m.1) {e : Draft}
    (hget : c.get e = c.get d) : c.reading depth e (m :: members) = c.reading depth d members := by
  simp only [reading, Json.lookup_cons_of_ne h, hget]

theorem readMember_name (c : Column) (depth : Nat) (ending : Ending) (t : Term)
    (hunset : c.get d = none) :
    Draft.shape.readMember depth ending d (.text (some c.name), t) =
      (c.read depth t).map fun v => c.put v d := by
  have hfind : Draft.shape.fields.find? (fun field => field.name == c.name) = some c.member := by
    rw [show Draft.shape.fields = Column.all.map Column.member from Column.fields_eq,
      List.find?_map]
    exact congrArg (Option.map Column.member) c.find?_name
  simp only [Json.Shape.readMember, Term.readKey, bind, Except.bind, hfind, Column.member, hunset,
    Option.isSome_none, Bool.false_eq_true, if_false]
  cases c.read depth t <;> rfl

end Column

theorem readMember_other {key : String} (h : ∀ c : Column, c.name ≠ key) {t : Term}
    (hskip : t.skip = .ok ()) (depth : Nat) (ending : Ending) (d : Draft) :
    Draft.shape.readMember depth ending d (.text (some key), t) = .ok d := by
  have hfind : Draft.shape.fields.find? (fun field => field.name == key) = none := by
    rw [show Draft.shape.fields = Column.all.map Column.member from Column.fields_eq,
      List.find?_map, Option.map_eq_none_iff, List.find?_eq_none]
    exact fun c _ => by simpa [Column.member] using h c
  simp only [Json.Shape.readMember, Term.readKey, bind, Except.bind, hfind, hskip]
  rfl

-- Members that repeat no column fill a draft, in whatever order they stand: each column comes to
-- have what its own member says, and members of other names are passed over.
theorem foldlM_readMember_eq_ok_iff {depth : Nat} (ending : Ending)
    {members : List (String × Term)} {d e : Draft}
    (hnames : ∀ c : Column, (members.map (·.1)).count c.name ≤ 1)
    (hunset : ∀ c : Column, c.name ∈ members.map (·.1) → c.get d = none)
    (hothers : ∀ m ∈ members, (∀ c : Column, c.name ≠ m.1) → m.2.skip = .ok ()) :
    (keyed members).foldlM (Draft.shape.readMember depth ending) d = .ok e ↔
      ∀ c : Column, c.reading depth d members = .ok (c.get e) := by
  -- The draft is general: the first member may fill a column of it, which no other member of the
  -- list looks at.
  induction members generalizing d with
  | nil =>
      simp only [keyed, List.map_nil, List.foldlM_nil, Column.reading, List.lookup_nil]
      constructor
      · intro h c
        rw [Except.ok.inj h]
      · intro h
        exact congrArg Except.ok (Draft.ext_get fun c => Except.ok.inj (h c))
  | cons m members ih =>
      obtain ⟨key, t⟩ := m
      simp only [List.map_cons, List.count_cons] at hnames
      have hrest : ∀ c : Column, (members.map (·.1)).count c.name ≤ 1 := fun c =>
        Nat.le_of_add_right_le (hnames c)
      have hskips := fun m hm => hothers m (List.mem_cons_of_mem _ hm)
      rw [keyed, List.map_cons, List.foldlM_cons, ← keyed]
      by_cases hkey : ∃ c : Column, c.name = key
      · obtain ⟨c, rfl⟩ := hkey
        have hnew : c.name ∉ members.map (·.1) := by
          have hle := hnames c
          simp only [beq_self_eq_true, if_true] at hle
          exact List.count_eq_zero.mp (by omega)
        have hlookup : ((c.name, t) :: members).lookup c.name = some t := List.lookup_cons_self
        rw [c.readMember_name depth ending t (hunset c List.mem_cons_self)]
        cases hread : c.read depth t with
        | error fault =>
            refine ⟨nofun, fun h => ?_⟩
            have hc := h c
            rw [Column.reading_of_lookup_some hlookup, hread] at hc
            exact absurd hc nofun
        | ok v =>
            have hput : ∀ other : Column, other.name ∈ members.map (·.1) →
                other.get (c.put v d) = none := by
              intro other hother
              have hne : c ≠ other := by
                rintro rfl
                exact hnew hother
              rw [Column.get_put_of_ne hne]
              exact hunset other (List.mem_cons_of_mem _ hother)
            refine (ih hrest hput hskips).trans (forall_congr' fun other => ?_)
            by_cases heq : other = c
            · subst heq
              rw [Column.reading_of_lookup_some hlookup, hread,
                Column.reading_of_lookup_none (Json.lookup_eq_none_iff_notMem.mpr hnew),
                Column.get_put_self]
              rfl
            · have hne : other.name ≠ c.name := fun h => heq (Column.name_injective h)
              rw [Column.reading_cons_of_ne hne (Column.get_put_of_ne (Ne.symm heq) v d).symm]
      · have hother : ∀ c : Column, c.name ≠ key := fun c h => hkey ⟨c, h⟩
        rw [readMember_other hother (hothers _ List.mem_cons_self hother)]
        refine (ih hrest (fun c hc => hunset c (List.mem_cons_of_mem _ hc)) hskips).trans
          (forall_congr' fun c => ?_)
        rw [Column.reading_cons_of_ne (hother c) rfl]

-- The members of an object as they stand in its tree.
def memberTerms (members : List (String × Json)) : List (String × Term) :=
  members.map fun m => (m.1, m.2.toTerm)

theorem toTerm_object (members : List (String × Json)) :
    (Json.object members).toTerm = .object (keyed (memberTerms members)) .closed := by
  rw [Json.toTerm, keyed, memberTerms, List.map_map]
  rfl

theorem names_memberTerms (members : List (String × Json)) :
    (memberTerms members).map (·.1) = members.map (·.1) := by
  rw [memberTerms, List.map_map]
  rfl

theorem lookup_memberTerms (members : List (String × Json)) (name : String) :
    (memberTerms members).lookup name = (members.lookup name).map Json.toTerm :=
  Json.lookup_map_value Json.toTerm members name

theorem skip_memberTerms {members : List (String × Json)} :
    ∀ m ∈ memberTerms members, m.2.skip = .ok () := by
  intro m hm
  obtain ⟨held, -, rfl⟩ := List.mem_map.mp hm
  exact Json.skip_toTerm held.2

-- An object whose members repeat no column is read as the draft that they fill.
theorem foldlM_memberTerms_eq_ok_iff {depth : Nat} {members : List (String × Json)} {d : Draft}
    (hnames : ∀ c : Column, (members.map (·.1)).count c.name ≤ 1) :
    (keyed (memberTerms members)).foldlM (Draft.shape.readMember depth .closed) {} = .ok d ↔
      ∀ c : Column, c.reading depth {} (memberTerms members) = .ok (c.get d) := by
  rw [← names_memberTerms] at hnames
  exact foldlM_readMember_eq_ok_iff .closed hnames (fun c _ => c.get_blank)
    fun m hm _ => skip_memberTerms m hm

end Receipt

end SoftConfirm
