import SoftConfirm.Bytes

/-!
Texts as bytes. Encoding is total and distributes over concatenation; decoding accepts exactly
the encodings. Any bytes can be taken apart into the characters that they encode and the bytes in
between, and those of a text are just its characters.
-/

namespace SoftConfirm.Text

def utf8 (s : String) : Bytes := s.toByteArray.data.toList

-- The text that these bytes encode, if they encode one.
def ofUtf8? (bytes : Bytes) : Option String := String.fromUTF8? ⟨bytes.toArray⟩

-- The character at the start of these bytes, if they start with one.
def firstChar? (bytes : Bytes) : Option Char :=
  (bytes.take 4).toByteArray.utf8DecodeChar? 0

-- The characters that bytes encode, with `none` for every byte that belongs to none of them.
def units (bytes : Bytes) : List (Option Char) := go [] 0 bytes
where
  -- `owed` of the bytes still belong to the last character.
  go (reversed : List (Option Char)) : (owed : Nat) → Bytes → List (Option Char)
  | _, [] => reversed.reverse
  | owed + 1, _ :: bytes => go reversed owed bytes
  | 0, byte :: bytes =>
      match firstChar? (byte :: bytes) with
      | some c => go (some c :: reversed) (c.utf8Size - 1) bytes
      | none => go (none :: reversed) 0 bytes

theorem length_utf8 (s : String) : (utf8 s).length = s.utf8ByteSize := rfl

theorem utf8_ofList (cs : List Char) :
    utf8 (String.ofList cs) = cs.flatMap String.utf8EncodeChar := by
  simp [utf8, List.utf8Encode]

theorem ofUtf8?_utf8 (s : String) : ofUtf8? (utf8 s) = some s := by
  have bytes : (⟨(utf8 s).toArray⟩ : ByteArray) = s.toByteArray := rfl
  rw [ofUtf8?, bytes]
  exact dif_pos s.isValidUTF8

theorem firstChar?_utf8EncodeChar (c : Char) (bytes : Bytes) :
    firstChar? (String.utf8EncodeChar c ++ bytes) = some c := by
  have hsize : (String.utf8EncodeChar c).length ≤ 4 := by
    rw [String.length_utf8EncodeChar]
    exact c.utf8Size_le_four
  rw [firstChar?, List.take_append, List.take_of_length_le hsize, List.toByteArray_append]
  exact ByteArray.utf8DecodeChar?_utf8EncodeChar_append

theorem go_owed (reversed : List (Option Char)) (owed bytes : Bytes) :
    units.go reversed owed.length (owed ++ bytes) = units.go reversed 0 bytes := by
  induction owed with
  | nil => rfl
  | cons byte owed ih => exact ih

theorem go_utf8EncodeChar (reversed : List (Option Char)) (c : Char) (bytes : Bytes) :
    units.go reversed 0 (String.utf8EncodeChar c ++ bytes) =
      units.go (some c :: reversed) 0 bytes := by
  have hfirst := firstChar?_utf8EncodeChar c bytes
  have hsize := String.length_utf8EncodeChar c
  cases hbytes : String.utf8EncodeChar c with
  | nil =>
      rw [hbytes, List.length_nil] at hsize
      exact absurd hsize.symm (Nat.ne_of_gt c.utf8Size_pos)
  | cons byte rest =>
      rw [hbytes, List.cons_append] at hfirst
      rw [hbytes, List.length_cons] at hsize
      rw [List.cons_append, units.go, hfirst]
      simp only [← hsize, Nat.add_sub_cancel]
      exact go_owed (some c :: reversed) rest bytes

theorem units_utf8 (s : String) : units (utf8 s) = s.toList.map some := by
  have hgo (cs : List Char) (reversed : List (Option Char)) :
      units.go reversed 0 (cs.flatMap String.utf8EncodeChar) =
        reversed.reverse ++ cs.map some := by
    induction cs generalizing reversed with
    | nil => simp [units.go]
    | cons c cs ih => rw [List.flatMap_cons, go_utf8EncodeChar, ih]; simp
  rw [units, ← String.ofList_toList (s := s), utf8_ofList, hgo, String.toList_ofList]
  rfl

end SoftConfirm.Text
