import SoftConfirm.KeyFile
import SoftConfirm.Proofs.FileSystem

namespace SoftConfirm

namespace KeyFile

variable {fs written : FileSystem} {path secret : String} {overwrite : Bool}

-- What goes into a key file.
def contents (secret : String) : Bytes := Text.utf8 (normalize secret ++ "\n")

-- The steps of a key file that has been written: nothing stood in the way of a good secret, the
-- directories above it were made, and then the file.
structure Written (fs : FileSystem) (path secret : String) (overwrite : Bool)
    (written : FileSystem) (place : Place) : Prop where
  path_ne : path ≠ ""
  good : ∃ key, SecretKey.ofHex (normalize secret) = .ok key
  clear : overwrite = true ∨ fs.pathExists path = false
  steps : ∃ ready, fs.makeParents path = (.ok (), ready) ∧ fs.Grows ready ∧
    ready.Writes path (contents secret) written place

-- What writing a key file comes to, and the file system that it leaves behind.
inductive Writing (fs : FileSystem) (path secret : String) (overwrite : Bool) :
    Except Error Unit → FileSystem → Prop where
  | emptyPath (hpath : path = "") : Writing fs path secret overwrite (.error .emptyPath) fs
  | badKey {cause : SecretKey.Error} (hbad : SecretKey.ofHex (normalize secret) = .error cause) :
      Writing fs path secret overwrite (.error (.badKey cause)) fs
  | alreadyExists (hthere : fs.pathExists path = true) :
      Writing fs path secret overwrite (.error (.alreadyExists path)) fs
  | noParents {fault : FileSystem.Fault} {partly : FileSystem}
      (hparents : fs.makeParents path = (.error fault, partly)) :
      Writing fs path secret overwrite (.error (.writeFailed path fault)) partly
  | noFile {fault : FileSystem.Fault} {ready : FileSystem}
      (hparents : fs.makeParents path = (.ok (), ready)) :
      Writing fs path secret overwrite (.error (.writeFailed path fault)) ready
  | written {written : FileSystem} {place : Place}
      (h : Written fs path secret overwrite written place) :
      Writing fs path secret overwrite (.ok ()) written

theorem writing_write (fs : FileSystem) (path secret : String) (overwrite : Bool) :
    Writing fs path secret overwrite (write fs path secret overwrite).1
      (write fs path secret overwrite).2 := by
  unfold write
  split
  · rename_i hpath
    exact .emptyPath (by simpa using hpath)
  · rename_i hpath
    dsimp only
    split
    · rename_i hbad
      exact .badKey hbad
    · rename_i key hkey
      split
      · rename_i hthere
        rw [Bool.and_eq_true] at hthere
        exact .alreadyExists hthere.2
      · rename_i hclear
        split
        · rename_i hparents
          exact .noParents hparents
        · rename_i ready hparents
          split
          · exact .noFile hparents
          · rename_i hwrite
            obtain ⟨place, hwrites⟩ := FileSystem.exists_writes hwrite
            have hgrows : fs.Grows ready := by
              have := fs.grows_makeParents path
              rwa [hparents] at this
            have hfree : overwrite = true ∨ fs.pathExists path = false := by
              cases overwrite with
              | true => exact .inl rfl
              | false => exact .inr (by simpa using hclear)
            exact .written
              ⟨by simpa using hpath, ⟨key, hkey⟩, hfree, ready, hparents, hgrows, hwrites⟩

theorem exists_written (h : write fs path secret overwrite = (.ok (), written)) :
    ∃ place, Written fs path secret overwrite written place := by
  have hwriting := writing_write fs path secret overwrite
  rw [h] at hwriting
  cases hwriting with
  | written hwritten => exact ⟨_, hwritten⟩

-- A key file has the mode of the file that it replaces. So it is its owner's alone unless it
-- replaces one that is not.
theorem write_keeps_mode (h : write fs path secret overwrite = (.ok (), written)) :
    ∃ place mode, written.placeOf path = .ok place ∧
      written.lookup path = .ok (.file mode (contents secret)) ∧
      mode = (fs.mode? place).getD FileSystem.ownerOnly ∧
      (mode = FileSystem.ownerOnly ↔
        ∀ old, fs.mode? place = some old → old = FileSystem.ownerOnly) := by
  obtain ⟨place, hwritten⟩ := exists_written h
  obtain ⟨ready, -, hgrows, hwrites⟩ := hwritten.steps
  have hlookup := hwrites.lookup_written
  rw [hgrows.mode?_eq place] at hlookup
  refine ⟨place, _, hwrites.placeOf_written, hlookup, rfl, ?_⟩
  cases fs.mode? place with
  | none => simp
  | some old => simp

-- The secret of the number one.
def one : String := "0000000000000000000000000000000000000000000000000000000000000001"

-- A new file in a directory that is made for it is its owner's alone.
theorem write_keeps_mode_new :
    let (outcome, written) := write .empty "keys/k.key" one false
    outcome = .ok () ∧ ∃ content, written.lookup "keys/k.key" =
      .ok (.file FileSystem.ownerOnly content) := by
  have houtcome : (write .empty "keys/k.key" one false).1 = .ok () := by decide +kernel
  obtain ⟨place, mode, -, hlookup, hmode, -⟩ := write_keeps_mode (Prod.ext houtcome rfl)
  have hnone : FileSystem.empty.mode? place = none := by
    unfold FileSystem.mode? FileSystem.at?
    split <;> simp_all [FileSystem.empty]
  rw [hnone] at hmode
  subst hmode
  exact ⟨houtcome, _, hlookup⟩

-- A file that everyone may read can still be read by everyone when a key has replaced what it held.
theorem write_leaves_file_readable :
    let old := FileSystem.empty.put ["k.key"] (.file 0o644 (Text.utf8 "old"))
    let (outcome, written) := write old "k.key" one true
    outcome = .ok () ∧ written.lookup "k.key" = .ok (.file 0o644 (contents one)) := by
  decide +kernel

end KeyFile

end SoftConfirm
