import Mathlib.Data.List.Basic
import SoftConfirm.FileSystem
import SoftConfirm.Proofs.Json.Reading

namespace SoftConfirm

namespace FileSystem

variable {fs other : FileSystem} {place : Place} {names : List String} {s : String}

-- The mode of the file at a place.
def mode? (fs : FileSystem) (place : Place) : Option Nat :=
  match fs.at? place with
  | some (.file mode _) => some mode
  | _ => none

-- A file at a place that may not be read by who runs the program.
def Hidden (fs : FileSystem) (place : Place) : Prop :=
  ∃ mode content, fs.at? place = some (.file mode content) ∧
    fs.permits place (.file mode content) .read = false

-- The place that a text leads to.
def placeOf (fs : FileSystem) (s : String) : Except Fault Place :=
  fs.walk (Path.ofText s).start (Path.ofText s).names

-- Nothing can be put outside.
theorem isOutside_of_at? (h : fs.at? place ≠ some .directory) : isOutside place = false := by
  by_contra hout
  rw [Bool.not_eq_false] at hout
  exact h (if_pos hout)

theorem at?_put_self (h : isOutside place = false) (inode : Inode) :
    (fs.put place inode).at? place = some inode := by
  simp [at?, put, h]

theorem at?_make_self (h : isOutside place = false) (inode : Inode) :
    (fs.make place inode).at? place = some inode := at?_put_self h inode

-- The same thing at a place, with the same rights to it.
structure Agree (fs other : FileSystem) (place : Place) : Prop where
  at?_eq : other.at? place = fs.at? place
  access_eq : other.access place = fs.access place

theorem Agree.refl (fs : FileSystem) (place : Place) : fs.Agree fs place := ⟨rfl, rfl⟩

theorem Agree.symm (h : fs.Agree other place) : other.Agree fs place :=
  ⟨h.at?_eq.symm, h.access_eq.symm⟩

theorem Agree.trans {third : FileSystem} (h : fs.Agree other place) (h' : other.Agree third place) :
    fs.Agree third place :=
  ⟨h'.at?_eq.trans h.at?_eq, h'.access_eq.trans h.access_eq⟩

theorem Agree.permits_eq (h : fs.Agree other place) (inode : Inode) (right : Right) :
    other.permits place inode right = fs.permits place inode right := by
  rw [permits, permits, h.access_eq]

theorem agree_put {elsewhere : Place} (h : elsewhere ≠ place) (inode : Inode) :
    fs.Agree (fs.put place inode) elsewhere where
  at?_eq := by simp [at?, put, h]
  access_eq := rfl

theorem agree_make {elsewhere : Place} (h : elsewhere ≠ place) (inode : Inode) :
    fs.Agree (fs.make place inode) elsewhere where
  at?_eq := (agree_put h inode).at?_eq
  access_eq := if_neg h

theorem access_make (fs : FileSystem) (place : Place) (inode : Inode) :
    (fs.make place inode).access place = .own := if_pos rfl

-- A directory that may be searched, as one on the way to somewhere has to be.
structure Passable (fs : FileSystem) (place : Place) : Prop where
  directory : fs.at? place = some .directory
  permits : fs.permits place .directory .search = true

theorem Agree.passable (h : fs.Agree other place) (hpass : fs.Passable place) :
    other.Passable place where
  directory := h.at?_eq.trans hpass.directory
  permits := (h.permits_eq .directory .search).trans hpass.permits

theorem enter_eq_ok_iff : fs.enter place = .ok () ↔ fs.Passable place := by
  unfold enter
  constructor
  · intro h
    split at h
    · cases h
    · cases h
    · rename_i hdirectory
      by_cases hpermits : fs.permits place .directory .search = true
      · exact ⟨hdirectory, hpermits⟩
      · rw [if_neg hpermits] at h
        cases h
  · intro h
    simp [h.directory, h.permits]

-- Only directories are entered, and only as far as they allow it.
theorem passable_of_walkName {name : String} {next : Place}
    (h : fs.walkName place name = .ok next) : fs.Passable place := by
  obtain ⟨_, henter, -⟩ := exists_of_bind_eq_ok h
  exact enter_eq_ok_iff.mp henter

theorem walkName_congr (h : fs.Passable place) (h' : other.Passable place) (name : String) :
    fs.walkName place name = other.walkName place name := by
  unfold walkName
  rw [enter_eq_ok_iff.mpr h, enter_eq_ok_iff.mpr h']

theorem walk_cons (start : Place) (name : String) (names : List String) :
    fs.walk start (name :: names) =
      fs.walkName start name >>= fun place => fs.walk place names := by
  simp [walk]

theorem walk_concat (start : Place) (names : List String) (name : String) :
    fs.walk start (names ++ [name]) =
      fs.walk start names >>= fun place => fs.walkName place name := by
  simp [walk]

-- A way through directories stays one as long as those can be passed.
theorem walk_of_passable (hkeeps : ∀ place, fs.Passable place → other.Passable place)
    {start : Place} (hwalk : fs.walk start names = .ok place) :
    other.walk start names = .ok place := by
  induction names generalizing start with
  | nil => exact hwalk
  | cons name names ih =>
      rw [walk_cons] at hwalk ⊢
      obtain ⟨next, hname, hrest⟩ := exists_of_bind_eq_ok hwalk
      have hentered := passable_of_walkName hname
      rw [← walkName_congr hentered (hkeeps start hentered), hname]
      exact ih hrest

-- What a file is put under: the last name of a path that need not be a directory.
theorem fileName?_eq_some {path : Path} {name : String}
    (h : path.names.getLast?.filter (fun _ => !path.namesDirectory) = some name) :
    path.namesDirectory = false ∧ path.names = path.names.dropLast ++ [name] := by
  obtain ⟨hlast, hfile⟩ := Option.filter_eq_some_iff.mp h
  exact ⟨by simpa using hfile, (List.dropLast_append_getLast? name hlast).symm⟩

-- A file that has been written at the place where a text leads. It has the mode of the file that
-- was there before, which has allowed it, and nothing else has changed.
structure Writes (fs : FileSystem) (s : String) (content : Bytes) (written : FileSystem)
    (place : Place) : Prop where
  text : checkText s = .ok ()
  namesFile : (Path.ofText s).namesDirectory = false
  leads : fs.placeOf s = .ok place
  free : fs.at? place ≠ some .directory
  allowed : ∀ mode old, fs.at? place = some (.file mode old) →
    fs.permits place (.file mode old) .write = true
  at?_written : written.at? place = some (.file ((fs.mode? place).getD ownerOnly) content)
  access_written : written.access place = if fs.at? place = none then .own else fs.access place
  elsewhere : ∀ elsewhere, elsewhere ≠ place → fs.Agree written elsewhere

section

variable {content : Bytes} {written : FileSystem}

theorem exists_writes (h : fs.write s content = .ok written) :
    ∃ place, fs.Writes s content written place := by
  obtain ⟨_, htext, h⟩ := exists_of_bind_eq_ok h
  obtain ⟨parent, hparent, h⟩ := exists_of_bind_eq_ok h
  obtain ⟨_, -, h⟩ := exists_of_bind_eq_ok h
  split at h
  · exact absurd h nofun
  · rename_i name hname
    obtain ⟨hfile, hnames⟩ := fileName?_eq_some hname
    obtain ⟨place, hplace, h⟩ := exists_of_bind_eq_ok h
    have hleads : fs.placeOf s = .ok place := by
      rw [placeOf, hnames, walk_concat, hparent]
      exact hplace
    refine ⟨place, ?_⟩
    split at h
    · exact absurd h nofun
    · rename_i mode old hat
      split at h
      · rename_i hpermits
        obtain rfl := Except.ok.inj h
        have hfree : fs.at? place ≠ some .directory := by simp [hat]
        refine ⟨htext, hfile, hleads, hfree, ?_, ?_, ?_, fun _ hne => agree_put hne _⟩
        · intro mode' old' hother
          obtain ⟨rfl, rfl⟩ := Inode.file.inj (Option.some.inj (hat.symm.trans hother))
          exact hpermits
        · rw [at?_put_self (isOutside_of_at? hfree)]
          simp [mode?, hat]
        · simp [hat, put]
      · exact absurd h nofun
    · rename_i hat
      split at h
      · obtain rfl := Except.ok.inj h
        have hfree : fs.at? place ≠ some .directory := by simp [hat]
        refine ⟨htext, hfile, hleads, hfree, by simp [hat], ?_, ?_, fun _ hne => agree_make hne _⟩
        · rw [at?_make_self (isOutside_of_at? hfree)]
          simp [mode?, hat]
        · rw [access_make, if_pos hat]
      · exact absurd h nofun

-- The way to a file does not lead through it.
theorem Writes.passable (h : fs.Writes s content written place) {elsewhere : Place}
    (hpass : fs.Passable elsewhere) : written.Passable elsewhere := by
  have hne : elsewhere ≠ place := by
    rintro rfl
    exact h.free hpass.directory
  exact (h.elsewhere elsewhere hne).passable hpass

theorem Writes.placeOf_written (h : fs.Writes s content written place) :
    written.placeOf s = .ok place :=
  walk_of_passable (fun _ => h.passable) h.leads

theorem find_eq_file {mode : Nat} (htext : checkText s = .ok ()) (hleads : fs.placeOf s = .ok place)
    (hnames : (Path.ofText s).namesDirectory = false)
    (hfile : fs.at? place = some (.file mode content)) :
    fs.find s = .ok (place, .file mode content) := by
  unfold placeOf at hleads
  unfold find
  simp [htext, hleads, hfile, hnames, bind, Except.bind]

theorem Writes.find_written (h : fs.Writes s content written place) :
    written.find s = .ok (place, .file ((fs.mode? place).getD ownerOnly) content) :=
  find_eq_file h.text h.placeOf_written h.namesFile h.at?_written

theorem Writes.lookup_written (h : fs.Writes s content written place) :
    written.lookup s = .ok (.file ((fs.mode? place).getD ownerOnly) content) := by
  rw [lookup, h.find_written]
  rfl

theorem hidden_iff_of_file {mode : Nat} (hfile : fs.at? place = some (.file mode content)) :
    fs.Hidden place ↔ fs.permits place (.file mode content) .read = false := by
  constructor
  · rintro ⟨mode', content', hother, hpermits⟩
    obtain ⟨rfl, rfl⟩ := Inode.file.inj (Option.some.inj (hother.symm.trans hfile))
    exact hpermits
  · exact fun hpermits => ⟨mode, content, hfile, hpermits⟩

theorem Writes.read_written (h : fs.Writes s content written place)
    (hseen : ¬ written.Hidden place) : written.read s = .ok content := by
  rw [hidden_iff_of_file h.at?_written, Bool.not_eq_false] at hseen
  rw [read, h.find_written]
  exact if_pos hseen

end

-- A directory that has been made where nothing was.
structure Made (fs other : FileSystem) (place : Place) : Prop where
  missing : fs.at? place = none
  directory : other.at? place = some .directory
  own : other.access place = .own

theorem Made.passable (h : fs.Made other place) : other.Passable place where
  directory := h.directory
  permits := by
    rw [permits, h.own]
    decide

theorem Made.agree {third : FileSystem} (h : fs.Made other place) (h' : other.Agree third place) :
    fs.Made third place :=
  ⟨h.missing, h'.at?_eq.trans h.directory, h'.access_eq.trans h.own⟩

-- What has been made are directories where nothing was.
def Grows (fs other : FileSystem) : Prop := ∀ place, fs.Agree other place ∨ fs.Made other place

-- No directory is lost.
theorem Grows.passable (h : fs.Grows other) (hpass : fs.Passable place) : other.Passable place := by
  rcases h place with hsame | hmade
  · exact hsame.passable hpass
  · exact hmade.passable

theorem Grows.mode?_eq (h : fs.Grows other) (place : Place) :
    other.mode? place = fs.mode? place := by
  unfold mode?
  rcases h place with hsame | hmade
  · rw [hsame.at?_eq]
  · rw [hmade.missing, hmade.directory]

-- What has been made are directories where nothing was, and some of these names lead to each.
def GrowsAlong (fs : FileSystem) (start : Place) (names : List String) (other : FileSystem) :
    Prop :=
  ∀ place, fs.Agree other place ∨
    fs.Made other place ∧ ∃ way, way <+: names ∧ other.walk start way = .ok place

section

variable {start : Place} {made third : FileSystem} {longer : List String}

theorem GrowsAlong.grows (h : fs.GrowsAlong start names other) : fs.Grows other := by
  intro place
  rcases h place with hsame | ⟨hmade, -⟩
  · exact .inl hsame
  · exact .inr hmade

theorem GrowsAlong.refl (fs : FileSystem) (start : Place) (names : List String) :
    fs.GrowsAlong start names fs := fun place => .inl (.refl fs place)

theorem GrowsAlong.mono (h : fs.GrowsAlong start names other) (hnames : names <+: longer) :
    fs.GrowsAlong start longer other := by
  intro place
  rcases h place with hsame | ⟨hmade, way, hway, hleads⟩
  · exact .inl hsame
  · exact .inr ⟨hmade, way, hway.trans hnames, hleads⟩

theorem GrowsAlong.trans (h : fs.GrowsAlong start names other)
    (h' : other.GrowsAlong start names third) : fs.GrowsAlong start names third := by
  intro place
  rcases h' place with hsame | ⟨hmade, hway⟩
  · rcases h place with hsame' | ⟨hmade, way, hway, hleads⟩
    · exact .inl (hsame'.trans hsame)
    · -- The way to what was made first is there still.
      have hkept := walk_of_passable (fun _ => h'.grows.passable) hleads
      exact .inr ⟨hmade.agree hsame, way, hway, hkept⟩
  · rcases h place with hsame' | ⟨hmade', -⟩
    · exact .inr ⟨⟨hsame'.at?_eq.symm.trans hmade.missing, hmade.directory, hmade.own⟩, hway⟩
    · exact absurd (hmade'.directory.symm.trans hmade.missing) nofun

theorem growsAlong_makeDirectory (h : fs.makeDirectory start names = .ok made) :
    fs.GrowsAlong start names made := by
  obtain ⟨place, hplace, h⟩ := exists_of_bind_eq_ok h
  split at h
  · exact absurd h nofun
  · rename_i hnone
    split at h
    · obtain rfl := Except.ok.inj h
      have hfree : fs.at? place ≠ some .directory := by simp [hnone]
      have hmade : fs.Made (fs.make place .directory) place :=
        ⟨hnone, at?_make_self (isOutside_of_at? hfree) .directory, access_make fs place .directory⟩
      have hkeeps : ∀ elsewhere, fs.Passable elsewhere →
          (fs.make place .directory).Passable elsewhere := by
        intro elsewhere hpass
        have hne : elsewhere ≠ place := by
          rintro rfl
          exact hfree hpass.directory
        exact (agree_make hne .directory).passable hpass
      intro elsewhere
      by_cases heq : elsewhere = place
      · subst heq
        exact .inr ⟨hmade, names, List.prefix_rfl, walk_of_passable hkeeps hplace⟩
      · exact .inl (agree_make heq .directory)
    · exact absurd h nofun

-- Also what has been made before a failure.
theorem growsAlong_makeDirectories (fs : FileSystem) (start : Place) (reversed : List String) :
    fs.GrowsAlong start reversed.reverse (fs.makeDirectories start reversed).2 := by
  induction reversed with
  | nil => exact .refl fs start _
  | cons name above ih =>
      have hshorter : above.reverse <+: (name :: above).reverse := by
        rw [List.reverse_cons]
        exact List.prefix_append _ _
      replace ih := ih.mono hshorter
      unfold makeDirectories
      dsimp only
      split
      · rename_i hmade
        exact growsAlong_makeDirectory hmade
      · split
        · rename_i hpartly
          rw [hpartly] at ih
          exact ih
        · rename_i hready
          rw [hready] at ih
          split
          · rename_i hmade
            exact ih.trans (growsAlong_makeDirectory hmade)
          · split
            · exact ih
            · exact ih
      · split
        · exact .refl fs start _
        · exact .refl fs start _

theorem growsAlong_makeParents (fs : FileSystem) (s : String) :
    fs.GrowsAlong (Path.ofText s).start ((Path.ofText s).names.filter (· ≠ ".")).dropLast
      (fs.makeParents s).2 := by
  unfold makeParents
  dsimp only
  split
  · exact .refl fs _ _
  · split
    · exact .refl fs _ _
    · have h := growsAlong_makeDirectories fs (Path.ofText s).start
        ((Path.ofText s).names.filter (· ≠ ".")).dropLast.reverse
      rwa [List.reverse_reverse] at h

theorem grows_makeParents (fs : FileSystem) (s : String) : fs.Grows (fs.makeParents s).2 :=
  (growsAlong_makeParents fs s).grows

end

end FileSystem

end SoftConfirm
