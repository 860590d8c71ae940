import SoftConfirm.Text.Utf8

/-!
A file system as a map from places to directories and regular files, with the operations that key
files need and the ways in which each can fail. Paths start at the working directory; steps that
leave it lead to directories about which nothing else is known. Who runs the program is known by
the rights to what stands at each place.
-/

namespace SoftConfirm

inductive Inode where
  | directory
  | file (mode : Nat) (content : Bytes)
  deriving DecidableEq, Repr

-- The names on the way from the working directory.
abbrev Place := List String

-- What may be done with a file or a directory. A directory is searched by whoever passes it.
inductive Right where
  | read
  | write
  | search
  deriving DecidableEq, Repr

-- The bit of a right in a digit of a mode.
def Right.bit : Right → Nat
  | .read => 2
  | .write => 1
  | .search => 0

-- As whom the program comes to a file, which settles the digit of the mode that counts.
inductive Standing where
  | superuser
  | owner
  | group
  | other
  deriving DecidableEq, Repr

def Standing.digit (mode : Nat) : Standing → Nat
  | .superuser => 7
  | .owner => mode / 0o100 % 8
  | .group => mode / 0o10 % 8
  | .other => mode % 8

-- The rights of who runs the program at a place: the standing towards a file there, and the digit
-- that counts of a directory there, which is all that is kept of its mode.
structure Access where
  standing : Standing
  directory : Nat
  deriving DecidableEq, Repr

-- The rights to what the program makes itself. The mask for new modes leaves the owner's digit.
def Access.own : Access := ⟨.owner, 7⟩

def Access.digit (access : Access) : Inode → Nat
  | .directory => access.directory
  | .file mode _ => access.standing.digit mode

structure FileSystem where
  inode : Place → Option Inode
  access : Place → Access

namespace FileSystem

inductive Fault where
  | notFound
  | permissionDenied
  | alreadyExists
  | isADirectory
  | notADirectory
  | invalidFilename
  | invalidInput
  | invalidData
  deriving DecidableEq, Repr

def Fault.message : Fault → String
  | .notFound => "No such file or directory (os error 2)"
  | .permissionDenied => "Permission denied (os error 13)"
  | .alreadyExists => "File exists (os error 17)"
  | .isADirectory => "Is a directory (os error 21)"
  | .notADirectory => "Not a directory (os error 20)"
  | .invalidFilename => "File name too long (os error 36)"
  | .invalidInput => "file name contained an unexpected NUL byte"
  | .invalidData => "stream did not contain valid UTF-8"

def empty : FileSystem := ⟨fun _ => none, fun _ => .own⟩

def above : String := ".."

-- Whether a place is the working directory or outside of it; those are directories always.
def isOutside (place : Place) : Bool := place.all fun name => name == above || name == "/"

def at? (fs : FileSystem) (place : Place) : Option Inode :=
  if isOutside place then some .directory else fs.inode place

-- Whether who runs the program has a right to this at a place.
def permits (fs : FileSystem) (place : Place) (inode : Inode) (right : Right) : Bool :=
  ((fs.access place).digit inode).testBit right.bit

-- Replaces what is at a place. The rights to it stay as they are.
def put (fs : FileSystem) (place : Place) (inode : Inode) : FileSystem :=
  { fs with inode := fun other => if other = place then some inode else fs.inode other }

-- Puts something new at a place.
def make (fs : FileSystem) (place : Place) (inode : Inode) : FileSystem :=
  { fs.put place inode with
    access := fun other => if other = place then .own else fs.access other }

def parentPlace (place : Place) : Place :=
  if place.all (· == above) then place ++ [above]
  else if place == ["/"] then place
  else place.dropLast

def nameLimit : Nat := 255

def pathLimit : Nat := 4095

structure Path where
  absolute : Bool
  -- Names between slashes, empty ones left out.
  names : List String
  trailingSlash : Bool
  deriving DecidableEq, Repr

def Path.ofText (s : String) : Path :=
  let parts := s.toList.splitOn '/'
  { absolute := s.toList.head? == some '/'
    names := (parts.filter (!·.isEmpty)).map String.ofList
    trailingSlash := s.toList.getLast? == some '/' }

def Path.start (path : Path) : Place := if path.absolute then ["/"] else []

def enter (fs : FileSystem) (place : Place) : Except Fault Unit :=
  match fs.at? place with
  | none => .error .notFound
  | some (.file _ _) => .error .notADirectory
  | some .directory =>
      if fs.permits place .directory .search then .ok () else .error .permissionDenied

-- One step from a directory to a place in it or above it.
def walkName (fs : FileSystem) (place : Place) (name : String) : Except Fault Place := do
  fs.enter place
  if name = "." then return place
  else if name = above then return parentPlace place
  else if nameLimit < name.utf8ByteSize then .error .invalidFilename
  else return place ++ [name]

-- The place that names lead to. All but the last have to be directories.
def walk (fs : FileSystem) (start : Place) (names : List String) : Except Fault Place :=
  names.foldlM fs.walkName start

def checkText (s : String) : Except Fault Unit :=
  if s.isEmpty then .error .notFound
  else if s.toList.contains '\x00' then .error .invalidInput
  else if pathLimit < s.utf8ByteSize then .error .invalidFilename
  else .ok ()

-- Whether a path can only name a directory.
def Path.namesDirectory (path : Path) : Bool :=
  match path.names.getLast? with
  | none => true
  | some name => path.trailingSlash || name == "." || name == above

-- What a path leads to, and where that is. A file does not stand before a slash.
def find (fs : FileSystem) (s : String) : Except Fault (Place × Inode) := do
  checkText s
  let path := Path.ofText s
  let place ← fs.walk path.start path.names
  match fs.at? place with
  | none => .error .notFound
  | some .directory => .ok (place, .directory)
  | some (.file mode content) =>
      if path.namesDirectory then .error .notADirectory else .ok (place, .file mode content)

-- To know what is there takes no right to it.
def lookup (fs : FileSystem) (s : String) : Except Fault Inode := (fs.find s).map (·.2)

def pathExists (fs : FileSystem) (s : String) : Bool := (fs.lookup s).toOption.isSome

-- A directory is opened like a file before it is found to be none.
def read (fs : FileSystem) (s : String) : Except Fault Bytes := do
  let (place, inode) ← fs.find s
  if fs.permits place inode .read then
    match inode with
    | .file _ content => .ok content
    | .directory => .error .isADirectory
  else .error .permissionDenied

def readText (fs : FileSystem) (s : String) : Except Fault String := do
  match Text.ofUtf8? (← fs.read s) with
  | some text => .ok text
  | none => .error .invalidData

def makeDirectory (fs : FileSystem) (start : Place) (names : List String) :
    Except Fault FileSystem := do
  let place ← fs.walk start names
  match fs.at? place with
  | some _ => .error .alreadyExists
  | none =>
      if fs.permits (parentPlace place) .directory .write then .ok (fs.make place .directory)
      else .error .permissionDenied

def isDirectory (fs : FileSystem) (start : Place) (names : List String) : Bool :=
  match fs.walk start names with
  | .ok place => fs.at? place == some .directory
  | .error _ => false

-- Makes a directory, and those above it first when they are missing. `reversed` are the names
-- on the way, the last one first. The directories made before a failure stay.
def makeDirectories (fs : FileSystem) (start : Place) :
    (reversed : List String) → Except Fault Unit × FileSystem
  | [] => (.ok (), fs)
  | name :: above =>
      let names := (name :: above).reverse
      match fs.makeDirectory start names with
      | .ok made => (.ok (), made)
      | .error .notFound =>
          match makeDirectories fs start above with
          | (.error fault, partly) => (.error fault, partly)
          | (.ok (), ready) =>
              match ready.makeDirectory start names with
              | .ok made => (.ok (), made)
              | .error fault =>
                  if ready.isDirectory start names then (.ok (), ready) else (.error fault, ready)
      | .error fault => if fs.isDirectory start names then (.ok (), fs) else (.error fault, fs)

-- Makes the directories that lead to a path's last name. What is wrong with that name itself
-- does not matter here.
def makeParents (fs : FileSystem) (s : String) : Except Fault Unit × FileSystem :=
  let path := Path.ofText s
  let names := (path.names.filter (· ≠ ".")).dropLast
  if names.isEmpty then (.ok (), fs)
  else
    match checkText (String.intercalate "/" names) with
    | .error fault => (.error fault, fs)
    | .ok () => makeDirectories fs path.start names.reverse

-- The mode of files that only their owner may read.
def ownerOnly : Nat := 0o600

-- Replaces a file's content. A new file is its owner's alone; an old one keeps its mode, and has to
-- allow it. A path that can only name a directory is refused before its last name is looked at.
def write (fs : FileSystem) (s : String) (content : Bytes) : Except Fault FileSystem := do
  checkText s
  let path := Path.ofText s
  let parent ← fs.walk path.start path.names.dropLast
  fs.enter parent
  match path.names.getLast?.filter fun _ => !path.namesDirectory with
  | none => .error .isADirectory
  | some name =>
      let place ← fs.walkName parent name
      match fs.at? place with
      | some .directory => .error .isADirectory
      | some (.file mode old) =>
          if fs.permits place (.file mode old) .write then
            return fs.put place (.file mode content)
          else .error .permissionDenied
      | none =>
          if fs.permits parent .directory .write then
            return fs.make place (.file ownerOnly content)
          else .error .permissionDenied

end FileSystem

end SoftConfirm
