import InitLock.Table

/-!
# Files

What reading a file by its path gives: its text, or why it cannot be read.
Files may be given as a table from paths to texts; their directories are those
that the paths name. Above these are directories of which nothing is known but
that they are there, and from the root some directories that every system has.
None of the files is a program.
-/

namespace InitLock

/-- Why a file cannot be read, or run as a program. -/
inductive FileFault where
  | missing
  | denied
  | notDirectory
  | directory
  | nameTooLong
  | nul
  | other (message : String)
  deriving DecidableEq, Repr

namespace FileFault

/-- The number, the name and the wording of a fault that the system reports. -/
def system? : FileFault → Option (Nat × String × String)
  | missing => some (2, "NotFound", "No such file or directory")
  | denied => some (13, "PermissionDenied", "Permission denied")
  | notDirectory => some (20, "NotADirectory", "Not a directory")
  | directory => some (21, "IsADirectory", "Is a directory")
  | nameTooLong => some (36, "InvalidFilename", "File name too long")
  | nul | other _ => none

def message (f : FileFault) : String :=
  match f, f.system? with
  | _, some (n, _, text) => text ++ " (os error " ++ toString n ++ ")"
  | nul, none => "file name contained an unexpected NUL byte"
  | other text, none => text
  | _, none => ""

end FileFault

/-- What reading a file by its path gives. -/
abbrev Files := String → Except FileFault String

namespace Files

/-! ## Paths -/

def split (path : String) : List String := path.splitOn "/"

/-- Whether a name in a path stands for the directory it is in. -/
def isSelf (name : String) : Bool := name = "" || name = "."

/-- The names in a path without those of the directory itself. -/
def names (path : String) : List String := (split path).filter fun name => !isSelf name

/-- How long a name may be, in bytes. -/
def maxName : Nat := 255

def maxPath : Nat := 4095

/-- The directory of a path that is not empty: the path up to its last name, without what stands
for the same directory at its end. -/
def parent (path : String) : String :=
  let before := ((split path).reverse.dropWhile isSelf).tail.reverse
  match before with
  | [] => ""
  | first :: rest =>
    let kept := (rest.reverse.dropWhile isSelf).reverse
    if first = "" ∧ kept.isEmpty then "/" else String.intercalate "/" (first :: kept)

def join (directory path : String) : String :=
  if directory = "" ∨ directory.endsWith "/" then directory ++ path else directory ++ "/" ++ path

/-- The path of a file that is named in another file, whose directory is given. -/
def relativeTo (directory path : String) : String :=
  if path.startsWith "/" then path else join directory path

/-! ## Tables of files -/

/-- Where a walk along a path has come to: a directory below the working one, a directory that this
is in, a directory from the root, or a file. -/
inductive Place where
  | below (names : List String)
  | above
  | fromRoot (names : List String)
  | file (text : String)
  deriving DecidableEq, Repr

def rootDirectories : List String :=
  ["bin", "boot", "dev", "etc", "home", "lib", "media", "mnt", "opt", "proc", "root", "run", "sbin",
    "srv", "sys", "tmp", "usr", "var"]

def Place.up : Place → Except FileFault Place
  | below [] => .ok .above
  | below names => .ok (.below names.dropLast)
  | above => .ok .above
  | fromRoot names => .ok (.fromRoot names.dropLast)
  | file _ => .error .notDirectory

/-- What has a name in a directory. -/
def Place.down (files : Table String String) (name : String) : Place → Except FileFault Place
  | below directory =>
    let wanted := directory ++ [name]
    match files.entries.find? fun e => names e.1 = wanted with
    | some e => .ok (.file e.2)
    | none =>
      if files.entries.any fun e => wanted.isPrefixOf (names e.1) then .ok (.below wanted)
      else .error .missing
  | above => .error .missing
  | fromRoot [] => if name ∈ rootDirectories then .ok (.fromRoot [name]) else .error .missing
  | fromRoot directory =>
    if directory = ["dev"] ∧ name = "null" then .ok (.file "") else .error .missing
  | file _ => .error .notDirectory

def Place.step (files : Table String String) (p : Place) (name : String) :
    Except FileFault Place :=
  match p with
  | .file _ => .error .notDirectory
  | p =>
    if isSelf name then .ok p
    else if name = ".." then p.up
    else if maxName < name.utf8ByteSize then .error .nameTooLong
    else p.down files name

def ofTable (files : Table String String) : Files := fun path =>
  if path.toList.contains '\x00' then .error .nul
  else if path = "" then .error .missing
  else if maxPath < path.utf8ByteSize then .error .nameTooLong
  else
    let start : Place := if path.startsWith "/" then .fromRoot [] else .below []
    match (split path).foldlM (Place.step files) start with
    | .error f => .error f
    | .ok (.file text) => .ok text
    | .ok _ => .error .directory

/-! ## Programs -/

/-- Why a program cannot be run: a path leads to a file that may not be, and a bare name is looked
for in directories where no programs are. -/
def whyNotRun (files : Files) (program : String) : FileFault :=
  if program.toList.contains '\x00' then .nul
  else if program.toList.contains '/' then
    match files program with
    | .ok _ | .error .directory => .denied
    | .error f => f
  else if program = "." ∨ program = ".." then .denied
  else if maxName ≤ program.utf8ByteSize then .nameTooLong
  else .missing

end Files

end InitLock
