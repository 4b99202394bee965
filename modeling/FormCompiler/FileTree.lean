import FormCompiler.Text.Blank

/-!
# FormCompiler.FileTree

Files in a directory, and the faults of reading and writing them.  A path is
followed from the directory name by name: a blank name and `.` stay, `..`
goes up, a file has nothing below it, and a directory is there when a file
lies in it.  A slash at the end asks for a directory: a reader misses it, and
a writer is told that it cannot write to one.  Nothing outside the directory
is known.
-/

namespace FormCompiler

/-! ## faults -/

/-- Why a file cannot be read or written. -/
inductive FileFault where
  | notFound
  | notDirectory
  | isDirectory
  | nameTooLong
  /-- The bytes are no UTF-8 text. -/
  | notText
  /-- A fault of another kind, in words. -/
  | other (description : String)
deriving DecidableEq, Repr

def FileFault.message : FileFault → String
  | notFound => "No such file or directory (os error 2)"
  | notDirectory => "Not a directory (os error 20)"
  | isDirectory => "Is a directory (os error 21)"
  | nameTooLong => "File name too long (os error 36)"
  | notText => "stream did not contain valid UTF-8"
  | other description => description

/-- The text that bytes stand for. -/
def decodeText (bytes : ByteArray) : Except FileFault String :=
  match String.fromUTF8? bytes with
  | some text => .ok text
  | none => .error .notText

/-! ## trees -/

/-- The files of a directory by the names on the way to them. -/
structure FileTree where
  files : List (List String × ByteArray)

/-- What stands at the end of a path. -/
inductive Place where
  | file (names : List String) (bytes : ByteArray)
  | directory
  /-- Nothing, but in a directory that is there. -/
  | vacant (names : List String)
  /-- No directory, though a slash at the end asks for one; a reader meets
  the fault. -/
  | slashed (fault : FileFault)

namespace FileTree

/-- The names of a path, a blank one for every slash without a name. -/
def pathNames (path : String) : List String :=
  (Text.splitWhere (· = '/') path.toList).map String.ofList

/-- The tree of files given by path. -/
def ofList (files : List (String × ByteArray)) : FileTree :=
  ⟨files.map fun file => (pathNames file.1, file.2)⟩

/-- The bytes of the file at names. -/
def file? (tree : FileTree) (names : List String) : Option ByteArray := tree.files.lookup names

/-- Does a file lie below names? -/
def isDirectory (tree : FileTree) (names : List String) : Bool :=
  names.isEmpty || tree.files.any fun file =>
    names.isPrefixOf file.1 && decide (names.length < file.1.length)

/-- Stays in the directory. -/
def isIdle (name : String) : Bool := name = "" || name = "."

def nameLimit : Nat := 255

def pathLimit : Nat := 4095

/-- Ends at a name that is no directory, with the rest of the path behind
it. -/
def halt (fault : FileFault) (rest : List String) : Except FileFault Place :=
  if !rest.isEmpty && rest.all (· = "") then .ok (.slashed fault) else .error fault

/-- Follows names outside the directory. -/
def followOutside : List String → Except FileFault Place
  | [] => .ok .directory
  | name :: rest =>
    if isIdle name || name = ".." then followOutside rest
    else halt (if nameLimit < name.utf8ByteSize then .nameTooLong else .notFound) rest

/-- Follows names from a directory of the tree. -/
def follow (tree : FileTree) (directory : List String) : List String → Except FileFault Place
  | [] => .ok .directory
  | name :: rest =>
    if isIdle name then tree.follow directory rest
    else if name = ".." then
      if directory.isEmpty then followOutside rest else tree.follow directory.dropLast rest
    else if nameLimit < name.utf8ByteSize then halt .nameTooLong rest
    else
      let names := directory ++ [name]
      match tree.file? names with
      | some bytes => if rest.isEmpty then .ok (.file names bytes) else halt .notDirectory rest
      | none =>
        if tree.isDirectory names then tree.follow names rest
        else if rest.isEmpty then .ok (.vacant names)
        else halt .notFound rest

/-- What stands at a path. -/
def locate (tree : FileTree) (path : String) : Except FileFault Place :=
  if pathLimit < path.utf8ByteSize then .error .nameTooLong
  else match pathNames path with
    | "" :: name :: rest => followOutside (name :: rest)
    | names => tree.follow [] names

/-- Reads a file. -/
def read (tree : FileTree) (path : String) : Except FileFault ByteArray := do
  match ← tree.locate path with
  | .file _ bytes => .ok bytes
  | .directory => .error .isDirectory
  | .vacant _ => .error .notFound
  | .slashed fault => .error fault

def put (tree : FileTree) (names : List String) (bytes : ByteArray) : FileTree :=
  ⟨(names, bytes) :: tree.files.filter (·.1 ≠ names)⟩

/-- Writes a file, in place of one that is there. -/
def write (tree : FileTree) (path : String) (bytes : ByteArray) : Except FileFault FileTree := do
  match ← tree.locate path with
  | .file names _ | .vacant names => .ok (tree.put names bytes)
  | .directory | .slashed _ => .error .isDirectory

end FileTree

end FormCompiler
