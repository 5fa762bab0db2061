import RadarChart.Fault
import RadarChart.Text.Blank
import RadarChart.Text.Quoted

/-!
# File trees

A tree of files and directories with a working directory, and the ways in
which commands read and write it. A place in the tree is its list of names
from the root. A path is walked name by name, so `..` after a directory that
is not there leads nowhere; only the directories that a file is written into
are made along the path with its `.` and `..` already taken out.
-/

namespace RadarChart

open Text

/-- Why a file operation is refused. -/
inductive FileErrorKind where
  | missing
  | exists
  | notDirectory
  | isDirectory
  | nameTooLong
deriving DecidableEq, Repr

def FileErrorKind.number : FileErrorKind → Nat
  | .missing => 2
  | .exists => 17
  | .notDirectory => 20
  | .isDirectory => 21
  | .nameTooLong => 36

def FileErrorKind.text : FileErrorKind → String
  | .missing => "No such file or directory"
  | .exists => "File exists"
  | .notDirectory => "Not a directory"
  | .isDirectory => "Is a directory"
  | .nameTooLong => "File name too long"

structure FileError where
  kind : FileErrorKind
  path : String
deriving DecidableEq, Repr

def FileError.message (e : FileError) : String :=
  "[Errno " ++ toString e.kind.number ++ "] " ++ e.kind.text ++ ": " ++ quoted e.path

/-- What keeps a file operation from being done. -/
inductive FileStop where
  | error (e : FileError)
  | fault (f : Fault)
deriving DecidableEq, Repr

/-- A place: the names from the root on. -/
abbrev Place := List String

inductive Node where
  | directory
  | file (content : ByteArray)

/-- Files are equal when their bytes are. -/
instance : DecidableEq Node
  | .directory, .directory => isTrue rfl
  | .directory, .file _ => isFalse nofun
  | .file _, .directory => isFalse nofun
  | .file a, .file b =>
    match ByteArray.instDecidableEq a b with
    | isTrue h => isTrue (congrArg Node.file h)
    | isFalse h => isFalse fun hab => h (Node.file.inj hab)

structure FileTree where
  workingDirectory : Place
  /-- everything below the root, each place once -/
  nodes : List (Place × Node)

namespace FileTree

/-- What is at a place. The root is always a directory. -/
def find? (t : FileTree) (p : Place) : Option Node :=
  if p = [] then some .directory else t.nodes.lookup p

/-- The tree with something put at a place, or replaced there. -/
def put (t : FileTree) (p : Place) (n : Node) : FileTree :=
  { t with
    nodes :=
      if t.nodes.any (·.1 == p) then t.nodes.map fun e => if e.1 == p then (p, n) else e
      else t.nodes ++ [(p, n)] }

/-! ## Paths -/

/-- The most bytes of a name. -/
def nameLimit : Nat := 255

/-- The most bytes of a path, and one more. -/
def pathLimit : Nat := 4096

/-- Whether a path starts at the root. -/
def isAbsolute (path : String) : Bool :=
  path.toList.head? == some '/'

/-- The names of a path. A doubled or final slash gives an empty one. -/
def pathNames (path : String) : List String :=
  (splitAt '/' path.toList).map String.ofList

/-- Where a path starts. -/
def start (t : FileTree) (path : String) : Place :=
  if isAbsolute path then [] else t.workingDirectory

/-- The place that is reached from another by names, which must lead through
directories. There need be nothing at the place itself. -/
def walk (t : FileTree) (at_ : Place) : List String → Except FileErrorKind Place
  | [] => .ok at_
  | name :: names =>
    match t.find? at_ with
    | none => .error .missing
    | some (.file _) => .error .notDirectory
    | some .directory =>
      if name = "" ∨ name = "." then t.walk at_ names
      else if name = ".." then t.walk at_.dropLast names
      else if nameLimit < name.utf8ByteSize then .error .nameTooLong
      else t.walk (at_ ++ [name]) names

/-- Refuses the paths that no operation accepts. -/
def checkPath (path : String) : Except FileStop Unit :=
  if path.contains '\x00' then .error (.fault .nulInPath)
  else if path = "" then .error (.error ⟨.missing, path⟩)
  else if pathLimit ≤ path.utf8ByteSize then .error (.error ⟨.nameTooLong, path⟩)
  else .ok ()

/-- A refusal that names the path. -/
def refusing {α : Type} (path : String) : Except FileErrorKind α → Except FileStop α
  | .ok a => .ok a
  | .error kind => .error (.error ⟨kind, path⟩)

/-! ## Reading and writing -/

/-- The content of the file at a path. -/
def read (t : FileTree) (path : String) : Except FileStop ByteArray := do
  checkPath path
  let place ← refusing path (t.walk (t.start path) (pathNames path))
  match t.find? place with
  | some (.file content) => return content
  | some .directory => throw (.error ⟨.isDirectory, path⟩)
  | none => throw (.error ⟨.missing, path⟩)

/-- The place of the file that a path names for writing: the directory must be
there, and the last name must not be that of a directory. -/
def target (t : FileTree) (path : String) : Except FileErrorKind Place := do
  let names := (pathNames path).reverse
  match names.dropWhile (· == "") with
  | [] => throw .isDirectory
  | last :: before =>
    let directory ← t.walk (t.start path) before.reverse
    match t.find? directory with
    | none => throw .missing
    | some (.file _) => throw .notDirectory
    | some .directory =>
      if names.head? = some "" ∨ last = "." ∨ last = ".." then throw .isDirectory
      else if nameLimit < last.utf8ByteSize then throw .nameTooLong
      else
        match t.find? (directory ++ [last]) with
        | some .directory => throw .isDirectory
        | _ => return directory ++ [last]

/-- The place that a path names when its `.` and `..` are taken out, whatever
is there. -/
def normalPlace (t : FileTree) (path : String) : Place :=
  (pathNames path).foldl (fun place name =>
    if name = "" ∨ name = "." then place
    else if name = ".." then place.dropLast
    else place ++ [name]) (t.start path)

/-- What the absolute form of a path starts with. Two slashes at the start of a
path are kept, any other number is the same as one. -/
def rootText (path : String) : String :=
  match path.toList with
  | '/' :: '/' :: '/' :: _ => "/"
  | '/' :: '/' :: _ => "//"
  | _ => "/"

/-- A place as an absolute path. -/
def absolutePath (root : String) (p : Place) : String :=
  root ++ String.intercalate "/" p

/-- The tree with a new directory at a place. -/
def makeDirectory (t : FileTree) (root : String) (p : Place) : Except FileStop FileTree := do
  let path := absolutePath root p
  checkPath path
  match t.target path with
  | .error .isDirectory => throw (.error ⟨.exists, path⟩)
  | .error kind => throw (.error ⟨kind, path⟩)
  | .ok place =>
    match t.find? place with
    | some _ => throw (.error ⟨.exists, path⟩)
    | none => return t.put place .directory

/-- The tree with a directory at a place, given by its names from the last to
the first, and with those that lead to it. What was made before a refusal stays. -/
def ensureDirectory (t : FileTree) (root : String) : List String → FileTree × Except FileStop Unit
  | [] => (t, .ok ())
  | name :: before =>
    let place := (name :: before).reverse
    let (t, above) :=
      if (t.find? before.reverse).isSome then (t, .ok ()) else t.ensureDirectory root before
    match above with
    | .error stop => (t, .error stop)
    | .ok () =>
      match t.makeDirectory root place with
      | .ok t => (t, .ok ())
      | .error stop => if t.find? place = some .directory then (t, .ok ()) else (t, .error stop)

/-- Writes a file: its directories are made, the file is emptied, and then its
text is written, if there is one. -/
def save (t : FileTree) (path : String) (text : Except Fault String) :
    FileTree × Except FileStop Unit :=
  match t.ensureDirectory (rootText path) (t.normalPlace path).dropLast.reverse with
  | (t, .error stop) => (t, .error stop)
  | (t, .ok ()) =>
    match checkPath path >>= fun _ => refusing path (t.target path) with
    | .error stop => (t, .error stop)
    | .ok place =>
      let t := t.put place (.file ByteArray.empty)
      match text with
      | .error fault => (t, .error (.fault fault))
      | .ok text => (t.put place (.file text.toUTF8), .ok ())

end FileTree

end RadarChart
