import Cadence.SystemError
import Cadence.Url.Form

/-!
# File trees

A tree of directories and files with a working directory, and the few accesses that the program makes: read a
whole file, create or empty one and fill it, make directories.

* `FileTree.locate` follows a path as the operating system does, name by name; a file in the middle of a path, a
  missing directory and a slash after a file are told apart.
* `Limits` are what the system refuses apart from that: new directories, files to be written, and bytes for which there
  is no room.
* Every access that is refused leaves the tree as it is. `FileTree.write` may fail later, with the file emptied and a
  part of its contents in it.
-/

namespace Cadence

/-- What stands at a place of the tree. What is barred cannot be looked into, and the system answers so. -/
inductive Node where
  | file (contents : ByteArray)
  | directory
  | barred (isDirectory : Bool) (answer : SystemError)

/-- What the system refuses at a place, with its answers: that a directory is made there or a file is opened to be written,
and that a file there takes more than so many bytes. -/
structure Limits where
  entry : List String → Option SystemError
  room : List String → Option (Nat × SystemError)

/-- Nothing is refused. -/
def Limits.none : Limits := ⟨fun _ => .none, fun _ => .none⟩

/-- Places by the names that lead to them from the root, the place that relative paths start from, and what the system
refuses. The root is a directory and is not listed. -/
structure FileTree where
  nodes : List (List String × Node)
  cwd : List String
  limits : Limits

/-- Where a path leads. -/
inductive Place where
  | taken (names : List String) (node : Node)
  | free (names : List String) (slash : Bool)

namespace FileTree

/-- A tree with nothing in it but the working directory. -/
def empty : FileTree := ⟨[(["work"], .directory)], ["work"], .none⟩

/-- What stands at a place. -/
def node? (t : FileTree) (names : List String) : Option Node :=
  if names.isEmpty then some .directory else t.nodes.lookup names

/-- The tree with something else at a place. -/
def put (t : FileTree) (names : List String) (node : Node) : FileTree :=
  { t with nodes := (names, node) :: t.nodes.filter fun e => e.1 ≠ names }

/-- Follows the names of a path from a place. Names that are too long are refused when they are looked up. -/
def walk (t : FileTree) (place : List String) (node : Node) : List String → Except SystemError Place
  | [] => .ok (.taken place node)
  | name :: rest =>
    match node with
    | .file _ | .barred false _ => .error .notDirectory
    | .barred true answer => if name = "" then walk t place (.barred true answer) rest else .error answer
    | .directory =>
      if name = "" ∨ name = "." then walk t place .directory rest
      else if name = ".." then walk t place.dropLast .directory rest
      else if 255 < name.utf8ByteSize then .error .nameTooLong
      else match t.node? (place ++ [name]) with
        | some node => walk t (place ++ [name]) node rest
        | none => if rest.all (· = "") then .ok (.free (place ++ [name]) (!rest.isEmpty)) else .error .notFound

/-- The names of a path, between its slashes. -/
def names (path : String) : List String := (Url.Form.splitAt '/' path.toList).map String.ofList

/-- Follows a path. -/
def locate (t : FileTree) (path : String) : Except SystemError Place :=
  if path.toList.contains (Char.ofNat 0) then .error .nulInPath
  else if path.isEmpty then .error .notFound
  else if 4096 ≤ path.utf8ByteSize then .error .nameTooLong
  else if path.startsWith "/" then t.walk [] .directory (names path)
  else t.walk t.cwd .directory (names path)

/-- The contents of the file at a path. -/
def read (t : FileTree) (path : String) : Except SystemError ByteArray :=
  match t.locate path with
  | .error e => .error e
  | .ok (.free _ _) => .error .notFound
  | .ok (.taken _ .directory) => .error .isDirectory
  | .ok (.taken _ (.barred _ answer)) => .error answer
  | .ok (.taken _ (.file contents)) => .ok contents

/-- The contents of the file at a path, if they are text. -/
def readText (t : FileTree) (path : String) : Except SystemError String :=
  match t.read path with
  | .error e => .error e
  | .ok contents =>
    match String.fromUTF8? contents with
    | some s => .ok s
    | none => .error .invalidUtf8

/-- Opens the file at a place, which makes or empties it, and fills it with as many of the bytes as there is room for. -/
def fill (t : FileTree) (names : List String) (contents : ByteArray) : Except SystemError Unit × FileTree :=
  match t.limits.entry names with
  | some answer => (.error answer, t)
  | none =>
    match t.limits.room names with
    | some (most, answer) =>
      if most < contents.size then (.error answer, t.put names (.file (contents.extract 0 most)))
      else (.ok (), t.put names (.file contents))
    | none => (.ok (), t.put names (.file contents))

/-- Writes a file, in place of what it held before. -/
def write (t : FileTree) (path : String) (contents : ByteArray) : Except SystemError Unit × FileTree :=
  match t.locate path with
  | .error e => (.error e, t)
  | .ok (.free _ true) => (.error .isDirectory, t)
  | .ok (.free names false) => t.fill names contents
  | .ok (.taken _ .directory) | .ok (.taken _ (.barred true _)) => (.error .isDirectory, t)
  | .ok (.taken _ (.barred false answer)) => (.error answer, t)
  | .ok (.taken names (.file _)) => t.fill names contents

/-- Makes one directory. -/
def makeDirectory (t : FileTree) (path : String) : Except SystemError Unit × FileTree :=
  match t.locate path with
  | .error e => (.error e, t)
  | .ok (.taken _ _) => (.error .alreadyExists, t)
  | .ok (.free names _) =>
    match t.limits.entry names with
    | some answer => (.error answer, t)
    | none => (.ok (), t.put names .directory)

/-- Whether a path leads to a directory. -/
def isDirectory (t : FileTree) (path : String) : Bool :=
  match t.locate path with
  | .ok (.taken _ .directory) | .ok (.taken _ (.barred true _)) => true
  | _ => false

/-- The parts of a path: whether it starts at the root, and its names without empty ones and, except at the very
start, without those that mean staying. -/
def parts (path : String) : Bool × List String :=
  let names := match (names path).filter (· ≠ "") with
    | [] => []
    | n :: r => if n = "." && !path.startsWith "/" then n :: r.filter (· ≠ ".") else (n :: r).filter (· ≠ ".")
  (path.startsWith "/", names)

/-- The text of a path with the given parts. -/
def join (absolute : Bool) (names : List String) : String :=
  (if absolute then "/" else "") ++ String.intercalate "/" names

/-- Makes a directory and those above it, given its names in reverse order. -/
def makeDirectories (t : FileTree) (absolute : Bool) : List String → Except SystemError Unit × FileTree
  | [] => (.ok (), t)
  | name :: above =>
    let path := join absolute (name :: above).reverse
    match t.makeDirectory path with
    | (.ok (), t) => (.ok (), t)
    | (.error e, t) =>
      if e = .notFound then
        match makeDirectories t absolute above with
        | (.error e, t) => (.error e, t)
        | (.ok (), t) =>
          match t.makeDirectory path with
          | (.ok (), t) => (.ok (), t)
          | (.error e, t) => (if t.isDirectory path then .ok () else .error e, t)
      else (if t.isDirectory path then .ok () else .error e, t)

/-- Makes the directories that a file at `path` needs. -/
def makeParents (t : FileTree) (path : String) : Except SystemError Unit × FileTree :=
  let (absolute, names) := parts path
  t.makeDirectories absolute names.dropLast.reverse

/-- Writes a file and makes the directories that it needs. -/
def writeWithParents (t : FileTree) (path : String) (contents : ByteArray) :
    Except SystemError Unit × FileTree :=
  match t.makeParents path with
  | (.error e, t) => (.error e, t)
  | (.ok (), t) => t.write path contents

end FileTree
end Cadence
