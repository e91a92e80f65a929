/-!
# A tree of files

Files are held by the names on the way to them from the root. A directory is there if the working
directory or some file is at or below it. Every name on the way to a file has to be a directory,
and a path that ends in a slash names a directory.
-/

namespace HostAbi

/-- What the operating system says against opening a file. -/
inductive OsError where
  | notFound
  | notDirectory
  | isDirectory
  deriving DecidableEq

/-- The words of the operating system for an error, with its number. -/
def OsError.message : OsError → String
  | .notFound => "No such file or directory (os error 2)"
  | .notDirectory => "Not a directory (os error 20)"
  | .isDirectory => "Is a directory (os error 21)"

/-- What can stand at a place. -/
inductive FileNode where
  | file (content : List UInt8)
  | directory
  deriving DecidableEq

/-- Files by their places, and the place that relative paths start from. A tree has no links, no
permissions and no limits, so every file in it can be read and written, and all names are texts. -/
structure FileTree where
  workingDirectory : List String
  files : List (List String × List UInt8)
  deriving DecidableEq

namespace FileTree

/-- Whether the working directory or a file stands at a place or below it. -/
def isDirectory (t : FileTree) (place : List String) : Bool :=
  place.isPrefixOf t.workingDirectory || t.files.any (place.isPrefixOf ·.1)

/-- What stands at a place. Where there is a file, there is no directory. -/
def node? (t : FileTree) (place : List String) : Option FileNode :=
  match t.files.lookup place with
  | some content => some (.file content)
  | none => if t.isDirectory place then some .directory else none

/-- The place that a name leads to from a directory. -/
def child (place : List String) (name : String) : List String :=
  if name = "" ∨ name = "." then place
  else if name = ".." then place.dropLast
  else place ++ [name]

/-- The directory that names lead to, one after the other, from a place. -/
def enter (t : FileTree) (place : List String) (names : List String) :
    Except OsError (List String) :=
  match t.node? place, names with
  | none, _ => .error .notFound
  | some (.file _), _ => .error .notDirectory
  | some .directory, [] => .ok place
  | some .directory, name :: names => t.enter (child place name) names

/-- The place that a path starts from. -/
def start (t : FileTree) (path : String) : List String :=
  if path.startsWith "/" then [] else t.workingDirectory

/-- The names in a path. The last of a path that ends in a slash is empty. -/
def names (path : String) : List String := path.splitOn "/"

/-- What the file at a path holds. All names before the last have to lead to a directory. Behind a
slash at the end the last name is empty, and leads to no file. -/
def read (t : FileTree) (path : String) : Except OsError (List UInt8) :=
  if path = "" then .error .notFound
  else do
    let directory ← t.enter (t.start path) (names path).dropLast
    match t.node? (child directory ((names path).getLastD "")) with
    | none => .error .notFound
    | some .directory => .error .isDirectory
    | some (.file content) => .ok content

/-- The tree with a file at a place, in the stead of the one that may be there. -/
def put (t : FileTree) (place : List String) (content : List UInt8) : FileTree :=
  { t with files := (place, content) :: t.files.filter (·.1 ≠ place) }

/-- Writes a file, which is new or loses what it held. -/
def write (t : FileTree) (path : String) (content : List UInt8) : Except OsError FileTree :=
  if path = "" then .error .notFound
  else
    -- The file need not be there, so the way to it ends before the last name that is not empty.
    match (names path).reverse.dropWhile (· = "") with
    | [] => .error .isDirectory
    | name :: before => do
      let directory ← t.enter (t.start path) before.reverse
      let place := child directory name
      if (names path).getLastD "" ≠ name ∨ t.node? place = some .directory then .error .isDirectory
      else .ok (t.put place content)

/-- The tree of a working directory with files under it by their paths. -/
def ofFiles (workingDirectory : List String) (files : List (String × List UInt8)) : FileTree where
  workingDirectory
  files := files.map fun (path, content) =>
    ((names path).foldl child workingDirectory, content)

end FileTree

end HostAbi
