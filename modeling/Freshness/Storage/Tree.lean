import Freshness.Storage.Entry

/-!
# File trees

Directories, the files in them and the paths through them.  A directory is known by a number of
its own, and the name under which the directory above lists it is only the way there.  So one that
is removed loses its name and takes nothing new, but whoever stands in it goes on standing there,
and `..` still leads up from it.

A path is followed name by name, and every name but the last has to lead to a directory; an empty
name and `.` stay where they are, and `..` goes up, from the root to the root itself.  A slash at
the end of a path stands before an empty name.  So it asks for a directory where something is
looked up (`locate`), but not where something is created or removed (`target`): a directory may be
created under a path that ends in a slash, and a file may not.
-/

namespace Freshness.Storage

/-- What a name in a directory stands for. -/
inductive Item
  | directory (number : Nat)
  | file (content : ByteArray)

structure Directory where
  /-- The number of the directory above; the root is above itself. -/
  parent : Nat
  /-- The names that the directory lists, each once. -/
  items : List (String × Item) := []
  /-- Whether the directory above no longer lists it. -/
  isRemoved : Bool := false

/-- Directories by their numbers; number zero is the root. -/
structure Tree where
  directories : List Directory := [⟨0, [], false⟩]

/-- A name in the directory of the given number. -/
structure Site where
  directory : Nat
  name : String

namespace Directory

def put (directory : Directory) (name : String) (item : Item) : Directory :=
  { directory with items := (name, item) :: directory.items.filter (·.1 ≠ name) }

def erase (directory : Directory) (name : String) : Directory :=
  { directory with items := directory.items.filter (·.1 ≠ name) }

end Directory

namespace Tree

def directory (tree : Tree) (number : Nat) : Directory :=
  tree.directories.getD number ⟨0, [], false⟩

def modify (tree : Tree) (number : Nat) (change : Directory → Directory) : Tree :=
  ⟨tree.directories.modify number change⟩

/-- What a name stands for, seen from the directory `here`. -/
def item? (tree : Tree) (here : Nat) (name : String) : Option Item :=
  if name = "" ∨ name = "." then some (.directory here)
  else if name = ".." then some (.directory (tree.directory here).parent)
  else (tree.directory here).items.lookup name

/-- The directory that names lead to from `here`. -/
def follow (tree : Tree) (here : Nat) : List String → Except Failure Nat
  | [] => .ok here
  | name :: names =>
    match tree.item? here name with
    | none => .error .notFound
    | some (.file _) => .error .notADirectory
    | some (.directory number) => follow tree number names

/-- The last of some names, in the directory that the names before it lead to. -/
def site (tree : Tree) (here : Nat) (names : List String) : Except Failure Site := do
  return ⟨← tree.follow here names.dropLast, names.getLastD ""⟩

def names (path : String) : List String :=
  (path.toList.splitOn '/').map String.ofList

/-- Where a path starts: at the root if it begins with a slash, else `here`. -/
def origin (here : Nat) (path : String) : Nat :=
  if path.toList.head? = some '/' then 0 else here

def locate (tree : Tree) (here : Nat) (path : String) : Except Failure Site :=
  if path = "" then .error .notFound
  else tree.site (origin here path) (names path)

/-- The site that a path leads to from `here` without the slashes at its end. -/
def target (tree : Tree) (here : Nat) (path : String) : Except Failure Site :=
  if path = "" then .error .notFound
  else tree.site (origin here path) ((names path).reverse.dropWhile (· = "")).reverse

/-- Whether a path ends in a slash, and so can only stand for a directory. -/
def endsInSlash (path : String) : Bool :=
  path.toList.getLast? = some '/'

def entry (tree : Tree) (here : Nat) (path : String) : Entry :=
  match tree.locate here path with
  | .error .notADirectory => .blocked
  | .error _ => .absent
  | .ok site =>
    match tree.item? site.directory site.name with
    | none => .absent
    | some (.directory _) => .directory
    | some (.file content) => .file content

/-- Gives a name a meaning, which a directory that is removed refuses. -/
def add (tree : Tree) (site : Site) (item : Item) : Except Failure Tree :=
  if (tree.directory site.directory).isRemoved then .error .notFound
  else .ok (tree.modify site.directory (·.put site.name item))

/-- Creates a file or replaces its content. -/
def write (tree : Tree) (here : Nat) (path : String) (content : ByteArray) :
    Except Failure Tree := do
  let site ← tree.target here path
  if endsInSlash path then throw .isADirectory
  match tree.item? site.directory site.name with
  | some (.directory _) => throw .isADirectory
  | _ => tree.add site (.file content)

def makeDirectory (tree : Tree) (here : Nat) (path : String) : Except Failure Tree := do
  let site ← tree.target here path
  match tree.item? site.directory site.name with
  | some _ => throw .alreadyExists
  | none =>
    let listed ← tree.add site (.directory tree.directories.length)
    return ⟨listed.directories ++ [⟨site.directory, [], false⟩]⟩

/-- Takes its name from a directory, which has to be empty.  The name has to be its own: the root,
which has none, is refused, and so are `.` and `..`. -/
def removeDirectory (tree : Tree) (site : Site) (number : Nat) : Except Failure Tree :=
  if site.name = "" then .error .busy
  else if site.name = "." then .error .invalidArgument
  else if site.name = ".." ∨ !(tree.directory number).items.isEmpty then .error .notEmpty
  else
    .ok ((tree.modify site.directory (·.erase site.name)).modify number
      ({ · with isRemoved := true }))

/-- Removes a file or an empty directory. -/
def remove (tree : Tree) (here : Nat) (path : String) : Except Failure Tree := do
  let site ← tree.target here path
  match tree.item? site.directory site.name with
  | none => throw .notFound
  | some (.directory number) => tree.removeDirectory site number
  | some (.file _) =>
    if endsInSlash path then throw .notADirectory
    else return tree.modify site.directory (·.erase site.name)

end Tree

end Freshness.Storage
