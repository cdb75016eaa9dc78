import LoxLang.Command.Path

/-!
# Directories

What a command finds under a path, and a directory that is known in full. Names in such a directory
lead to files or further directories; above it lie directories of which nothing is known but that
they are there.
-/

namespace LoxLang.Command

/-- What stands under a path. -/
inductive Found where
  | missing
  | directory
  | file (content : ByteArray)

/-- Where names lead to, seen from a directory. -/
inductive Place where
  /-- Below the directory, by the names that lead there, the last one first. -/
  | inside (reached : List String)
  | above
deriving DecidableEq, Repr

/-- Where a path starts; the root of all files lies above the directory. -/
def Path.start (path : Path) : Place := if path.root = .relative then .inside [] else .above

/-- A directory: its files under the names that lead to them. -/
structure Directory where
  files : List (List String × ByteArray)

namespace Directory

/-- Some file lies below these names. -/
def hasBelow (directory : Directory) (names : List String) : Bool :=
  directory.files.any fun (name, _) => names.isPrefixOf name && names.length < name.length

/-- The file under these names. -/
def file? (directory : Directory) (names : List String) : Option ByteArray :=
  directory.files.lookup names

/-- Where names lead to from a place. A name that nothing stands under leads nowhere, and a file
leads no further. -/
def walk (directory : Directory) : Place → List String → Option Place
  | place, [] => some place
  | .above, name :: names => if name = ".." then walk directory .above names else none
  | .inside reached, name :: names =>
    if name = ".." then
      match reached with
      | [] => walk directory .above names
      | _ :: outer => walk directory (.inside outer) names
    else
      let further := name :: reached
      if directory.hasBelow further.reverse then walk directory (.inside further) names
      else if names.isEmpty ∧ (directory.file? further.reverse).isSome then some (.inside further)
      else none

/-- The names under which a path leaves its last name, if the directories before it are there. -/
def target? (directory : Directory) (path : Path) : Option (List String) :=
  match directory.walk path.start path.names.dropLast with
  | some (.inside reached) => path.names.getLast?.map fun name => (name :: reached).reverse
  | _ => none

/-- What stands under a path. -/
def find (directory : Directory) (path : Path) : Found :=
  match directory.walk path.start path.names with
  | none => .missing
  | some .above => .directory
  | some (.inside reached) =>
    match directory.file? reached.reverse with
    | some content => .file content
    | none => .directory

/-- The files that are new or different once texts have been written to paths, with the names that
lead to them. -/
def changes (directory : Directory) (written : List (Path × String)) : List (String × String) :=
  written.filterMap fun (path, text) =>
    match directory.target? path with
    | some names =>
      if (directory.file? names).any (· == text.toUTF8) then none
      else some ("/".intercalate names, text)
    | none => none

end Directory
end LoxLang.Command
