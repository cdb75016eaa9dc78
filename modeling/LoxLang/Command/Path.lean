/-!
# Paths

A path is written without empty parts and without single dots: `./a//b/` is the path `a/b`. A pair
of dots is kept, since what it leads to depends on the directory before it. Two slashes in front are
kept apart from one.
-/

namespace LoxLang.Command

/-- Where a path starts. -/
inductive PathRoot where
  | relative
  | slash
  | doubleSlash
deriving DecidableEq, Repr

/-- A path: where it starts, and the names that follow. -/
structure Path where
  root : PathRoot
  names : List String
deriving DecidableEq, Repr

namespace PathRoot

/-- The root of a text that begins with this many slashes. -/
def ofSlashes : Nat → PathRoot
  | 0 => relative
  | 2 => doubleSlash
  | _ => slash

/-- The text of a root. -/
def text : PathRoot → String
  | relative => ""
  | slash => "/"
  | doubleSlash => "//"

end PathRoot

/-- The parts of a text between slashes, after the part that has been read in reverse order. -/
def splitSlashes (part : List Char) : List Char → List (List Char)
  | [] => [part.reverse]
  | character :: rest =>
    if character = '/' then part.reverse :: splitSlashes [] rest
    else splitSlashes (character :: part) rest

namespace Path

/-- The path that a text writes. -/
def ofText (text : String) : Path :=
  let characters := text.toList
  let parts := (splitSlashes [] characters).map String.ofList
  ⟨.ofSlashes (characters.takeWhile (· = '/')).length,
    parts.filter fun part => part ≠ "" ∧ part ≠ "."⟩

/-- The text of a path; a path without a root and without names is a dot. -/
def text (path : Path) : String :=
  if path.root = .relative ∧ path.names = [] then "."
  else path.root.text ++ "/".intercalate path.names

/-- The path with an ending put to its last name. -/
def addEnding (path : Path) (ending : String) : Path :=
  match path.names.getLast? with
  | some name => { path with names := path.names.dropLast ++ [name ++ ending] }
  | none => path

end Path
end LoxLang.Command
