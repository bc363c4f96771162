/-
What the name of a port stands for: a path is followed part by part through the folders of a
system, from the root or from the current folder. Only a file can be a terminal; a folder, and a
path that the system refuses to follow, are something else than an absent file.
-/

namespace Powerline

/-- What a name stands for, if anything; `other` is all but a terminal. -/
inductive Site where
  | terminal
  | other
  | absent
  deriving DecidableEq, Repr

/-- The files of a system that matter here, each as the parts of its path from the root: folders,
terminals, and files that are no terminals; and the folder that paths without a root start from. -/
structure FileTree where
  folders : List (List String) := []
  terminals : List (List String) := []
  plain : List (List String) := []
  current : List String := []

namespace Path

/-- Characters cut at each slash. -/
def cut : List Char → List (List Char)
  | [] => [[]]
  | c :: rest =>
    if c = '/' then [] :: cut rest
    else match cut rest with
      | [] => [[c]]
      | part :: more => (c :: part) :: more

/-- The parts of a path between its slashes. -/
def parts (path : String) : List String := (cut path.toList).map String.ofList

/-- The most bytes that one part may have. -/
def maxPart : Nat := 255

/-- The number of bytes at which a path is too long. -/
def tooLong : Nat := 4096

end Path

namespace FileTree

/-- Follows the parts of a path from a folder on. Nothing can be followed through a file, not even by
a last slash. -/
def follow (tree : FileTree) (folder : List String) : List String → Site
  | [] => .other
  | part :: rest =>
    if part = "" ∨ part = "." then tree.follow folder rest
    -- at the root two dots stay
    else if part = ".." then tree.follow folder.dropLast rest
    else if part.utf8ByteSize > Path.maxPart then .other
    else
      let file := folder ++ [part]
      if tree.folders.contains file then tree.follow file rest
      else if tree.terminals.contains file then (if rest = [] then .terminal else .other)
      else if tree.plain.contains file then .other
      else .absent

/-- What a name stands for. The empty name stands for nothing, and a name with a zero character or of
too many bytes is refused. -/
def site (tree : FileTree) (name : String) : Site :=
  if name.toList.contains '\x00' ∨ name.utf8ByteSize ≥ Path.tooLong then .other
  else match name.toList with
    | [] => .absent
    | '/' :: _ => tree.follow [] (Path.parts name)
    | _ => tree.follow tree.current (Path.parts name)

end FileTree

end Powerline
