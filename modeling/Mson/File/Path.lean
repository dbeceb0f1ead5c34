import Mson.Text.Split

/-!
# Paths

A path is shown without empty and `.` components and without a separator at its end; `..` stays. Of
several separators at the beginning one is shown, except that exactly two are kept.
-/
namespace Mson.File

def separator : Char := '/'

/-- The components of a path, without those that lead nowhere. -/
def components (path : String) : List String :=
  ((Text.splitAt separator path.toList).map String.ofList).filter fun part => part ≠ "" ∧ part ≠ "."

def root (path : String) : String :=
  match (path.toList.takeWhile (· == separator)).length with
  | 0 => ""
  | 2 => "//"
  | _ => "/"

/-- The path as it is shown. -/
def normalize (path : String) : String :=
  let shown := root path ++ "/".intercalate (components path)
  if shown = "" then "." else shown

/-- The folder of a path in its shown form; a path without components is its own folder. -/
def parent (path : String) : String :=
  let names := (components path).dropLast
  if (components path).isEmpty then path else normalize (root path ++ "/".intercalate names)

end Mson.File
