import Mson.File.Fault
import Mson.File.Path
import Mson.Report.Workbook

/-!
# Access to files

What the program does with files, whatever keeps them. Paths are relative to a working folder and
have their shown form.
-/
namespace Mson.File

structure FileAccess (m : Type → Type) where
  /-- Whether there is a file or folder at a path. -/
  exists_ : String → m (Except FileFault Bool)
  readBytes : String → m (Except FileFault (List UInt8))
  /-- Makes one folder, in a folder that is there. -/
  makeFolder : String → m (Except FileFault Unit)
  isFolder : String → m Bool
  writeText : String → String → m (Except FileFault Unit)
  writeWorkbook : String → Report.Workbook → m (Except FileFault Unit)
  /-- The path from the root, without steps back. -/
  resolve : String → m String

namespace FileAccess

variable {m : Type → Type} [Monad m]

/-- Makes a folder unless it is there. -/
def ensureFolder (files : FileAccess m) (path : String) : m (Except FileFault Unit) := do
  match ← files.makeFolder path with
  | .ok () => return .ok ()
  | .error fault =>
      if fault.cause ≠ .missing ∧ (← files.isFolder path) then return .ok ()
      else return .error fault

/-- Makes a folder and all folders above it that are missing; `depth` bounds their number. -/
def ensureFolders (files : FileAccess m) (depth : Nat) (path : String) :
    m (Except FileFault Unit) := do
  match ← files.ensureFolder path, depth with
  | .ok (), _ => return .ok ()
  | .error fault, depth + 1 =>
      if fault.cause = .missing ∧ parent path ≠ path then
        match ← files.ensureFolders depth (parent path) with
        | .ok () => files.ensureFolder path
        | .error fault => return .error fault
      else return .error fault
  | .error fault, 0 => return .error fault

/-- Makes the folder of a file, with all folders above it. -/
def ensureParent (files : FileAccess m) (path : String) : m (Except FileFault Unit) :=
  files.ensureFolders (components path).length (parent path)

end FileAccess

end Mson.File
