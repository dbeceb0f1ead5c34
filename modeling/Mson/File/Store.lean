import Mson.File.Access
import Mson.Report.Spreadsheet

/-!
# Stores

Files and folders held in memory, by the names that lead to them from the working folder.
`Store.files` is the access to them. Of all that lies above the working folder a store knows only
that there are folders, and the null device, which is empty whatever is written to it.
-/
namespace Mson.File

/-- What a file holds. -/
inductive Content where
  | bytes (bytes : List UInt8)
  | workbook (workbook : Report.Workbook)
  deriving DecidableEq, Repr

inductive Place where
  /-- The place that names lead to from the working folder. -/
  | inside (names : List String)
  /-- A folder above the working folder, or the root. -/
  | above
  | nullDevice
  deriving DecidableEq, Repr

structure Store where
  /-- How the working folder is shown. -/
  workingFolder : String
  /-- The names that lead to each folder. -/
  folders : List (List String)
  contents : List (List String × Content)
  deriving Repr

namespace Store

/-- The longest name of a file or folder, in bytes. -/
def nameLimit : Nat := 255

/-- Paths of so many bytes are refused. -/
def pathLimit : Nat := 4096

def nullDevicePath : String := "/dev/null"

def empty (workingFolder : String) : Store := ⟨workingFolder, [], []⟩

def isFolderAt (store : Store) : Place → Bool
  | .inside names => names.isEmpty || store.folders.contains names
  | .above => true
  | .nullDevice => false

def contentAt (store : Store) : Place → Option Content
  | .inside names => store.contents.lookup names
  | .above => none
  | .nullDevice => some (.bytes [])

def isFileAt (store : Store) (place : Place) : Bool := (store.contentAt place).isSome

def isThere (store : Store) (place : Place) : Bool := store.isFolderAt place || store.isFileAt place

/-- The place of the folder that a folder lies in. -/
def folderOf : Place → Place
  | .inside names => if names.isEmpty then .above else .inside names.dropLast
  | place => place

/-- Follows names from a place. All but the last lead through folders. -/
def follow (store : Store) (place : Place) : List String → Except FaultCause Place
  | [] => .ok place
  | name :: names =>
      if !store.isFolderAt place then
        .error (if store.isFileAt place then .notAFolder else .missing)
      else if name = ".." then store.follow (folderOf place) names
      else if nameLimit < name.utf8ByteSize then .error .nameTooLong
      else match place with
        | .inside before => store.follow (.inside (before ++ [name])) names
        | _ => .error .missing

def locate (store : Store) (path : String) : Except FaultCause Place :=
  if pathLimit ≤ path.utf8ByteSize then .error .nameTooLong
  else if path = nullDevicePath then .ok .nullDevice
  else if path = parent nullDevicePath then .ok .above
  else store.follow (if root path = "" then .inside [] else .above) (components path)

/-- Writes a file at a path. -/
def write (store : Store) (path : String) (content : Content) : Except FaultCause Store := do
  let place ← store.locate path
  if store.isFolderAt place then throw .isAFolder
  match place with
  | .inside names =>
      let others := store.contents.filter fun entry => entry.1 ≠ names
      return { store with contents := (names, content) :: others }
  | _ => return store

/-- A fault at a path. -/
def faultAt (path : String) (result : Except FaultCause α) : Except FileFault α :=
  result.mapError fun cause => ⟨cause, path⟩

def exists_ (store : Store) (path : String) : Except FaultCause Bool :=
  match store.locate path with
  | .ok place => .ok (store.isThere place)
  | .error .nameTooLong => .error .nameTooLong
  | .error _ => .ok false

def readBytes (store : Store) (path : String) : Except FaultCause (List UInt8) := do
  let place ← store.locate path
  match store.contentAt place with
  | some (.bytes bytes) => return bytes
  | some (.workbook workbook) => return Report.Spreadsheet.bytes workbook
  | none => throw (if store.isFolderAt place then .isAFolder else .missing)

def makeFolder (store : Store) (path : String) : Except FaultCause Store := do
  let place ← store.locate path
  if store.isThere place then throw .exists_
  match place with
  | .inside names => return { store with folders := names :: store.folders }
  | _ => return store

def isFolder (store : Store) (path : String) : Bool :=
  match store.locate path with
  | .ok place => store.isFolderAt place
  | .error _ => false

/-- Names without steps back. -/
def withoutBacksteps (names : List String) : List String :=
  names.foldl (fun place name => if name = ".." then place.dropLast else place ++ [name]) []

def resolve (store : Store) (path : String) : String :=
  match root path, withoutBacksteps (components path) with
  | "", names => "/".intercalate (store.workingFolder :: names)
  | _, names => "/" ++ "/".intercalate names

/-- Runs a change of the store that may fail. -/
def change (path : String) (step : Store → Except FaultCause Store) :
    StateM Store (Except FileFault Unit) := do
  match step (← get) with
  | .ok store => set store; return .ok ()
  | .error cause => return .error ⟨cause, path⟩

/-- Access to the files of a store. -/
def files : FileAccess (StateM Store) where
  exists_ path := return faultAt path ((← get).exists_ path)
  readBytes path := return faultAt path ((← get).readBytes path)
  makeFolder path := change path fun store => store.makeFolder path
  isFolder path := return (← get).isFolder path
  writeText path text := change path fun store => store.write path (.bytes text.toUTF8.toList)
  writeWorkbook path workbook := change path fun store => store.write path (.workbook workbook)
  resolve path := return (← get).resolve path

end Store

end Mson.File
