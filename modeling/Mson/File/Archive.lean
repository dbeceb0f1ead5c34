/-!
# Archives

An archive holds files one after the other as they are, each behind a header of its own, and ends
in a directory that lists them all with their places. Numbers have their lowest byte first.
-/
namespace Mson.File.Archive

/-- A number in `count` bytes. -/
def number (count value : Nat) : List UInt8 :=
  match count with
  | 0 => []
  | count + 1 => UInt8.ofNat (value % 256) :: number count (value / 256)

/-! ## Checksums -/

/-- Divides one bit further by the polynomial of the cyclic redundancy check. -/
def checkBit (value : UInt32) : UInt32 :=
  if value &&& 1 = 1 then (value >>> 1) ^^^ 0xEDB88320 else value >>> 1

def checkBits : Nat → UInt32 → UInt32
  | 0, value => value
  | count + 1, value => checkBits count (checkBit value)

/-- The cyclic redundancy check of 32 bits. -/
def checksum (bytes : List UInt8) : UInt32 :=
  bytes.foldl (fun value byte => checkBits 8 (value ^^^ byte.toUInt32)) 0xFFFFFFFF ^^^ 0xFFFFFFFF

/-! ## Layout -/

structure Member where
  name : String
  bytes : List UInt8

/-- The first day that a file can carry. -/
def firstDay : Nat := 0x21

/-- What both headers of a file have in common: the version needed, how the file is stored, its
time, checksum and sizes, and the length of its name. -/
def Member.details (entry : Member) : List UInt8 :=
  number 2 20 ++ number 2 0x800 ++ number 2 0 ++ number 2 0 ++ number 2 firstDay ++
    number 4 (checksum entry.bytes).toNat ++ number 4 entry.bytes.length ++
    number 4 entry.bytes.length ++ number 2 entry.name.utf8ByteSize ++ number 2 0

def Member.nameBytes (entry : Member) : List UInt8 := entry.name.toUTF8.toList

/-- A file with the header in front of it. -/
def Member.stored (entry : Member) : List UInt8 :=
  number 4 0x04034B50 ++ entry.details ++ entry.nameBytes ++ entry.bytes

/-- The line of the directory about a file that is stored at a place. -/
def Member.listed (entry : Member) (place : Nat) : List UInt8 :=
  number 4 0x02014B50 ++ number 2 20 ++ entry.details ++ number 2 0 ++ number 2 0 ++ number 2 0 ++
    number 4 0 ++ number 4 place ++ entry.nameBytes

/-- The stored files and the directory, for files from a place on. -/
def layOut (place : Nat) : List Member → List UInt8 × List UInt8
  | [] => ([], [])
  | entry :: entries =>
      let stored := entry.stored
      let (others, directory) := layOut (place + stored.length) entries
      (stored ++ others, entry.listed place ++ directory)

/-- The bytes of an archive of the given files. -/
def bytes (entries : List Member) : List UInt8 :=
  let (stored, directory) := layOut 0 entries
  stored ++ directory ++ number 4 0x06054B50 ++ number 2 0 ++ number 2 0 ++
    number 2 entries.length ++ number 2 entries.length ++ number 4 directory.length ++
    number 4 stored.length ++ number 2 0

end Mson.File.Archive
