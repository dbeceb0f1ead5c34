import Mson.Text.Quoted

/-!
# Faults of files

Why a file or folder cannot be used, with the number and the words of the operating system.
-/
namespace Mson.File

inductive FaultCause where
  | missing
  | exists_
  | notAFolder
  | isAFolder
  | nameTooLong
  /-- Any other reason that the operating system gives. -/
  | other (number : Nat) (text : String)
  deriving DecidableEq, Repr

def FaultCause.number : FaultCause → Nat
  | .missing => 2
  | .exists_ => 17
  | .notAFolder => 20
  | .isAFolder => 21
  | .nameTooLong => 36
  | .other number _ => number

def FaultCause.text : FaultCause → String
  | .missing => "No such file or directory"
  | .exists_ => "File exists"
  | .notAFolder => "Not a directory"
  | .isAFolder => "Is a directory"
  | .nameTooLong => "File name too long"
  | .other _ text => text

structure FileFault where
  cause : FaultCause
  path : String
  deriving DecidableEq, Repr

def FileFault.message (fault : FileFault) : String :=
  s!"[Errno {fault.cause.number}] {fault.cause.text}: " ++ String.ofList (Text.quote fault.path)

end Mson.File
