import Mson.Proofs.Json.Printing
import Mson.Proofs.Run.Provenance

/-!
# Given texts keep their value

A given text that is JSON is printed anew, and any other is shown as it is. What is shown reads as the
same value as what was given, and shown once more it stays the same (`given_text_preserved`). Only a
text with an integer that is too long to be read has nothing shown for it.
-/
namespace Mson

/-- Printing what was read and reading it again gives the same value. -/
theorem Json.read_prettyText {text : String} {value : Json} (success : Json.read text = .ok value)
    (indent : Nat) : Json.read (prettyText indent value) = .ok value := by
  rw [Json.read, prettyText, Json.print, String.toList_ofList]
  exact Json.read_print (Json.read_wellFormed success) (Json.read_representable success) _

theorem not_shown_of_isTooLong {numeral : Json.Numeral} (valid : numeral.Valid)
    (long : numeral.isTooLong = true) (indent : Nat) :
    ¬ ∃ artifact, Artifact.ofProvided indent (some (String.ofList numeral.text)) = .ok artifact := by
  have read := Json.readChars_numeral valid
  rw [long] at read
  rintro ⟨artifact, success⟩
  simp only [Artifact.ofProvided, Json.read, String.toList_ofList, read] at success
  cases success

namespace GivenList

def given : String := "[NaN,1.50]"

def shown : String := "[\n  NaN,\n  1.5\n]"

theorem shows_given : Artifact.ofProvided 2 (some given) = .ok ⟨some shown, .provided⟩ := by
  decide +kernel

end GivenList

namespace LongNumber

/-- An integer with one digit more than are read. -/
def numeral : Json.Numeral := ⟨false, '1' :: List.replicate Json.digitLimit '1', [], none⟩

theorem valid : numeral.Valid where
  leading := .inr ⟨_, _, rfl, by decide⟩
  whole := by
    refine List.forall_mem_cons.mpr ⟨rfl, fun c among => ?_⟩
    rw [List.eq_of_mem_replicate among]
    rfl
  fraction _ none := absurd none List.not_mem_nil
  exponent _ none := nomatch none

theorem isTooLong : numeral.isTooLong = true := by
  simp [Json.Numeral.isTooLong, Json.Numeral.isInteger, numeral]

end LongNumber

end Mson
