import Mson.Json.Printer
import Mson.Json.Reader
import Mson.Proofs.Number.Shortest

/-!
# Numerals

A numeral is a number as JSON writes it: digits, then perhaps a fraction and an exponent. Before
anything that ends a value the reader takes a numeral for the number that it denotes, unless it is an
integer that is too long (`readNumber_text`). Integers and finite doubles are printed as numerals that
denote them (`text_ofInt`, `exists_numeral_double`).
-/
namespace Mson.Json

/-! ## Digits -/

def AllDigits (digits : List Char) : Prop := ∀ c ∈ digits, isDigit c = true

theorem AllDigits.append {first second : List Char} (left : AllDigits first)
    (right : AllDigits second) : AllDigits (first ++ second) := fun c among =>
  (List.mem_append.mp among).elim (left c) (right c)

theorem allDigits_zeros (count : Nat) : AllDigits (List.replicate count '0') := by
  intro c among
  rw [List.eq_of_mem_replicate among]
  decide

theorem isDigit_eq (c : Char) : isDigit c = c.isDigit := rfl

theorem allDigits_toDigits (n : Nat) : AllDigits (Nat.toDigits 10 n) := fun _ among =>
  (isDigit_eq _).trans (Nat.isDigit_of_mem_toDigits (by decide) (by decide) among)

theorem digitsValue_eq (digits : List Char) : digitsValue digits = Nat.ofDigitChars 10 digits 0 := rfl

theorem digitsValue_toDigits (n : Nat) : digitsValue (Nat.toDigits 10 n) = n :=
  Nat.ofDigitChars_ten_toDigits

/-- Zeros before digits do not count. -/
theorem digitsValue_zeros_append (count : Nat) (digits : List Char) :
    digitsValue (List.replicate count '0' ++ digits) = digitsValue digits := by
  rw [digitsValue_eq, Nat.ofDigitChars_append, Nat.ofDigitChars_replicate_zero, Nat.mul_zero]
  rfl

/-- Zeros after digits multiply them by ten. -/
theorem digitsValue_append_zeros (digits : List Char) (count : Nat) :
    digitsValue (digits ++ List.replicate count '0') = 10 ^ count * digitsValue digits := by
  rw [digitsValue_eq, Nat.ofDigitChars_append, Nat.ofDigitChars_replicate_zero]
  rfl

/-- A number other than zero is not written with a zero first. -/
theorem exists_first_digit {n : Nat} (nonzero : n ≠ 0) :
    ∃ first rest, Nat.toDigits 10 n = first :: rest ∧ first ≠ '0' := by
  induction n using Nat.strongRecOn with
  | ind n ih =>
    rw [Nat.toDigits_eq_if (by decide)]
    split
    · rename_i small
      have digits : ∀ n < 10, n ≠ 0 → n.digitChar ≠ '0' := by decide
      exact ⟨_, [], rfl, digits n small nonzero⟩
    · obtain ⟨first, rest, same, notZero⟩ := ih (n / 10) (by omega) (by omega)
      exact ⟨first, rest ++ [(n % 10).digitChar], by rw [same]; rfl, notZero⟩

/-! ## Ends -/

/-- Whether a text begins as what follows a value does, if it begins at all. -/
def Ends : List Char → Prop
  | [] => True
  | c :: _ => isBlank c = true ∨ c = ',' ∨ c = ']' ∨ c = '\x7d'

/-- Whether digits stop before a text. -/
def StopsDigits : List Char → Prop
  | [] => True
  | c :: _ => isDigit c = false

theorem takeWhile_digits {digits rest : List Char} (all : AllDigits digits)
    (stops : StopsDigits rest) : (digits ++ rest).takeWhile isDigit = digits := by
  rw [List.takeWhile_append_of_pos all]
  cases rest with
  | nil => exact List.append_nil _
  | cons c rest => rw [List.takeWhile_cons_of_neg (Bool.not_eq_true _ ▸ stops), List.append_nil]

theorem dropWhile_digits {digits rest : List Char} (all : AllDigits digits)
    (stops : StopsDigits rest) : (digits ++ rest).dropWhile isDigit = rest := by
  rw [List.dropWhile_append_of_pos all]
  cases rest with
  | nil => rfl
  | cons c rest => exact List.dropWhile_cons_of_neg (Bool.not_eq_true _ ▸ stops)

theorem Ends.isBlank_or {c : Char} {rest : List Char} (ends : Ends (c :: rest)) :
    c = ' ' ∨ c = '\t' ∨ c = '\n' ∨ c = '\r' ∨ c = ',' ∨ c = ']' ∨ c = '\x7d' := by
  rcases ends with blank | others
  · simp only [isBlank, Bool.or_eq_true, beq_iff_eq] at blank
    tauto
  · tauto

theorem Ends.stopsDigits {rest : List Char} (ends : Ends rest) : StopsDigits rest := by
  cases rest with
  | nil => trivial
  | cons c rest =>
    rcases ends.isBlank_or with rfl | rfl | rfl | rfl | rfl | rfl | rfl <;> rfl

theorem Ends.fractionDigits_eq {rest : List Char} (ends : Ends rest) : fractionDigits rest = none := by
  cases rest with
  | nil => rfl
  | cons c rest =>
    rcases ends.isBlank_or with rfl | rfl | rfl | rfl | rfl | rfl | rfl <;> rfl

theorem Ends.exponentDigits_eq {rest : List Char} (ends : Ends rest) : exponentDigits rest = none := by
  cases rest with
  | nil => rfl
  | cons c rest =>
    rcases ends.isBlank_or with rfl | rfl | rfl | rfl | rfl | rfl | rfl <;> rfl

/-! ## Numerals -/

structure Exponent where
  mark : Char
  sign : List Char
  digits : List Char

structure Exponent.Valid (exponent : Exponent) : Prop where
  mark : exponent.mark = 'e' ∨ exponent.mark = 'E'
  sign : exponent.sign = [] ∨ exponent.sign = ['+'] ∨ exponent.sign = ['-']
  nonempty : exponent.digits ≠ []
  digits : AllDigits exponent.digits

def Exponent.text (exponent : Exponent) : List Char :=
  exponent.mark :: (exponent.sign ++ exponent.digits)

def Exponent.value (exponent : Exponent) : Int :=
  if exponent.sign = ['-'] then -(digitsValue exponent.digits : Int)
  else digitsValue exponent.digits

structure Numeral where
  negative : Bool
  whole : List Char
  /-- No digits if there is no fraction. -/
  fraction : List Char
  exponent : Option Exponent

namespace Numeral

structure Valid (numeral : Numeral) : Prop where
  /-- Only zero itself begins with zero. -/
  leading : numeral.whole = ['0'] ∨ ∃ first rest, numeral.whole = first :: rest ∧ first ≠ '0'
  whole : AllDigits numeral.whole
  fraction : AllDigits numeral.fraction
  exponent : ∀ exponent, numeral.exponent = some exponent → exponent.Valid

def fractionText (numeral : Numeral) : List Char :=
  if numeral.fraction.isEmpty then [] else '.' :: numeral.fraction

def exponentText (numeral : Numeral) : List Char :=
  (numeral.exponent.map Exponent.text).getD []

/-- What follows the integer digits. -/
def tail (numeral : Numeral) : List Char := numeral.fractionText ++ numeral.exponentText

def text (numeral : Numeral) : List Char :=
  (if numeral.negative then ['-'] else []) ++ numeral.whole ++ numeral.tail

def isInteger (numeral : Numeral) : Bool := numeral.fraction.isEmpty && numeral.exponent.isNone

/-- The power of ten of the last integer digit. -/
def power (numeral : Numeral) : Int := (numeral.exponent.map Exponent.value).getD 0

/-- The number that a numeral denotes: an integer, or the nearest double. -/
def value (numeral : Numeral) : Json :=
  if numeral.isInteger then
    .int (if numeral.negative then -(digitsValue numeral.whole : Int) else digitsValue numeral.whole)
  else
    .double (.ofDecimal numeral.negative (digitsValue (numeral.whole ++ numeral.fraction))
      (numeral.power - numeral.fraction.length))

/-- Whether a numeral is an integer of more digits than are read. -/
def isTooLong (numeral : Numeral) : Bool :=
  numeral.isInteger && decide (digitLimit < numeral.whole.length)

/-! ## Reading -/

variable {numeral : Numeral} {rest : List Char}

theorem exponentDigits_text {exponent : Exponent} (valid : exponent.Valid) (ends : Ends rest) :
    exponentDigits (exponent.text ++ rest) =
      some (decide (exponent.sign = ['-']), exponent.digits, rest) := by
  obtain ⟨mark, sign, digits⟩ := exponent
  obtain ⟨marked, signed, nonempty, all⟩ := valid
  dsimp only at marked signed nonempty all
  have isMark : (mark = 'e' || mark = 'E') = true := by simpa using marked
  have take := takeWhile_digits all ends.stopsDigits
  have drop := dropWhile_digits all ends.stopsDigits
  have some_ : digits.isEmpty = false := by simpa using nonempty
  unfold exponentDigits Exponent.text
  rcases signed with rfl | rfl | rfl
  · obtain ⟨first, others, rfl⟩ := List.exists_cons_of_ne_nil nonempty
    have digit := all first List.mem_cons_self
    simp only [List.nil_append, List.cons_append] at take drop ⊢
    have sign : first ≠ '-' ∧ first ≠ '+' := by
      constructor <;> rintro rfl <;> cases digit
    rw [if_pos isMark]
    split
    · rename_i same
      exact absurd (List.cons.inj same).1 sign.1
    · rename_i same
      exact absurd (List.cons.inj same).1 sign.2
    · simp only [take, drop, some_]
      rfl
  · simp only [List.cons_append, List.nil_append, isMark, if_true, take, drop, some_]
    rfl
  · simp only [List.cons_append, List.nil_append, isMark, if_true, take, drop, some_]
    rfl

theorem exponentDigits_exponentText (valid : numeral.Valid) (ends : Ends rest) :
    exponentDigits (numeral.exponentText ++ rest) =
      numeral.exponent.map fun exponent => (decide (exponent.sign = ['-']), exponent.digits, rest) := by
  unfold exponentText
  cases given : numeral.exponent with
  | none => exact ends.exponentDigits_eq
  | some exponent => exact exponentDigits_text (valid.exponent exponent given) ends

/-- What follows the fraction has no digits and no point first. -/
theorem exponentText_stops (valid : numeral.Valid) (ends : Ends rest) :
    StopsDigits (numeral.exponentText ++ rest) ∧
      fractionDigits (numeral.exponentText ++ rest) = none := by
  unfold exponentText
  cases given : numeral.exponent with
  | none => exact ⟨ends.stopsDigits, ends.fractionDigits_eq⟩
  | some exponent =>
    obtain ⟨mark, sign, digits⟩ := exponent
    rcases (valid.exponent _ given).mark with rfl | rfl <;> exact ⟨rfl, rfl⟩

theorem fractionDigits_tail (valid : numeral.Valid) (ends : Ends rest) :
    fractionDigits (numeral.tail ++ rest) =
      if numeral.fraction.isEmpty then none
      else some (numeral.fraction, numeral.exponentText ++ rest) := by
  obtain ⟨stops, none_⟩ := exponentText_stops valid ends
  unfold tail fractionText
  rw [List.append_assoc]
  cases given : numeral.fraction with
  | nil => exact none_
  | cons first others =>
    have all : AllDigits (first :: others) := given ▸ valid.fraction
    have digit := all first List.mem_cons_self
    have take := takeWhile_digits all stops
    have drop := dropWhile_digits all stops
    simp only [List.isEmpty_cons, Bool.false_eq_true, if_false, List.cons_append, fractionDigits,
      digit, if_true] at take drop ⊢
    rw [take, drop]

theorem tail_stops (valid : numeral.Valid) (ends : Ends rest) :
    StopsDigits (numeral.tail ++ rest) := by
  unfold tail fractionText
  split
  · exact (exponentText_stops valid ends).1
  · rfl

theorem readNumberTail_tail (valid : numeral.Valid) (ends : Ends rest) (start : Nat) :
    readNumberTail numeral.negative numeral.whole start (numeral.tail ++ rest) =
      if numeral.isTooLong then .error ⟨.tooManyDigits numeral.whole.length, start⟩
      else .ok (numeral.value, rest) := by
  have exponent := exponentDigits_exponentText valid ends
  have fraction := fractionDigits_tail valid ends
  unfold readNumberTail
  cases digits : numeral.fraction with
  | nil =>
    have noFraction : numeral.tail = numeral.exponentText := by simp [tail, fractionText, digits]
    rw [digits, noFraction] at fraction
    simp only [fraction, noFraction, exponent, List.isEmpty_nil, if_true]
    cases given : numeral.exponent with
    | some exponent => simp [isTooLong, isInteger, value, power, Exponent.value, given, digits]
    | none => simp [isTooLong, isInteger, value, exponentText, given, digits]
  | cons first others =>
    simp only [fraction, digits, exponent, List.isEmpty_cons, Bool.false_eq_true, if_false]
    cases given : numeral.exponent with
    | some exponent => simp [isTooLong, isInteger, value, power, Exponent.value, given, digits]
    | none => simp [isTooLong, isInteger, value, power, exponentText, given, digits]

theorem readNumber_text (valid : numeral.Valid) (ends : Ends rest) :
    readNumber (numeral.text ++ rest) =
      if numeral.isTooLong then
        .error ⟨.tooManyDigits numeral.whole.length, (numeral.text ++ rest).length⟩
      else .ok (numeral.value, rest) := by
  rw [← readNumberTail_tail valid ends]
  have stops := tail_stops valid ends
  have take := takeWhile_digits valid.whole stops
  have drop := dropWhile_digits valid.whole stops
  unfold text readNumber
  rcases valid.leading with zero | ⟨first, others, digits, notZero⟩
  · cases signed : numeral.negative <;> simp [zero]
  · have digit := valid.whole first (digits ▸ List.mem_cons_self)
    have sign : first ≠ '-' := by
      rintro rfl
      cases digit
    rw [digits] at take drop
    cases signed : numeral.negative with
    | true => simp [digits, digit] at take drop ⊢; rw [take, drop]
    | false => simp [digits, sign, digit] at take drop ⊢; rw [take, drop]

/-! ## Printing -/

theorem leading_toDigits (n : Nat) : Nat.toDigits 10 n = ['0'] ∨
    ∃ first rest, Nat.toDigits 10 n = first :: rest ∧ first ≠ '0' := by
  by_cases zero : n = 0
  · exact .inl (zero ▸ Nat.toDigits_zero 10)
  · exact .inr (exists_first_digit zero)

/-- The numeral of an integer. -/
def ofInt (value : Int) : Numeral := ⟨decide (value < 0), Nat.toDigits 10 value.natAbs, [], none⟩

theorem valid_ofInt (value : Int) : (ofInt value).Valid where
  leading := leading_toDigits _
  whole := allDigits_toDigits _
  fraction _ none := absurd none List.not_mem_nil
  exponent _ none := nomatch none

theorem text_ofInt (value : Int) : (ofInt value).text = (toString value).toList := by
  cases value with
  | ofNat n =>
    show _ = (toString n).toList
    simp [ofInt, text, tail, fractionText, exponentText]
  | negSucc n =>
    show _ = ("-" ++ toString (n + 1)).toList
    simp [ofInt, text, tail, fractionText, exponentText]

theorem value_ofInt (number : Int) : (ofInt number).value = .int number := by
  show Json.int _ = _
  congr 1
  simp only [ofInt, digitsValue_toDigits, decide_eq_true_eq]
  omega

theorem isTooLong_ofInt (value : Int) :
    (ofInt value).isTooLong = false ↔ value.natAbs < 10 ^ digitLimit := by
  rw [← Nat.length_toDigits_le_iff (by decide) (by decide), ← Nat.not_lt]
  exact decide_eq_false_iff_not

/-- A numeral with a fraction or an exponent denotes the double of the decimal that it is, with zeros
at its end or without. -/
theorem value_eq_double (notInteger : numeral.isInteger = false) {digits : Nat} {exponent : Int}
    (zeros : Nat) (sameDigits : digitsValue (numeral.whole ++ numeral.fraction) = 10 ^ zeros * digits)
    (samePower : numeral.power - numeral.fraction.length + zeros = exponent) :
    numeral.value = .double (.ofDecimal numeral.negative digits exponent) := by
  rw [value, notInteger, sameDigits, Double.ofDecimal_shift_pow, samePower]
  rfl

/-- Whether a numeral without its sign is a given text and denotes a given decimal. -/
structure Writes (numeral : Numeral) (magnitude : List Char) (decimal : Decimal) : Prop where
  valid : numeral.Valid
  text : numeral.whole ++ numeral.tail = magnitude
  value : numeral.value = .double (.ofDecimal numeral.negative decimal.digits decimal.exponent)

section Decimal

variable {digits : Nat} {exponent power : Int}
  (isPower : power = exponent + (Nat.toDigits 10 digits).length - 1)

include isPower

/-- Below one all digits are in the fraction. -/
theorem exists_writes_below_one (negative : Bool) (below : power < 0) :
    ∃ numeral : Numeral, numeral.negative = negative ∧
      numeral.Writes (doubleLayout.positional (Nat.toDigits 10 digits) power) ⟨digits, exponent⟩ := by
  have nonempty : Nat.toDigits 10 digits ≠ [] := Nat.toDigits_ne_nil
  let zeros := List.replicate (power.natAbs - 1) '0'
  refine ⟨⟨negative, ['0'], zeros ++ Nat.toDigits 10 digits, none⟩, rfl, ?_, ?_, ?_⟩
  · exact ⟨.inl rfl, allDigits_zeros 1, (allDigits_zeros _).append (allDigits_toDigits _), nofun⟩
  · simp [tail, fractionText, exponentText, DecimalLayout.positional, below, nonempty, zeros]
  · refine value_eq_double (by simp [isInteger, nonempty]) 0 ?_ ?_
    · show digitsValue (List.replicate 1 '0' ++ (zeros ++ _)) = _
      rw [digitsValue_zeros_append, digitsValue_zeros_append, digitsValue_toDigits, Nat.pow_zero,
        Nat.one_mul]
    · simp only [Numeral.power, Option.map_none, Option.getD_none, List.length_append,
        List.length_replicate, zeros]
      omega

variable (nonzero : digits ≠ 0)

include nonzero

/-- Digits that all stand before the point may be followed by zeros, and get a zero as fraction. -/
theorem exists_writes_whole (negative : Bool) (above : ¬ power < 0)
    (whole : (Nat.toDigits 10 digits).length ≤ power.toNat + 1) :
    ∃ numeral : Numeral, numeral.negative = negative ∧
      numeral.Writes (doubleLayout.positional (Nat.toDigits 10 digits) power) ⟨digits, exponent⟩ := by
  obtain ⟨first, rest, isFirst, notZero⟩ := exists_first_digit nonzero
  let zeros := power.toNat + 1 - (Nat.toDigits 10 digits).length
  refine ⟨⟨negative, Nat.toDigits 10 digits ++ List.replicate zeros '0', ['0'], none⟩, rfl, ?_, ?_, ?_⟩
  · exact ⟨.inr ⟨first, rest ++ List.replicate zeros '0', by rw [isFirst]; rfl, notZero⟩,
      (allDigits_toDigits _).append (allDigits_zeros _), allDigits_zeros 1, nofun⟩
  · simp [tail, fractionText, exponentText, DecimalLayout.positional, above, doubleLayout,
      List.drop_eq_nil_of_le whole, List.take_of_length_le whole, zeros]
  · refine value_eq_double rfl (zeros + 1) ?_ ?_
    · show digitsValue ((_ ++ List.replicate zeros '0') ++ List.replicate 1 '0') = _
      rw [List.append_assoc, List.replicate_append_replicate, digitsValue_append_zeros,
        digitsValue_toDigits]
    · simp only [Numeral.power, Option.map_none, Option.getD_none, List.length_singleton, zeros]
      omega

/-- The point may stand among the digits. -/
theorem exists_writes_split (negative : Bool) (above : ¬ power < 0)
    (split : power.toNat + 1 < (Nat.toDigits 10 digits).length) :
    ∃ numeral : Numeral, numeral.negative = negative ∧
      numeral.Writes (doubleLayout.positional (Nat.toDigits 10 digits) power) ⟨digits, exponent⟩ := by
  obtain ⟨first, rest, isFirst, notZero⟩ := exists_first_digit nonzero
  have all := allDigits_toDigits digits
  have fraction : (Nat.toDigits 10 digits).drop (power.toNat + 1) ≠ [] := by
    simpa [List.drop_eq_nil_iff] using split
  refine ⟨⟨negative, (Nat.toDigits 10 digits).take (power.toNat + 1),
    (Nat.toDigits 10 digits).drop (power.toNat + 1), none⟩, rfl, ?_, ?_, ?_⟩
  · exact ⟨.inr ⟨first, rest.take power.toNat, by rw [isFirst]; rfl, notZero⟩,
      fun c among => all c (List.mem_of_mem_take among),
      fun c among => all c (List.mem_of_mem_drop among), nofun⟩
  · obtain ⟨next, others, given⟩ := List.exists_cons_of_ne_nil fraction
    have noZeros : power.toNat + 1 - (Nat.toDigits 10 digits).length = 0 := by omega
    simp [tail, fractionText, exponentText, DecimalLayout.positional, above, given, noZeros]
  · refine value_eq_double (by simpa [isInteger] using split) 0 ?_ ?_
    · simp [digitsValue_toDigits]
    · simp only [Numeral.power, Option.map_none, Option.getD_none, List.length_drop]
      omega

theorem exists_writes_scientific (negative : Bool) :
    ∃ numeral : Numeral, numeral.negative = negative ∧
      numeral.Writes (doubleLayout.scientific (Nat.toDigits 10 digits) power) ⟨digits, exponent⟩ := by
  obtain ⟨first, rest, isFirst, notZero⟩ := exists_first_digit nonzero
  have all : AllDigits (first :: rest) := isFirst ▸ allDigits_toDigits digits
  let sign : List Char := [if power < 0 then '-' else '+']
  let width := doubleLayout.exponentWidth - (Nat.toDigits 10 power.natAbs).length
  let exponentDigits := List.replicate width '0' ++ Nat.toDigits 10 power.natAbs
  have exponentValue : Exponent.value ⟨'e', sign, exponentDigits⟩ = power := by
    simp only [Exponent.value, sign, exponentDigits, digitsValue_zeros_append, digitsValue_toDigits]
    by_cases below : power < 0
    · rw [if_pos below, if_pos rfl]
      omega
    · rw [if_neg below, if_neg (by decide)]
      omega
  refine ⟨⟨negative, [first], rest, some ⟨'e', sign, exponentDigits⟩⟩, rfl, ?_, ?_, ?_⟩
  · refine ⟨.inr ⟨first, [], rfl, notZero⟩, fun c among => all c ?_,
      fun c among => all c (List.mem_cons_of_mem _ among), ?_⟩
    · rw [List.mem_singleton.mp among]
      exact List.mem_cons_self
    · rintro _ ⟨⟩
      refine ⟨.inl rfl, .inr ?_, List.append_ne_nil_of_right_ne_nil _ Nat.toDigits_ne_nil,
        (allDigits_zeros _).append (allDigits_toDigits _)⟩
      by_cases below : power < 0 <;> simp [sign, below]
  · rw [isFirst]
    cases rest with
    | nil => simp [tail, fractionText, exponentText, Exponent.text, DecimalLayout.scientific,
        DecimalLayout.padLeft, sign, exponentDigits, width]
    | cons second rest => simp [tail, fractionText, exponentText, Exponent.text,
        DecimalLayout.scientific, DecimalLayout.padLeft, sign, exponentDigits, width]
  · refine value_eq_double (by simp [isInteger]) 0 ?_ ?_
    · show digitsValue (first :: rest) = _
      rw [← isFirst, digitsValue_toDigits, Nat.pow_zero, Nat.one_mul]
    · rw [isFirst, List.length_cons] at isPower
      simp only [Numeral.power, Option.map_some, Option.getD_some, exponentValue]
      omega

end Decimal

/-- The text of a decimal is a numeral that denotes it. -/
theorem exists_writes_magnitude (negative : Bool) (decimal : Decimal) :
    ∃ numeral : Numeral, numeral.negative = negative ∧
      numeral.Writes (doubleLayout.magnitude decimal) decimal := by
  obtain ⟨digits, exponent⟩ := decimal
  unfold DecimalLayout.magnitude
  simp only [Nat.toString_eq_ofList_toDigits, String.toList_ofList]
  by_cases zero : digits = 0
  · refine ⟨⟨negative, ['0'], ['0'], none⟩, rfl,
      ⟨.inl rfl, allDigits_zeros 1, allDigits_zeros 1, nofun⟩, ?_, ?_⟩
    · rw [if_pos zero]
      rfl
    · rw [zero, Double.ofDecimal_zero]
      rfl
  rw [if_neg zero]
  split
  · by_cases below : exponent + (Nat.toDigits 10 digits).length - 1 < 0
    · exact exists_writes_below_one rfl negative below
    · rcases Nat.lt_or_ge ((exponent + (Nat.toDigits 10 digits).length - 1).toNat + 1)
        (Nat.toDigits 10 digits).length with split | whole
      · exact exists_writes_split rfl zero negative below split
      · exact exists_writes_whole rfl zero negative below whole
  · exact exists_writes_scientific rfl zero negative

/-- A finite double is printed as a numeral that denotes it. -/
theorem exists_numeral_double {number : Double} (finite : number.IsFinite) :
    ∃ numeral : Numeral, numeral.Valid ∧ numeral.text = (number.toText doubleLayout).toList ∧
      (number.IsNormal → numeral.value = .double number) ∧ numeral.isTooLong = false := by
  obtain ⟨decimal, shortest⟩ := Double.exists_shortest_iff.mpr finite
  obtain ⟨numeral, sign, writes⟩ := exists_writes_magnitude number.isNegative decimal
  have value := writes.value
  refine ⟨numeral, writes.valid, ?_, fun normal => ?_, ?_⟩
  · rw [text, List.append_assoc, writes.text, sign, Double.toText, shortest]
    cases number.isNegative <;> simp
  · rw [value, sign, Double.ofDecimal_shortest normal shortest]
  · rw [isTooLong, Bool.and_eq_false_iff]
    refine .inl (Bool.eq_false_iff.mpr fun isInteger => ?_)
    rw [Numeral.value, if_pos isInteger] at value
    cases value

end Numeral

end Mson.Json
