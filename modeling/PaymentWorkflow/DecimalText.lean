import Mathlib.Data.List.TakeWhile
import PaymentWorkflow.TextCore

/-! Texts made of digits, a point and an exponent, and the blanks around them. -/

namespace PaymentWorkflow

def pointed : List Char → List Char
  | [] => []
  | fraction => '.' :: fraction

/-- What follows the digits of a decimal, and the power of ten it stands for. -/
inductive ReadsPower : List Char → Int → Prop
  | none : ReadsPower [] 0
  | exponent {letter : Char} {rest : List Char} {power : Int} (marked : letter = 'e' ∨ letter = 'E')
      (read : signedChars rest = some power) : ReadsPower (letter :: rest) power

theorem toLower_digit {char : Char} (digit : char.isDigit = true) : char.toLower = char := by
  have range := Char.isDigit_iff_toNat.mp digit
  have top : '9'.toNat = 57 := rfl
  unfold Char.toLower
  refine dif_neg ?_
  rintro ⟨upper, _⟩
  have bound : 65 ≤ char.toNat := UInt32.le_iff_toNat_le.mp upper
  omega

theorem digit_not_space {char : Char} (digit : char.isDigit = true) : isSpace char = false := by
  have range := Char.isDigit_iff_toNat.mp digit
  have bottom : '0'.toNat = 48 := rfl
  have space : char ≠ ' ' := by
    rintro rfl
    cases digit
  simp only [isSpace, space, decide_false, Bool.false_or, Bool.and_eq_false_iff,
    decide_eq_false_iff_not]
  omega

def isNonzero (char : Char) : Bool := char.isDigit && char ≠ '0'

theorem isNonzero_iff {char : Char} : isNonzero char = true ↔ char.isDigit = true ∧ char ≠ '0' := by
  simp [isNonzero]

theorem toDigits_opens {number : Nat} (positive : 0 < number) :
    ∃ first rest, Nat.toDigits 10 number = first :: rest ∧ isNonzero first = true := by
  induction number using Nat.strong_induction_on with
  | _ number ih =>
      by_cases small : number < 10
      · refine ⟨number.digitChar, [], Nat.toDigits_of_lt_base small, ?_⟩
        rw [isNonzero_iff, Nat.isDigit_digitChar, decide_eq_true_eq, ne_eq, Nat.digitChar_eq_zero]
        omega
      · obtain ⟨first, rest, opens, nonzero⟩ := ih (number / 10) (by omega) (by omega)
        refine ⟨first, rest ++ [(number % 10).digitChar], ?_, nonzero⟩
        rw [Nat.toDigits_of_base_le (by decide) (by omega), opens, List.cons_append]

/-! Signed integers. -/

theorem digitsValue_digits {chars : List Char} (filled : chars ≠ [])
    (digits : ∀ char ∈ chars, char.isDigit = true) :
    digitsValue chars = some (Nat.ofDigitChars 10 chars 0) := by
  rw [digitsValue, if_pos ⟨filled, List.all_eq_true.mpr digits⟩]

theorem digitsValue_some {chars : List Char} {value : Nat} (read : digitsValue chars = some value) :
    chars ≠ [] ∧ ∀ char ∈ chars, char.isDigit = true := by
  unfold digitsValue at read
  split at read
  · rename_i digits
    exact ⟨digits.1, List.all_eq_true.mp digits.2⟩
  · cases read

theorem signedChars_minus (rest : List Char) :
    signedChars ('-' :: rest) = (digitsValue rest).map fun (value : Nat) => -(value : Int) := by
  rw [signedChars]
  cases digitsValue rest <;> rfl

theorem signedChars_plain {first : Char} {rest : List Char} (digit : first.isDigit = true) :
    signedChars (first :: rest) =
      (digitsValue (first :: rest)).map fun (value : Nat) => (value : Int) := by
  unfold signedChars
  split
  · rename_i same
    rw [(List.cons.inj same).1] at digit
    cases digit
  · rename_i same
    rw [(List.cons.inj same).1] at digit
    cases digit
  · cases digitsValue (first :: rest) <;> rfl

/-! Blanks. -/

section Blanks

variable {blank : Char → Bool} {chars spaces : List Char}

theorem dropWhile_solid (solid : ∀ char ∈ chars, blank char = false) :
    chars.dropWhile blank = chars := by
  rw [List.dropWhile_eq_self_iff]
  intro filled space
  rw [solid _ (List.getElem_mem filled)] at space
  cases space

theorem strip_solid (filled : chars ≠ []) (solid : ∀ char ∈ chars, blank char = false)
    (spacing : ∀ char ∈ spaces, blank char = true) :
    (((chars ++ spaces).dropWhile blank).reverse.dropWhile blank).reverse = chars := by
  have opened : (chars ++ spaces).dropWhile blank = chars ++ spaces := by
    rw [List.dropWhile_append, dropWhile_solid solid, if_neg (by simpa using filled)]
  rw [opened, List.reverse_append, List.dropWhile_append_of_pos
    (fun char member => spacing char (List.mem_reverse.mp member)),
    dropWhile_solid (fun char member => solid char (List.mem_reverse.mp member)),
    List.reverse_reverse]

end Blanks

/-! Digits, and what ends them. -/

theorem takeWhile_ended {holds : Char → Bool} {whole tail : List Char}
    (all : ∀ char ∈ whole, holds char = true) (ends : tail.head?.all fun char => !holds char) :
    (whole ++ tail).takeWhile holds = whole ∧ (whole ++ tail).dropWhile holds = tail := by
  rw [List.takeWhile_append_of_pos all, List.dropWhile_append_of_pos all]
  cases tail with
  | nil => simp
  | cons char later =>
      have other : holds char = false := by simpa using ends
      simp [other]

theorem decimalParts_pointed {whole fraction tail : List Char} (filled : whole ≠ [])
    (wholeDigits : ∀ char ∈ whole, char.isDigit = true)
    (fractionDigits : ∀ char ∈ fraction, char.isDigit = true) {power : Int}
    (reads : ReadsPower tail power) :
    decimalParts (whole ++ (pointed fraction ++ tail)) = some (whole, fraction, power) := by
  have notDigit : tail.head?.all fun char => !char.isDigit := by
    cases reads with
    | none => rfl
    | exponent marked => rcases marked with rfl | rfl <;> rfl
  have ends : (pointed fraction ++ tail).head?.all fun char => !char.isDigit := by
    cases fraction with
    | nil => exact notDigit
    | cons => rfl
  obtain ⟨before, behind⟩ := takeWhile_ended wholeDigits ends
  simp only [decimalParts, before, behind]
  cases fraction with
  | nil =>
      cases reads with
      | none => simp [pointed, filled]
      | exponent marked read =>
          rcases marked with rfl | rfl <;> simp [pointed, filled, read]
  | cons first rest =>
      obtain ⟨taken, dropped⟩ := takeWhile_ended fractionDigits notDigit
      simp only [List.cons_append] at taken dropped
      simp only [pointed, List.cons_append, taken, dropped, filled, false_and, if_false]
      cases reads with
      | none => rfl
      | exponent marked read => rcases marked with rfl | rfl <;> simp [read]

end PaymentWorkflow
