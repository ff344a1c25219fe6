import Mathlib.Data.Rat.Cast.Defs
import Mathlib.Tactic.IntervalCases
import Mathlib.Tactic.Ring
import Mathlib.Tactic.FieldSimp
import PaymentWorkflow.DecimalText
import PaymentWorkflow.PaymentCore
import PaymentWorkflow.ValidatorCore

/-! The amounts `payment.request` admits: their pattern, what they denote, and the column. -/

namespace PaymentWorkflow

def isCents : List Char → Bool
  | ['0', '.', '0', last] => isNonzero last
  | _ => false

def isTenths : List Char → Bool
  | ['0', '.', first] => isNonzero first
  | ['0', '.', first, second] => isNonzero first && second.isDigit
  | _ => false

def isFraction : List Char → Bool
  | [] => true
  | ['.', first] => first.isDigit
  | ['.', first, second] => first.isDigit && second.isDigit
  | _ => false

def isWhole : List Char → Bool
  | [] => false
  | first :: rest => isNonzero first && (rest.takeWhile Char.isDigit).length ≤ 15 &&
      isFraction (rest.dropWhile Char.isDigit)

def isAmountChars (chars : List Char) : Bool := isCents chars || isTenths chars || isWhole chars

/-- The pattern of `amount` in the schemas of `payment.request`. -/
def isAmount : String → Bool := atEnd isAmountChars

def wholePart (chars : List Char) : List Char := chars.takeWhile Char.isDigit

def fractionPart (chars : List Char) : List Char :=
  ((chars.dropWhile Char.isDigit).drop 1).takeWhile Char.isDigit

def denoted (content : String) : ℚ :=
  (Nat.ofDigitChars 10 (wholePart content.toList ++ fractionPart content.toList) 0 : ℚ) /
    10 ^ (fractionPart content.toList).length

def held (hundredths : Int) : ℚ := hundredths / 100

structure Amount (whole fraction : List Char) : Prop where
  filled : whole ≠ []
  wholeDigits : ∀ char ∈ whole, char.isDigit = true
  fractionDigits : ∀ char ∈ fraction, char.isDigit = true
  short : whole.length ≤ 16
  cents : fraction.length ≤ 2
  positive : 0 < Nat.ofDigitChars 10 (whole ++ fraction) 0

/-! Digits. -/

theorem ofDigitChars_pos {chars : List Char} (digits : ∀ char ∈ chars, char.isDigit = true)
    {char : Char} (member : char ∈ chars) (nonzero : isNonzero char = true) :
    0 < Nat.ofDigitChars 10 chars 0 := by
  induction chars with
  | nil => cases member
  | cons first rest ih =>
      rw [Nat.ofDigitChars_cons, Nat.ofDigitChars_eq_ofDigitChars_zero]
      rcases List.mem_cons.mp member with rfl | later
      · obtain ⟨digit, other⟩ := isNonzero_iff.mp nonzero
        have range := Char.isDigit_iff_toNat.mp digit
        have apart : char.toNat ≠ '0'.toNat := fun same => other (Char.toNat_inj.mp same)
        have bottom : '0'.toNat = 48 := rfl
        have value : 0 < 10 * 0 + (char.toNat - '0'.toNat) := by omega
        exact Nat.add_pos_left (Nat.mul_pos (Nat.pow_pos (by decide)) value) _
      · exact Nat.add_pos_right _
          (ih (fun other inside => digits other (List.mem_cons_of_mem _ inside)) later)

/-! Reading an amount. -/

theorem isFraction_pointed {chars : List Char} (matched : isFraction chars = true) :
    ∃ fraction, chars = pointed fraction ∧ (∀ char ∈ fraction, char.isDigit = true) ∧
      fraction.length ≤ 2 := by
  unfold isFraction at matched
  split at matched
  · exact ⟨[], rfl, by simp, by decide⟩
  · rename_i first
    exact ⟨[first], rfl, by simpa using matched, by simp⟩
  · rename_i first second
    exact ⟨[first, second], rfl, by simpa using matched, by simp⟩
  · cases matched

theorem isAmountChars_parts {chars : List Char} (matched : isAmountChars chars = true) :
    ∃ whole fraction, chars = whole ++ pointed fraction ∧ Amount whole fraction := by
  simp only [isAmountChars, Bool.or_eq_true] at matched
  rcases matched with (cents | tenths) | whole
  · unfold isCents at cents
    split at cents
    · rename_i last
      have digit := (isNonzero_iff.mp cents).1
      have digits : ∀ char ∈ ['0', '0', last], char.isDigit = true := by simpa using digit
      exact ⟨['0'], ['0', last], rfl, by simp, by simp, by simpa using digit, by simp,
        by simp, ofDigitChars_pos digits (by simp) cents⟩
    · cases cents
  · unfold isTenths at tenths
    split at tenths
    · rename_i first
      have digit := (isNonzero_iff.mp tenths).1
      have digits : ∀ char ∈ ['0', first], char.isDigit = true := by simpa using digit
      exact ⟨['0'], [first], rfl, by simp, by simp, by simpa using digit, by simp, by simp,
        ofDigitChars_pos digits (by simp) tenths⟩
    · rename_i first second
      rw [Bool.and_eq_true] at tenths
      have digit := (isNonzero_iff.mp tenths.1).1
      have digits : ∀ char ∈ ['0', first, second], char.isDigit = true := by
        simpa using ⟨digit, tenths.2⟩
      exact ⟨['0'], [first, second], rfl, by simp, by simp,
        by simpa using ⟨digit, tenths.2⟩, by simp, by simp,
        ofDigitChars_pos digits (by simp) tenths.1⟩
    · cases tenths
  · unfold isWhole at whole
    split at whole
    · cases whole
    · rename_i first rest
      simp only [Bool.and_eq_true, decide_eq_true_eq] at whole
      obtain ⟨⟨nonzero, short⟩, fraction⟩ := whole
      obtain ⟨fraction, behind, fractionDigits, cents⟩ := isFraction_pointed fraction
      have wholeDigits : ∀ char ∈ first :: rest.takeWhile Char.isDigit, char.isDigit = true := by
        intro char member
        rcases List.mem_cons.mp member with rfl | later
        · exact (isNonzero_iff.mp nonzero).1
        · exact List.mem_takeWhile_imp later
      have digits : ∀ char ∈ (first :: rest.takeWhile Char.isDigit) ++ fraction,
          char.isDigit = true := by
        intro char member
        exact (List.mem_append.mp member).elim (wholeDigits char) (fractionDigits char)
      refine ⟨first :: rest.takeWhile Char.isDigit, fraction, ?_, List.cons_ne_nil _ _, wholeDigits,
        fractionDigits, Nat.succ_le_succ short, cents, ofDigitChars_pos digits (by simp) nonzero⟩
      rw [← behind, List.cons_append, List.takeWhile_append_dropWhile]

namespace Amount

variable {whole fraction : List Char} (amount : Amount whole fraction)

include amount

theorem solid : ∀ char ∈ whole ++ pointed fraction, isSpace char = false := by
  intro char member
  rcases List.mem_append.mp member with inside | behind
  · exact digit_not_space (amount.wholeDigits char inside)
  · cases fraction with
    | nil => cases behind
    | cons first rest =>
        rcases List.mem_cons.mp behind with rfl | inside
        · rfl
        · exact digit_not_space (amount.fractionDigits char inside)

theorem decimalParts : decimalParts (whole ++ pointed fraction) = some (whole, fraction, 0) := by
  have parts := decimalParts_pointed amount.filled amount.wholeDigits amount.fractionDigits .none
  rwa [List.append_nil] at parts

end Amount

/-- Two places behind the point are enough, so nothing is rounded. -/
theorem hundredths_exact {number places : Nat} (cents : places ≤ 2) :
    (2 * (number * 10 ^ 2) + 10 ^ places) / (2 * 10 ^ places) = number * 10 ^ (2 - places) := by
  interval_cases places
  all_goals norm_num
  all_goals omega

theorem hundredths_range {number places : Nat} (cents : places ≤ 2) (positive : 0 < number)
    (below : number < 10 ^ (16 + places)) :
    isOperationAmount (number * 10 ^ (2 - places) : Nat) = true := by
  simp only [isOperationAmount, Bool.and_eq_true, decide_eq_true_eq]
  interval_cases places <;> norm_num at below ⊢ <;> omega

theorem held_hundredths {number places : Nat} (cents : places ≤ 2) :
    held (number * 10 ^ (2 - places) : Nat) = (number : ℚ) / 10 ^ places := by
  rw [held, Int.cast_natCast, Nat.cast_mul]
  interval_cases places
  all_goals norm_num
  ring

theorem isAmount_parts {content : String} (matched : isAmount content = true) :
    ∃ whole fraction spaces, content.toList = whole ++ pointed fraction ++ spaces ∧
      Amount whole fraction ∧ (spaces = [] ∨ spaces = ['\n']) := by
  simp only [isAmount, atEnd, Bool.or_eq_true, Bool.and_eq_true, decide_eq_true_eq] at matched
  rcases matched with plain | ⟨newline, before⟩
  · obtain ⟨whole, fraction, text, amount⟩ := isAmountChars_parts plain
    exact ⟨whole, fraction, [], by simpa using text, amount, .inl rfl⟩
  · obtain ⟨whole, fraction, text, amount⟩ := isAmountChars_parts before
    refine ⟨whole, fraction, ['\n'], ?_, amount, .inr rfl⟩
    obtain ⟨front, same⟩ := List.getLast?_eq_some_iff.mp newline
    rw [same, List.dropLast_concat] at text
    rw [same, text]

namespace Amount

variable {content : String} {whole fraction spaces : List Char} (amount : Amount whole fraction)
  (text : content.toList = whole ++ pointed fraction ++ spaces)
  (blank : spaces = [] ∨ spaces = ['\n'])

include amount

theorem trimmed (blank : spaces = [] ∨ spaces = ['\n']) :
    trimmed (whole ++ pointed fraction ++ spaces) = whole ++ pointed fraction := by
  refine strip_solid (by simp [amount.filled]) amount.solid ?_
  rcases blank with rfl | rfl
  · simp
  · simp [isSpace]

theorem opens : ∃ first rest, whole = first :: rest ∧ first.isDigit = true := by
  cases whole with
  | nil => exact absurd rfl amount.filled
  | cons first rest => exact ⟨first, rest, rfl, amount.wholeDigits first List.mem_cons_self⟩

include text

theorem denoted (blank : spaces = [] ∨ spaces = ['\n']) : denoted content =
    (Nat.ofDigitChars 10 (whole ++ fraction) 0 : ℚ) / 10 ^ fraction.length := by
  have ends : (pointed fraction ++ spaces).head?.all fun char => !char.isDigit := by
    rcases blank with rfl | rfl <;> cases fraction <;> simp [pointed]
  obtain ⟨before, behind⟩ := takeWhile_ended amount.wholeDigits ends
  have wholeIs : wholePart content.toList = whole := by
    rw [wholePart, text, List.append_assoc, before]
  have fractionIs : fractionPart content.toList = fraction := by
    rw [fractionPart, text, List.append_assoc, behind]
    cases fraction with
    | nil => rcases blank with rfl | rfl <;> rfl
    | cons first rest =>
        rw [pointed, List.cons_append, List.drop_one, List.tail_cons,
          List.takeWhile_append_of_pos amount.fractionDigits]
        · rcases blank with rfl | rfl <;> simp
        · exact List.cons_ne_nil _ _
  rw [PaymentWorkflow.denoted, wholeIs, fractionIs]

theorem isNaN (blank : spaces = [] ∨ spaces = ['\n']) : isNaN content = false := by
  obtain ⟨first, rest, rfl, digit⟩ := amount.opens
  have lower : first.toLower ≠ 'n' := by
    rw [toLower_digit digit]
    rintro rfl
    cases digit
  rw [PaymentWorkflow.isNaN, text, amount.trimmed blank]
  simp [lower]

theorem castNumeric (blank : spaces = [] ∨ spaces = ['\n']) :
    ∃ hundredths : Int, castNumeric content = some hundredths ∧
      isOperationAmount hundredths = true ∧ held hundredths = PaymentWorkflow.denoted content := by
  obtain ⟨first, rest, opened, digit⟩ := amount.opens
  have minus : first ≠ '-' := by
    rintro rfl
    cases digit
  have plus : first ≠ '+' := by
    rintro rfl
    cases digit
  have head : (whole ++ pointed fraction).head? = some first := by rw [opened]; rfl
  have below : Nat.ofDigitChars 10 (whole ++ fraction) 0 < 10 ^ (16 + fraction.length) := by
    refine Nat.lt_of_lt_of_le (ofDigitChars_lt (whole ++ fraction) ?_) ?_
    · intro char member
      exact (List.mem_append.mp member).elim (amount.wholeDigits char) (amount.fractionDigits char)
    · rw [List.length_append]
      exact Nat.pow_le_pow_right (by decide) (Nat.add_le_add_right amount.short _)
  have range := hundredths_range amount.cents amount.positive below
  refine ⟨_, ?_, range, (held_hundredths amount.cents).trans (amount.denoted text blank).symm⟩
  simp only [isOperationAmount, Bool.and_eq_true, decide_eq_true_eq] at range
  simp only [PaymentWorkflow.castNumeric, text, amount.trimmed blank, head, amount.decimalParts,
    Option.some.injEq, minus, plus, or_self, if_false, Int.toNat_zero, neg_zero, Nat.zero_add,
    Nat.add_zero, hundredths_exact amount.cents]
  rw [if_pos (by omega)]

end Amount

/-- What the cast makes of an amount, which the check of the column admits. -/
theorem castNumeric_amount {content : String} (matched : isAmount content = true) :
    isNaN content = false ∧ ∃ hundredths : Int, castNumeric content = some hundredths ∧
      isOperationAmount hundredths = true ∧ held hundredths = denoted content := by
  obtain ⟨whole, fraction, spaces, text, amount, blank⟩ := isAmount_parts matched
  exact ⟨amount.isNaN text blank, amount.castNumeric text blank⟩

/-! Printing an amount. -/

theorem toList_numericText (magnitude : Nat) : (numericText magnitude).toList =
    Nat.toDigits 10 (magnitude / 100) ++ ['.', (magnitude % 100 / 10).digitChar,
      (magnitude % 10).digitChar] := by
  have units : magnitude % 100 % 10 = magnitude % 10 := by omega
  have digits : (if magnitude % 100 < 10 then ['0'] else []) ++ Nat.toDigits 10 (magnitude % 100) =
      [(magnitude % 100 / 10).digitChar, (magnitude % 10).digitChar] := by
    by_cases small : magnitude % 100 < 10
    · rw [if_pos small, Nat.toDigits_of_lt_base small, Nat.div_eq_of_lt small, ← units,
        Nat.mod_eq_of_lt small]
      rfl
    · rw [if_neg small, Nat.toDigits_of_base_le (by decide) (by omega), units,
        Nat.toDigits_of_lt_base (by omega)]
      rfl
  rw [numericText, if_neg (by omega), Int.natAbs_natCast]
  simp only [String.toList_append, Nat.toList_repr, String.toList_empty, List.nil_append,
    apply_ite String.toList]
  rw [List.append_assoc, List.append_assoc]
  exact congrArg (Nat.toDigits 10 (magnitude / 100) ++ '.' :: ·) digits

section Printed

variable {magnitude : Nat} (inRange : isOperationAmount magnitude = true)

theorem ofDigitChars_printed (magnitude : Nat) : Nat.ofDigitChars 10 (Nat.toDigits 10
    (magnitude / 100) ++ [(magnitude % 100 / 10).digitChar, (magnitude % 10).digitChar]) 0 =
      magnitude := by
  rw [Nat.ofDigitChars_append, Nat.ofDigitChars_ten_toDigits,
    Nat.ofDigitChars_cons_digitChar_of_lt_ten (by omega),
    Nat.ofDigitChars_cons_digitChar_of_lt_ten (by omega), Nat.ofDigitChars_nil]
  omega

include inRange

theorem amount_printed : Amount (Nat.toDigits 10 (magnitude / 100))
    [(magnitude % 100 / 10).digitChar, (magnitude % 10).digitChar] := by
  simp only [isOperationAmount, Bool.and_eq_true, decide_eq_true_eq] at inRange
  refine ⟨Nat.toDigits_ne_nil, ?_, ?_, ?_, Nat.le_refl 2, ?_⟩
  · exact fun char member => Nat.isDigit_of_mem_toDigits (by decide) (by decide) member
  · intro char member
    simp only [List.mem_cons, List.not_mem_nil, or_false] at member
    rcases member with rfl | rfl <;> rw [Nat.isDigit_digitChar, decide_eq_true_eq] <;> omega
  · rw [Nat.length_toDigits_le_iff (by decide) (by decide)]
    omega
  · rw [ofDigitChars_printed]
    omega

theorem isAmountChars_printed : isAmountChars (numericText magnitude).toList = true := by
  have amount := amount_printed inRange
  simp only [isOperationAmount, Bool.and_eq_true, decide_eq_true_eq] at inRange
  rw [toList_numericText, isAmountChars, Bool.or_eq_true, Bool.or_eq_true]
  have tens : (magnitude % 100 / 10).digitChar.isDigit = true :=
    amount.fractionDigits _ List.mem_cons_self
  have ones : (magnitude % 10).digitChar.isDigit = true :=
    amount.fractionDigits _ (List.mem_cons_of_mem _ List.mem_cons_self)
  rcases Nat.eq_zero_or_pos (magnitude / 100) with none | some
  · rw [none, Nat.toDigits_zero]
    by_cases small : magnitude % 100 / 10 = 0
    · refine .inl (.inl ?_)
      rw [small]
      show isNonzero (magnitude % 10).digitChar = true
      rw [isNonzero_iff, ne_eq, Nat.digitChar_eq_zero]
      exact ⟨ones, by omega⟩
    · refine .inl (.inr ?_)
      show (isNonzero (magnitude % 100 / 10).digitChar && (magnitude % 10).digitChar.isDigit) = true
      rw [Bool.and_eq_true, isNonzero_iff, ne_eq, Nat.digitChar_eq_zero]
      exact ⟨⟨tens, small⟩, ones⟩
  · right
    obtain ⟨first, rest, opens, nonzero⟩ := toDigits_opens some
    have short := amount.short
    have restDigits : ∀ char ∈ rest, char.isDigit = true := fun char member =>
      amount.wholeDigits char (opens ▸ List.mem_cons_of_mem _ member)
    rw [opens, List.length_cons] at short
    rw [opens, List.cons_append, isWhole, List.takeWhile_append_of_pos restDigits,
      List.dropWhile_append_of_pos restDigits]
    simp only [List.takeWhile_cons, List.dropWhile_cons, show '.'.isDigit = false from rfl,
      Bool.false_eq_true, if_false, List.append_nil, isFraction, nonzero, tens, ones,
      Bool.true_and, Bool.and_true, decide_eq_true_eq]
    omega

end Printed

/-- What the column holds is printed as an amount again, and denotes it. -/
theorem numericText_amount {hundredths : Int} (inRange : isOperationAmount hundredths = true) :
    isAmount (numericText hundredths) = true ∧ denoted (numericText hundredths) = held hundredths := by
  have positive : 0 ≤ hundredths := by
    simp only [isOperationAmount, Bool.and_eq_true, decide_eq_true_eq] at inRange
    omega
  obtain ⟨magnitude, rfl⟩ := Int.eq_ofNat_of_zero_le positive
  refine ⟨by rw [isAmount, atEnd, isAmountChars_printed inRange, Bool.true_or], ?_⟩
  rw [@Amount.denoted _ _ _ [] (amount_printed inRange) (by rw [toList_numericText]; simp [pointed])
    (.inl rfl), ofDigitChars_printed, held, Int.cast_natCast]
  norm_num

end PaymentWorkflow
