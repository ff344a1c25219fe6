import Mathlib.Data.List.TakeWhile
import PaymentWorkflow.AdapterCore

/-!
The three readings of `occurredAt`: the adapter's pattern and `fromisoformat`, the date-time of
the request schema, and the pattern and cast of `receipt_accept_v1`.
-/

namespace PaymentWorkflow

open Python (CodePoint Text literal)

/-! Digits. -/

theorem isDigit_iff {point : CodePoint} :
    Python.isDigit point = true ↔ 48 ≤ point.number ∧ point.number ≤ 57 := by
  rw [Python.isDigit, Bool.and_eq_true]
  exact and_congr decide_eq_true_iff decide_eq_true_iff

theorem isDigit_toChar (point : CodePoint) : point.toChar.isDigit = Python.isDigit point := by
  rw [Bool.eq_iff_iff, Char.isDigit_iff_toNat, isDigit_iff]
  by_cases valid : point.number.isValidChar
  · have same : point.toChar.toNat = point.number := by
      rw [CodePoint.toChar, Char.ofNat, dif_pos valid]
      rfl
    rw [same]
    rfl
  · have default : point.toChar = '\x00' := by
      rw [CodePoint.toChar, Char.ofNat, dif_neg valid]
      rfl
    refine iff_of_false ?_ fun digit => valid (.inl ?_)
    · rw [default]
      decide
    · exact Nat.lt_of_le_of_lt digit.2 (by decide)

theorem textValue_digits {digits : Text} {value : Nat} (read : textValue digits = some value) :
    digits.all Python.isDigit = true := by
  rw [List.all_eq_true]
  intro point member
  unfold textValue digitsValue at read
  split at read
  · rename_i checked
    rw [← isDigit_toChar]
    exact List.all_eq_true.mp checked.2 _ (List.mem_map_of_mem member)
  · cases read

theorem isDigit_of_ascii {point : CodePoint} (decimal : isDecimal point = true)
    (ascii : point.number < 128) : Python.isDigit point = true := by
  obtain ⟨first, member, within⟩ := List.any_eq_true.mp decimal
  rw [Bool.and_eq_true] at within
  have low := of_decide_eq_true within.1
  have high := of_decide_eq_true within.2
  have only : ∀ first ∈ decimalZeros, first = 0x30 ∨ 128 ≤ first := by decide
  rcases only first member with rfl | beyond
  · exact isDigit_iff.mpr ⟨low, by omega⟩
  · omega

def isStampPoint (point : CodePoint) : Bool := 45 ≤ point.number && point.number ≤ 90

theorem isStampPoint_iff {point : CodePoint} :
    isStampPoint point = true ↔ 45 ≤ point.number ∧ point.number ≤ 90 := by
  rw [isStampPoint, Bool.and_eq_true]
  exact and_congr decide_eq_true_iff decide_eq_true_iff

theorem isStampPoint_digit {point : CodePoint} (digit : Python.isDigit point = true) :
    isStampPoint point = true := by
  obtain ⟨low, high⟩ := isDigit_iff.mp digit
  exact isStampPoint_iff.mpr ⟨by omega, by omega⟩

/-! The fraction. -/

theorem fractionDigits_some {rest fraction : Text}
    (read : fractionDigits rest = some fraction) :
    fraction.all isDecimal = true ∧ (fraction = [] ∧ rest = [CodePoint.ofChar 'Z'] ∨
      fraction ≠ [] ∧ rest = CodePoint.ofChar '.' :: (fraction ++ [CodePoint.ofChar 'Z'])) := by
  unfold fractionDigits at read
  split at read
  · cases read
  · split at read
    · rename_i point isZ
      cases read
      exact ⟨rfl, .inl ⟨rfl, by rw [isZ]⟩⟩
    · cases read
  · rename_i point more _
    split at read
    · rename_i checked
      obtain ⟨isPoint, last, filled, decimal⟩ := checked
      cases read
      refine ⟨decimal, .inr ⟨filled, ?_⟩⟩
      rw [isPoint, List.dropLast_append_getLast? _ last]
    · cases read

theorem isOffset_cons {first : CodePoint} {rest : Text} (filled : rest ≠ [])
    (offset : isOffset (first :: rest) = true) :
    first = CodePoint.ofChar '+' ∨ first = CodePoint.ofChar '-' := by
  unfold isOffset at offset
  split at offset
  · rename_i single
    cases single
    exact absurd rfl filled
  · rename_i whole
    cases whole
    simp only [Bool.and_eq_true, Bool.or_eq_true, decide_eq_true_eq] at offset
    exact offset.1.1.1
  · cases offset

/-- The request schema wants ASCII digits throughout. -/
theorem isFractionAndOffset_iff {rest fraction : Text}
    (read : fractionDigits rest = some fraction) :
    isFractionAndOffset rest = true ↔ fraction.all Python.isDigit = true := by
  have closes : Python.isDigit (CodePoint.ofChar 'Z') = false := by decide
  obtain ⟨decimal, ⟨rfl, rfl⟩ | ⟨filled, rfl⟩⟩ := fractionDigits_some read
  · decide
  · rw [isFractionAndOffset, if_pos rfl, Bool.and_eq_true]
    constructor
    · rintro ⟨_, offset⟩
      rw [List.dropWhile_append] at offset
      cases left : fraction.dropWhile Python.isDigit with
      | nil => exact List.all_eq_true.mpr (List.dropWhile_eq_nil_iff.mp left)
      | cons first tail =>
          rw [left, List.isEmpty_cons, if_neg Bool.false_ne_true, List.cons_append] at offset
          have member : first ∈ fraction := by
            refine (List.dropWhile_suffix Python.isDigit).subset ?_
            rw [left]
            exact List.mem_cons_self
          have isDigits := List.all_eq_true.mp decimal first member
          rcases isOffset_cons (by simp) offset with rfl | rfl
          · exact absurd isDigits (by decide)
          · exact absurd isDigits (by decide)
    · intro digits
      have all := List.all_eq_true.mp digits
      rw [List.takeWhile_append_of_pos all, List.dropWhile_append_of_pos all]
      refine ⟨decide_eq_true ?_, ?_⟩
      · exact List.append_ne_nil_of_left_ne_nil filled _
      · rw [List.dropWhile_cons_of_neg (by rw [closes]; exact Bool.false_ne_true)]
        decide

/-! The fields. -/

structure Stamp.Fields (stamp : Stamp) (year month day hour minute second : Nat) : Prop where
  readYear : textValue stamp.year = some year
  readMonth : textValue stamp.month = some month
  readDay : textValue stamp.day = some day
  readHour : textValue stamp.hour = some hour
  readMinute : textValue stamp.minute = some minute
  readSecond : textValue stamp.second = some second
  dated : 1 ≤ year ∧ (1 ≤ month ∧ month ≤ 12) ∧ 1 ≤ day ∧ day ≤ daysInMonth year month
  timed : hour ≤ 23 ∧ minute ≤ 59 ∧ second ≤ 59

theorem Stamp.fields_of_isIso {stamp : Stamp} {fraction : Text}
    (iso : stamp.isIso fraction = true) :
    ∃ year month day hour minute second, stamp.Fields year month day hour minute second := by
  unfold Stamp.isIso at iso
  split at iso
  · rename_i year month day hour minute second readYear readMonth readDay readHour readMinute
      readSecond
    simp only [Bool.and_eq_true, decide_eq_true_eq] at iso
    obtain ⟨⟨⟨⟨⟨⟨⟨⟨a, b⟩, c⟩, d⟩, e⟩, f⟩, g⟩, h⟩, _⟩ := iso
    exact ⟨year, month, day, hour, minute, second, readYear, readMonth, readDay, readHour,
      readMinute, readSecond, ⟨a, ⟨b, c⟩, d, e⟩, f, g, h⟩
  · cases iso

theorem isLegacyOccurredAt_shape {value : Text} (legacy : isLegacyOccurredAt value = true) :
    ∃ stamp fraction, Stamp.read? value = some stamp ∧
      fractionDigits stamp.rest = some fraction ∧ stamp.separator = CodePoint.ofChar 'T' ∧
      ∃ year month day hour minute second, stamp.Fields year month day hour minute second := by
  unfold isLegacyOccurredAt at legacy
  split at legacy
  · cases legacy
  · rename_i stamp read
    split at legacy
    · cases legacy
    · rename_i fraction trailing
      simp only [Bool.and_eq_true, decide_eq_true_eq] at legacy
      exact ⟨stamp, fraction, read, trailing, legacy.1.1, Stamp.fields_of_isIso legacy.2⟩

theorem Stamp.read?_some {value : Text} {stamp : Stamp} (read : Stamp.read? value = some stamp) :
    ∃ y₁ y₂ y₃ y₄ m₁ m₂ d₁ d₂ h₁ h₂ n₁ n₂ s₁ s₂,
      value = y₁ :: y₂ :: y₃ :: y₄ :: CodePoint.ofChar '-' :: m₁ :: m₂ :: CodePoint.ofChar '-' ::
        d₁ :: d₂ :: stamp.separator :: h₁ :: h₂ :: CodePoint.ofChar ':' :: n₁ :: n₂ ::
          CodePoint.ofChar ':' :: s₁ :: s₂ :: stamp.rest ∧
      stamp = ⟨[y₁, y₂, y₃, y₄], [m₁, m₂], [d₁, d₂], stamp.separator, [h₁, h₂], [n₁, n₂],
        [s₁, s₂], stamp.rest⟩ := by
  unfold Stamp.read? at read
  split at read
  · split at read
    · rename_i marks
      obtain ⟨first, second, third, fourth⟩ := marks
      cases read
      subst first second third fourth
      exact ⟨_, _, _, _, _, _, _, _, _, _, _, _, _, _, rfl, rfl⟩
    · cases read
  · cases read

theorem fractionMicroseconds_some {rest fraction : Text}
    (read : fractionDigits rest = some fraction) (digits : fraction.all Python.isDigit = true) :
    ∃ micros, fractionMicroseconds (rest.map CodePoint.toChar) = some micros ∧
      micros ≤ 1000000 := by
  have point : (CodePoint.ofChar '.').toChar = '.' := by decide
  have letter : (CodePoint.ofChar 'Z').toChar = 'Z' := by decide
  obtain ⟨_, ⟨rfl, rfl⟩ | ⟨filled, rfl⟩⟩ := fractionDigits_some read
  · exact ⟨0, by simp [fractionMicroseconds, letter], by decide⟩
  · have isDigits : ∀ char ∈ fraction.map CodePoint.toChar, char.isDigit = true := by
      intro char member
      obtain ⟨point, inside, rfl⟩ := List.mem_map.mp member
      rw [isDigit_toChar]
      exact List.all_eq_true.mp digits point inside
    let padded := (fraction.map CodePoint.toChar ++ List.replicate 7 '0').take 7
    refine ⟨(Nat.ofDigitChars 10 padded 0 + 5) / 10, ?_, ?_⟩
    · have chars : (CodePoint.ofChar '.' :: (fraction ++ [CodePoint.ofChar 'Z'])).map
          CodePoint.toChar = '.' :: (fraction.map CodePoint.toChar ++ ['Z']) := by
        simp only [List.map_cons, List.map_append, List.map_nil, point, letter]
      have named : fraction.map CodePoint.toChar ≠ [] := by simpa using filled
      rw [chars, fractionMicroseconds, List.dropLast_concat, List.getLast?_concat,
        if_pos ⟨rfl, named, List.all_eq_true.mpr isDigits⟩]
    · have length : padded.length ≤ 7 := List.length_take_le _ _
      have paddedDigits : ∀ char ∈ padded, char.isDigit = true := by
        intro char member
        rcases List.mem_append.mp (List.mem_of_mem_take member) with digit | zero
        · exact isDigits char digit
        · rw [List.eq_of_mem_replicate zero]
          decide
      have bound := ofDigitChars_lt padded paddedDigits
      have power : 10 ^ padded.length ≤ 10 ^ 7 := Nat.pow_le_pow_right (by decide) length
      omega

section Shape

variable {value fraction : Text} {stamp : Stamp} {year month day hour minute second : Nat}
  (read : Stamp.read? value = some stamp) (trailing : fractionDigits stamp.rest = some fraction)
  (separated : stamp.separator = CodePoint.ofChar 'T')
  (fields : stamp.Fields year month day hour minute second)

include read trailing separated fields

theorem isDateTime_iff : isDateTime value = true ↔ fraction.all Python.isDigit = true := by
  rw [← isFractionAndOffset_iff trailing]
  obtain ⟨_, ⟨firstMonth, lastMonth⟩, firstDay, lastDay⟩ := fields.dated
  obtain ⟨hourBound, minuteBound, secondBound⟩ := fields.timed
  have leap : second ≤ 60 := Nat.le_succ_of_le secondBound
  simp [isDateTime, read, fields.readYear, fields.readMonth, fields.readDay, fields.readHour,
    fields.readMinute, fields.readSecond, separated, firstMonth, lastMonth, firstDay, lastDay, hourBound, minuteBound,
    leap]

theorem stampPoints (digits : fraction.all Python.isDigit = true) :
    value.all isStampPoint = true := by
  have marks : isStampPoint (CodePoint.ofChar '-') = true ∧
      isStampPoint (CodePoint.ofChar ':') = true ∧ isStampPoint (CodePoint.ofChar 'T') = true ∧
      isStampPoint (CodePoint.ofChar '.') = true ∧ isStampPoint (CodePoint.ofChar 'Z') = true := by
    decide
  have stampDigits : ∀ {digits : Text}, digits.all Python.isDigit = true →
      digits.all isStampPoint = true := fun all => List.all_eq_true.mpr fun point member =>
    isStampPoint_digit (List.all_eq_true.mp all point member)
  have rest : stamp.rest.all isStampPoint = true := by
    have fractional := stampDigits digits
    rcases (fractionDigits_some trailing).2 with ⟨rfl, whole⟩ | ⟨_, whole⟩
    · simp [whole, marks]
    · simpa [whole, marks] using fractional
  obtain ⟨y₁, y₂, y₃, y₄, m₁, m₂, d₁, d₂, h₁, h₂, n₁, n₂, s₁, s₂, whole, parts⟩ :=
    Stamp.read?_some read
  rw [parts] at fields
  have year := stampDigits (textValue_digits fields.readYear)
  have month := stampDigits (textValue_digits fields.readMonth)
  have day := stampDigits (textValue_digits fields.readDay)
  have hour := stampDigits (textValue_digits fields.readHour)
  have minute := stampDigits (textValue_digits fields.readMinute)
  have second := stampDigits (textValue_digits fields.readSecond)
  simp only [List.all_cons, List.all_nil, Bool.and_eq_true, and_true] at year month day
  simp only [List.all_cons, List.all_nil, Bool.and_eq_true, and_true] at hour minute second
  rw [whole]
  simp only [List.all_cons, separated, marks, year, month, day, hour, minute, second, rest,
    Bool.and_self]

omit separated fields in
/-- Beyond ASCII there can only be digits of the fraction. -/
theorem fraction_of_ascii (ascii : ∀ point ∈ value, point.number < 128) :
    fraction.all Python.isDigit = true := by
  obtain ⟨decimal, ends⟩ := fractionDigits_some trailing
  have inside : ∀ point ∈ stamp.rest, point ∈ value := by
    obtain ⟨y₁, y₂, y₃, y₄, m₁, m₂, d₁, d₂, h₁, h₂, n₁, n₂, s₁, s₂, whole, _⟩ :=
      Stamp.read?_some read
    intro point member
    simp only [whole, List.mem_cons, member, or_true]
  rw [List.all_eq_true]
  intro point member
  refine isDigit_of_ascii (List.all_eq_true.mp decimal point member) (ascii point ?_)
  rcases ends with ⟨rfl, _⟩ | ⟨_, whole⟩
  · cases member
  · refine inside point ?_
    rw [whole]
    exact List.mem_cons_of_mem _ (List.mem_append_left _ member)

omit separated fields in
theorem getLast?_stamp : value.getLast? = some (CodePoint.ofChar 'Z') := by
  have rest : ∃ before, stamp.rest = before ++ [CodePoint.ofChar 'Z'] := by
    rcases (fractionDigits_some trailing).2 with ⟨_, whole⟩ | ⟨_, whole⟩
    · exact ⟨[], whole⟩
    · exact ⟨CodePoint.ofChar '.' :: fraction, whole⟩
  obtain ⟨before, ends⟩ := rest
  obtain ⟨y₁, y₂, y₃, y₄, m₁, m₂, d₁, d₂, h₁, h₂, n₁, n₂, s₁, s₂, whole, _⟩ :=
    Stamp.read?_some read
  rw [whole, ends]
  simp only [← List.cons_append, List.getLast?_concat]

theorem isOccurredAt_text (digits : fraction.all Python.isDigit = true)
    (short : value.length ≤ 64) :
    isOccurredAt (String.ofList (value.map CodePoint.toChar)) = true := by
  obtain ⟨y₁, y₂, y₃, y₄, m₁, m₂, d₁, d₂, h₁, h₂, n₁, n₂, s₁, s₂, whole, parts⟩ :=
    Stamp.read?_some read
  rw [parts] at fields
  obtain ⟨micros, fractional, small⟩ := fractionMicroseconds_some trailing digits
  have dash : (CodePoint.ofChar '-').toChar = '-' := by decide
  have colon : (CodePoint.ofChar ':').toChar = ':' := by decide
  have letter : (CodePoint.ofChar 'T').toChar = 'T' := by decide
  have read₁ := fields.readYear
  have read₂ := fields.readMonth
  have read₃ := fields.readDay
  have read₄ := fields.readHour
  have read₅ := fields.readMinute
  have read₆ := fields.readSecond
  simp only [textValue, List.map_cons, List.map_nil] at read₁ read₂ read₃ read₄ read₅ read₆
  have within : isTimestampFields year month day hour minute second micros = true := by
    obtain ⟨firstYear, ⟨firstMonth, lastMonth⟩, firstDay, lastDay⟩ := fields.dated
    obtain ⟨hourBound, minuteBound, secondBound⟩ := fields.timed
    simp only [isTimestampFields, Bool.and_eq_true, decide_eq_true_eq]
    omega
  have chars : (String.ofList (value.map CodePoint.toChar)).toList =
      y₁.toChar :: y₂.toChar :: y₃.toChar :: y₄.toChar :: '-' :: m₁.toChar :: m₂.toChar :: '-' ::
        d₁.toChar :: d₂.toChar :: 'T' :: h₁.toChar :: h₂.toChar :: ':' :: n₁.toChar ::
          n₂.toChar :: ':' :: s₁.toChar :: s₂.toChar :: stamp.rest.map CodePoint.toChar := by
    rw [String.toList_ofList, whole, separated]
    simp only [List.map_cons, dash, colon, letter]
  have length : (String.ofList (value.map CodePoint.toChar)).toList.length ≤ 64 := by
    rw [String.toList_ofList, List.length_map]
    exact short
  rw [isOccurredAt, decide_eq_true length, Bool.true_and, chars]
  simp only [read₁, read₂, read₃, read₄, read₅, read₆, fractional, within]

end Shape

end PaymentWorkflow
