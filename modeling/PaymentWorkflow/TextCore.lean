import PaymentWorkflow.JsonCore

/-! The casts from text, and the patterns texts are checked against. -/

namespace PaymentWorkflow

def isSpace (char : Char) : Bool := char = ' ' || (9 ≤ char.toNat && char.toNat ≤ 13)

def trimmed (chars : List Char) : List Char :=
  ((chars.dropWhile isSpace).reverse.dropWhile isSpace).reverse

def digitsValue (chars : List Char) : Option Nat :=
  if chars ≠ [] ∧ chars.all Char.isDigit = true then some (Nat.ofDigitChars 10 chars 0) else none

theorem ofDigitChars_lt (chars : List Char) (isDigits : ∀ char ∈ chars, char.isDigit = true) :
    Nat.ofDigitChars 10 chars 0 < 10 ^ chars.length := by
  induction chars with
  | nil => simp
  | cons char rest ih =>
      have digit := Char.isDigit_iff_toNat.mp (isDigits char List.mem_cons_self)
      have later := ih fun other member => isDigits other (List.mem_cons_of_mem _ member)
      have bound : char.toNat - '0'.toNat ≤ 9 := by
        have top : '9'.toNat = 57 := rfl
        have bottom : '0'.toNat = 48 := rfl
        omega
      rw [Nat.ofDigitChars_cons, Nat.ofDigitChars_eq_ofDigitChars_zero, List.length_cons,
        Nat.pow_succ]
      have product : 10 ^ rest.length * (10 * 0 + (char.toNat - '0'.toNat)) ≤
          10 ^ rest.length * 9 := Nat.mul_le_mul_left _ (by omega)
      omega

def signedChars : List Char → Option Int
  | '-' :: rest => (digitsValue rest).map fun value => -(value : Int)
  | '+' :: rest => (digitsValue rest).map fun value => (value : Int)
  | chars => (digitsValue chars).map fun value => (value : Int)

def castInt (content : String) : Option Int := signedChars (trimmed content.toList)

/-- The unsigned part of a decimal literal: digits, fraction digits and exponent. -/
def decimalParts (chars : List Char) : Option (List Char × List Char × Int) :=
  let whole := chars.takeWhile Char.isDigit
  let afterWhole := chars.dropWhile Char.isDigit
  let fraction := match afterWhole with
    | '.' :: rest => rest.takeWhile Char.isDigit
    | _ => []
  let afterFraction := match afterWhole with
    | '.' :: rest => rest.dropWhile Char.isDigit
    | other => other
  if whole = [] ∧ fraction = [] then none
  else
    match afterFraction with
    | [] => some (whole, fraction, 0)
    | 'e' :: rest | 'E' :: rest => (signedChars rest).map fun exponent => (whole, fraction, exponent)
    | _ => none

/-- `::numeric` assigned to a `numeric(20,2)`, in hundredths: half rounds away from zero. -/
def castNumeric (content : String) : Option Int :=
  let chars := trimmed content.toList
  let negative := chars.head? = some '-'
  let unsigned := if negative ∨ chars.head? = some '+' then chars.drop 1 else chars
  match decimalParts unsigned with
  | none => none
  | some (whole, fraction, exponent) =>
      let numerator := Nat.ofDigitChars 10 (whole ++ fraction) 0 * 10 ^ (exponent.toNat + 2)
      let denominator := 10 ^ (fraction.length + (-exponent).toNat)
      let hundredths := (2 * numerator + denominator) / (2 * denominator)
      if hundredths < 10 ^ 20 then some (if negative then -(hundredths : Int) else hundredths)
      else none

def numericText (hundredths : Int) : String :=
  let magnitude := hundredths.natAbs
  (if hundredths < 0 then "-" else "") ++ Nat.repr (magnitude / 100) ++ "." ++
    (if magnitude % 100 < 10 then "0" else "") ++ Nat.repr (magnitude % 100)

def isHexDigit (char : Char) : Bool :=
  char.isDigit || ('a'.toNat ≤ char.toNat && char.toNat ≤ 'f'.toNat)

def isSha256Hex (content : String) : Bool :=
  content.toList.length = 64 && content.toList.all isHexDigit

/-- The proleptic Gregorian date a number of days after 0000-03-01: the years, months and days of
a calendar that begins in March. -/
def civilDate (days : Int) : Int × Nat × Nat :=
  let era := days / 146097
  let dayOfEra := (days % 146097).toNat
  let yearOfEra := (dayOfEra - dayOfEra / 1460 + dayOfEra / 36524 - dayOfEra / 146096) / 365
  let dayOfYear := dayOfEra - (365 * yearOfEra + yearOfEra / 4 - yearOfEra / 100)
  let fromMarch := (5 * dayOfYear + 2) / 153
  let month := if fromMarch < 10 then fromMarch + 3 else fromMarch - 9
  (yearOfEra + era * 400 + (if month ≤ 2 then 1 else 0), month,
    dayOfYear - (153 * fromMarch + 2) / 5 + 1)

def zeroPadded (width value : Nat) : String :=
  String.ofList (List.replicate (width - (Nat.toDigits 10 value).length) '0' ++
    Nat.toDigits 10 value)

/-- A `timestamptz` in a jsonb value, in microseconds since 1970 and shown in UTC. -/
def timestamptzText (reading : Int) : String :=
  let (year, month, day) := civilDate (reading / 86400000000 + 719468)
  let time := (reading % 86400000000).toNat
  let fraction := ((zeroPadded 6 (time % 1000000)).toList.reverse.dropWhile (· = '0')).reverse
  -- there is no year 0
  zeroPadded 4 (if year ≤ 0 then 1 - year else year).toNat ++ "-" ++ zeroPadded 2 month ++ "-" ++
    zeroPadded 2 day ++ "T" ++ zeroPadded 2 (time / 3600000000) ++ ":" ++
    zeroPadded 2 (time / 60000000 % 60) ++ ":" ++ zeroPadded 2 (time / 1000000 % 60) ++
    (if fraction = [] then "" else "." ++ String.ofList fraction) ++ "+00:00" ++
    if year ≤ 0 then " BC" else ""

example : timestamptzText 1788523200120000 = "2026-09-04T12:00:00.12+00:00" := by decide

def daysInMonth (year month : Nat) : Nat :=
  if month = 2 then
    if year % 4 = 0 ∧ (year % 100 ≠ 0 ∨ year % 400 = 0) then 29 else 28
  else if month = 4 ∨ month = 6 ∨ month = 9 ∨ month = 11 then 30 else 31

/-- `::timestamptz` goes through for these fields: 24:00:00 and a 60th second are
readings PostgreSQL accepts, anything past the end of the day is not. -/
def isTimestampFields (year month day hour minute second microseconds : Nat) : Bool :=
  0 < year && 1 ≤ month && month ≤ 12 && 1 ≤ day && day ≤ daysInMonth year month &&
    hour ≤ 24 && minute ≤ 59 && second ≤ 60 &&
    ((hour * 60 + minute) * 60 + second) * 1000000 + microseconds ≤ 86400000000

/-- The part after the seconds: `(\.[0-9]+)?Z$`, as rounded microseconds. -/
def fractionMicroseconds : List Char → Option Nat
  | ['Z'] => some 0
  | '.' :: rest =>
      let digits := rest.dropLast
      if rest.getLast? = some 'Z' ∧ digits ≠ [] ∧ digits.all Char.isDigit = true then
        let padded := (digits ++ List.replicate 7 '0').take 7
        some ((Nat.ofDigitChars 10 padded 0 + 5) / 10)
      else none
  | _ => none

def isOccurredAt (content : String) : Bool :=
  content.toList.length ≤ 64 &&
  match content.toList with
  | y₁ :: y₂ :: y₃ :: y₄ :: '-' :: m₁ :: m₂ :: '-' :: d₁ :: d₂ :: 'T' ::
      h₁ :: h₂ :: ':' :: n₁ :: n₂ :: ':' :: s₁ :: s₂ :: rest =>
      match digitsValue [y₁, y₂, y₃, y₄], digitsValue [m₁, m₂], digitsValue [d₁, d₂],
          digitsValue [h₁, h₂], digitsValue [n₁, n₂], digitsValue [s₁, s₂],
          fractionMicroseconds rest with
      | some year, some month, some day, some hour, some minute, some second, some micros =>
          isTimestampFields year month day hour minute second micros
      | _, _, _, _, _, _, _ => false
  | _ => false

example : isOccurredAt "2026-09-04T12:00:00Z" = true := by decide
example : isOccurredAt "2026-02-30T12:00:00Z" = false := by decide

end PaymentWorkflow
