import PaymentWorkflow.DecimalText

/-! Number literals of JSON: what jsonb keeps of them, and what `GetValue<int>` reads. -/

namespace PaymentWorkflow

def withSign (negative : Bool) (magnitude : Nat) : Int :=
  if negative then -(magnitude : Int) else magnitude

def isInt (value : Int) : Bool := -2 ^ 31 ≤ value && value < 2 ^ 31

structure ExponentPart where
  letter : Char
  sign : List Char
  digits : List Char
  marked : letter = 'e' ∨ letter = 'E'
  signed : sign = [] ∨ sign = ['+'] ∨ sign = ['-']
  filled : digits ≠ []
  isDigits : ∀ char ∈ digits, char.isDigit = true

namespace ExponentPart

def chars (exponent : ExponentPart) : List Char :=
  exponent.letter :: exponent.sign ++ exponent.digits

def value (exponent : ExponentPart) : Int :=
  withSign (exponent.sign = ['-']) (Nat.ofDigitChars 10 exponent.digits 0)

end ExponentPart

/-- `-?(0|[1-9][0-9]*)(\.[0-9]+)?` and an exponent. No fraction digits, no point. -/
structure NumberLiteral where
  negative : Bool
  whole : List Char
  fraction : List Char
  exponent : Option ExponentPart
  filled : whole ≠ []
  leading : whole = ['0'] ∨ whole.head? ≠ some '0'
  wholeDigits : ∀ char ∈ whole, char.isDigit = true
  fractionDigits : ∀ char ∈ fraction, char.isDigit = true

namespace NumberLiteral

def tail (literal : NumberLiteral) : List Char :=
  (literal.exponent.map ExponentPart.chars).getD []

def chars (literal : NumberLiteral) : List Char :=
  (if literal.negative then ['-'] else []) ++ (literal.whole ++ pointed literal.fraction ++ literal.tail)

def digits (literal : NumberLiteral) : Nat :=
  Nat.ofDigitChars 10 (literal.whole ++ literal.fraction) 0

def power (literal : NumberLiteral) : Int := (literal.exponent.map ExponentPart.value).getD 0

/-- The places behind the point once the exponent has moved it. -/
def place (literal : NumberLiteral) : Int := literal.power - literal.fraction.length

def numeric (literal : NumberLiteral) : Decimal :=
  let mantissa := withSign literal.negative literal.digits
  if 0 ≤ literal.place then .ofInt (mantissa * 10 ^ literal.place.toNat)
  else ⟨mantissa, (-literal.place).toNat⟩

def isPlain (literal : NumberLiteral) : Bool :=
  literal.fraction.isEmpty && literal.exponent.isNone

def getInt? (literal : NumberLiteral) : Option Int :=
  let value := withSign literal.negative literal.digits
  if literal.isPlain && isInt value then some value else none

def integer? (literal : NumberLiteral) : Option Int :=
  if literal.numeric.scale = 0 ∧ isInt literal.numeric.mantissa = true then
    some literal.numeric.mantissa
  else none

theorem numeric_plain {literal : NumberLiteral} (plain : literal.isPlain = true) :
    literal.numeric = .ofInt (withSign literal.negative literal.digits) := by
  simp only [isPlain, Bool.and_eq_true, List.isEmpty_iff, Option.isNone_iff_eq_none] at plain
  simp [numeric, place, power, plain.1, plain.2]

end NumberLiteral

/-- A number the schema takes for an integer, as it is written: 1, 1.0 or 10e-1. -/
structure WrittenInt where
  literal : NumberLiteral
  integral : literal.numeric.mantissa % 10 ^ literal.numeric.scale = 0

namespace WrittenInt

def value (number : WrittenInt) : Int :=
  number.literal.numeric.mantissa / 10 ^ number.literal.numeric.scale

theorem value_plain {number : WrittenInt} (plain : number.literal.isPlain = true) :
    number.value = withSign number.literal.negative number.literal.digits := by
  simp [value, NumberLiteral.numeric_plain plain, Decimal.ofInt]

theorem getInt?_eq (number : WrittenInt) : number.literal.getInt? =
    if number.literal.isPlain && isInt number.value then some number.value else none := by
  cases plain : number.literal.isPlain with
  | true => simp [NumberLiteral.getInt?, plain, value_plain plain]
  | false => simp [NumberLiteral.getInt?, plain]

theorem integer?_eq (number : WrittenInt) : number.literal.integer? =
    if number.literal.numeric.scale = 0 ∧ isInt number.value = true then some number.value
    else none := by
  by_cases whole : number.literal.numeric.scale = 0
  · have same : number.value = number.literal.numeric.mantissa := by simp [value, whole]
    simp [NumberLiteral.integer?, whole, same]
  · simp [NumberLiteral.integer?, whole]

theorem leading_toDigits (magnitude : Nat) :
    Nat.toDigits 10 magnitude = ['0'] ∨ (Nat.toDigits 10 magnitude).head? ≠ some '0' := by
  rcases Nat.eq_zero_or_pos magnitude with rfl | positive
  · exact .inl (Nat.toDigits_zero 10)
  · obtain ⟨first, rest, opens, nonzero⟩ := toDigits_opens positive
    rw [opens, List.head?_cons, ne_eq, Option.some.injEq]
    exact .inr (isNonzero_iff.mp nonzero).2

def plainLiteral (value : Int) : NumberLiteral where
  negative := decide (value < 0)
  whole := Nat.toDigits 10 value.natAbs
  fraction := []
  exponent := none
  filled := Nat.toDigits_ne_nil
  leading := leading_toDigits value.natAbs
  wholeDigits := fun _ member => Nat.isDigit_of_mem_toDigits (by decide) (by decide) member
  fractionDigits := fun _ member => absurd member List.not_mem_nil

theorem isPlain_plainLiteral (value : Int) : (plainLiteral value).isPlain = true := rfl

theorem plainLiteral_digits (value : Int) :
    withSign (plainLiteral value).negative (plainLiteral value).digits = value := by
  have digits : (plainLiteral value).digits = value.natAbs := by
    rw [NumberLiteral.digits, plainLiteral, List.append_nil, Nat.ofDigitChars_ten_toDigits]
  rw [digits, withSign, plainLiteral]
  split <;> rename_i sign <;> simp only [decide_eq_true_eq] at sign <;> omega

def plain (value : Int) : WrittenInt where
  literal := plainLiteral value
  integral := by
    rw [NumberLiteral.numeric_plain (isPlain_plainLiteral value)]
    exact Int.emod_one _

@[simp] theorem value_plain_int (value : Int) : (plain value).value = value := by
  rw [value_plain (isPlain_plainLiteral value)]
  exact plainLiteral_digits value

@[simp] theorem isPlain_plain (value : Int) : (plain value).literal.isPlain = true := rfl

end WrittenInt

end PaymentWorkflow
