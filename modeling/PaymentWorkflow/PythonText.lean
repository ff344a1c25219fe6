import Mathlib.Data.List.Basic

/-! Python's text: any code points, lone surrogates among them, and its strict UTF-8. -/

namespace Python

structure CodePoint where
  number : Nat
  below : number < 0x110000
deriving DecidableEq

namespace CodePoint

def ofChar (char : Char) : CodePoint where
  number := char.toNat
  below := by
    rcases char.valid with low | high
    · exact Nat.lt_trans low (by decide)
    · exact high.2

instance : Coe Char CodePoint := ⟨ofChar⟩

def isSurrogate (point : CodePoint) : Bool := 0xD800 ≤ point.number && point.number ≤ 0xDFFF

/-- Faithful for all but surrogates. -/
def toChar (point : CodePoint) : Char := Char.ofNat point.number

theorem toNat_toChar {point : CodePoint} (scalar : point.isSurrogate = false) :
    point.toChar.toNat = point.number := by
  have below := point.below
  have valid : point.number.isValidChar := by
    simp only [isSurrogate, Bool.and_eq_false_iff, decide_eq_false_iff_not] at scalar
    simp only [Nat.isValidChar]
    omega
  rw [toChar, Char.ofNat, dif_pos valid]
  rfl

theorem ofChar_toChar {point : CodePoint} (scalar : point.isSurrogate = false) :
    ofChar point.toChar = point := by
  cases point
  simp only [ofChar, toNat_toChar scalar]

theorem toChar_ofChar (char : Char) : (ofChar char).toChar = char := Char.ofNat_toNat char

theorem isSurrogate_ofChar (char : Char) : (ofChar char).isSurrogate = false := by
  have valid : char.toNat.isValidChar := char.valid
  rw [Bool.eq_false_iff]
  intro surrogate
  rw [isSurrogate, Bool.and_eq_true] at surrogate
  have low : 0xD800 ≤ char.toNat := of_decide_eq_true surrogate.1
  have high : char.toNat ≤ 0xDFFF := of_decide_eq_true surrogate.2
  simp only [Nat.isValidChar] at valid
  omega

end CodePoint

abbrev Text := List CodePoint

def literal (content : String) : Text := content.toList.map CodePoint.ofChar

theorem literal_scalar (content : String) :
    (literal content).any CodePoint.isSurrogate = false := by
  rw [literal, List.any_map, List.any_eq_false]
  intro char _
  simp [CodePoint.isSurrogate_ofChar]

/-- `encode("utf-8")`, `none` for a UnicodeEncodeError. -/
def encode (text : Text) : Option ByteArray :=
  if text.any CodePoint.isSurrogate then none
  else some (String.ofList (text.map CodePoint.toChar)).toByteArray

def decode (bytes : ByteArray) : Option Text :=
  bytes.utf8Decode?.map fun chars => chars.toList.map CodePoint.ofChar

theorem map_ofChar_toChar {text : Text} (scalar : text.any CodePoint.isSurrogate = false) :
    (text.map CodePoint.toChar).map CodePoint.ofChar = text := by
  rw [List.map_map]
  refine (List.map_congr_left fun point member => ?_).trans (List.map_id text)
  have plain : point.isSurrogate = false := by
    simpa using List.any_eq_false.mp scalar point member
  exact CodePoint.ofChar_toChar plain

theorem decode_encode {text : Text} {bytes : ByteArray} (encoded : encode text = some bytes) :
    decode bytes = some text := by
  simp only [encode] at encoded
  split at encoded
  · cases encoded
  · rename_i plain
    cases encoded
    have scalar : text.any CodePoint.isSurrogate = false := by simpa using plain
    simp only [decode, String.toByteArray_ofList, List.utf8Decode?_utf8Encode, Option.map_some,
      map_ofChar_toChar scalar]

end Python
