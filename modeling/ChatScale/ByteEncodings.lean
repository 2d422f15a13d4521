import ChatScale.ByteText
import Mathlib.Tactic.IntervalCases

/-!
# Hexadecimal, base64 and decimal spellings of bytes and integers

Each encoder comes with the decoder that reads it back. The decoders accept
what the standard ones accept (upper-case hexadecimal, line breaks inside
base64), the round trips are about what the encoders write.
-/

namespace ChatScale.ByteEncodings

open ChatScale.ByteText

set_option autoImplicit false

theorem byte_of_nat (byte : UInt8) : UInt8.ofNat byte.toNat = byte := by simp

theorem byte_lt (byte : UInt8) : byte.toNat < 256 := byte.toNat_lt

section Hexadecimal

def hexDigit (value : Nat) : UInt8 :=
  if value < 10 then UInt8.ofNat (48 + value) else UInt8.ofNat (87 + value)

def fromHex (byte : UInt8) : Option Nat :=
  if 48 ≤ byte ∧ byte ≤ 57 then some (byte.toNat - 48)
  else if 97 ≤ byte ∧ byte ≤ 102 then some (byte.toNat - 87)
  else if 65 ≤ byte ∧ byte ≤ 70 then some (byte.toNat - 55)
  else none

/-- `hex.EncodeToString`. -/
def encodeHex (bytes : Bytes) : Bytes :=
  bytes.flatMap fun byte => [hexDigit (byte.toNat / 16), hexDigit (byte.toNat % 16)]

/-- `hex.DecodeString`. -/
def decodeHex : Bytes → Option Bytes
  | [] => some []
  | [_] => none
  | high :: low :: rest => do
      let high ← fromHex high
      let low ← fromHex low
      let bytes ← decodeHex rest
      some (UInt8.ofNat (16 * high + low) :: bytes)

theorem from_hex_digit (value : Nat) (bound : value < 16) :
    fromHex (hexDigit value) = some value := by
  interval_cases value <;> decide

theorem hex_byte_round_trip (byte : UInt8) :
    UInt8.ofNat (16 * (byte.toNat / 16) + byte.toNat % 16) = byte := by
  rw [Nat.div_add_mod]
  exact byte_of_nat byte

theorem decode_hex_encode (bytes : Bytes) : decodeHex (encodeHex bytes) = some bytes := by
  induction bytes with
  | nil => rfl
  | cons byte bytes induction =>
      have small := byte_lt byte
      have high := from_hex_digit (byte.toNat / 16) (by omega)
      have low := from_hex_digit (byte.toNat % 16) (by omega)
      change decodeHex (hexDigit (byte.toNat / 16) :: hexDigit (byte.toNat % 16) ::
        encodeHex bytes) = some (byte :: bytes)
      simp only [decodeHex, high, low, induction, Option.bind_eq_bind, Option.bind_some,
        hex_byte_round_trip]

end Hexadecimal

section Base64

def base64Digit (value : Nat) : UInt8 :=
  if value < 26 then UInt8.ofNat (65 + value)
  else if value < 52 then UInt8.ofNat (71 + value)
  else if value < 62 then UInt8.ofNat (value - 4)
  else if value = 62 then 43 else 47

def fromBase64 (byte : UInt8) : Option Nat :=
  if 65 ≤ byte ∧ byte ≤ 90 then some (byte.toNat - 65)
  else if 97 ≤ byte ∧ byte ≤ 122 then some (byte.toNat - 71)
  else if 48 ≤ byte ∧ byte ≤ 57 then some (byte.toNat + 4)
  else if byte = 43 then some 62
  else if byte = 47 then some 63
  else none

/-- `base64.StdEncoding` with padding. -/
def encodeBase64 : Bytes → Bytes
  | [] => []
  | [first] =>
      [base64Digit (first.toNat / 4), base64Digit (first.toNat % 4 * 16), 61, 61]
  | [first, second] =>
      [base64Digit (first.toNat / 4),
        base64Digit (first.toNat % 4 * 16 + second.toNat / 16),
        base64Digit (second.toNat % 16 * 4), 61]
  | first :: second :: third :: rest =>
      base64Digit (first.toNat / 4) ::
        base64Digit (first.toNat % 4 * 16 + second.toNat / 16) ::
        base64Digit (second.toNat % 16 * 4 + third.toNat / 64) ::
        base64Digit (third.toNat % 64) :: encodeBase64 rest

def decodeBase64Groups : Bytes → Option Bytes
  | [] => some []
  | first :: second :: third :: fourth :: rest => do
      let one ← fromBase64 first
      let two ← fromBase64 second
      if third = 61 ∧ fourth = 61 ∧ rest = [] then
        some [UInt8.ofNat (one * 4 + two / 16)]
      else
        let three ← fromBase64 third
        if fourth = 61 ∧ rest = [] then
          some [UInt8.ofNat (one * 4 + two / 16), UInt8.ofNat (two % 16 * 16 + three / 4)]
        else
          let four ← fromBase64 fourth
          let bytes ← decodeBase64Groups rest
          some (UInt8.ofNat (one * 4 + two / 16) :: UInt8.ofNat (two % 16 * 16 + three / 4) ::
            UInt8.ofNat (three % 4 * 64 + four) :: bytes)
  | _ => none

def decodeBase64 (text : Bytes) : Option Bytes :=
  decodeBase64Groups (text.filter fun byte => byte != 10 && byte != 13)

theorem from_base64_digit (value : Nat) (bound : value < 64) :
    fromBase64 (base64Digit value) = some value := by
  interval_cases value <;> decide

theorem base64_digit_range (value : Nat) (bound : value < 64) :
    base64Digit value ≠ 61 ∧ 43 ≤ base64Digit value ∧ base64Digit value < 123 ∧
      base64Digit value ≠ 92 := by
  interval_cases value <;> decide

private theorem byte_eq_of_nat (byte : UInt8) {value : Nat} (same : value = byte.toNat) :
    UInt8.ofNat value = byte := by
  rw [same]
  exact byte_of_nat byte

theorem decode_base64_groups_encode (bytes : Bytes) :
    decodeBase64Groups (encodeBase64 bytes) = some bytes := by
  fun_induction encodeBase64 bytes with
  | case1 => rfl
  | case2 first =>
      have small := byte_lt first
      have one := from_base64_digit (first.toNat / 4) (by omega)
      have two := from_base64_digit (first.toNat % 4 * 16) (by omega)
      simp only [decodeBase64Groups, one, two, Option.bind_eq_bind, Option.bind_some, and_self,
        if_true]
      rw [byte_eq_of_nat first (by omega)]
  | case3 first second =>
      have firstSmall := byte_lt first
      have secondSmall := byte_lt second
      have one := from_base64_digit (first.toNat / 4) (by omega)
      have two := from_base64_digit (first.toNat % 4 * 16 + second.toNat / 16) (by omega)
      have three := from_base64_digit (second.toNat % 16 * 4) (by omega)
      have notPad := (base64_digit_range (second.toNat % 16 * 4) (by omega)).1
      simp only [decodeBase64Groups, one, two, three, notPad, Option.bind_eq_bind,
        Option.bind_some, false_and, if_false, and_self, if_true]
      rw [byte_eq_of_nat first (by omega), byte_eq_of_nat second (by omega)]
  | case4 first second third rest induction =>
      have firstSmall := byte_lt first
      have secondSmall := byte_lt second
      have thirdSmall := byte_lt third
      have one := from_base64_digit (first.toNat / 4) (by omega)
      have two := from_base64_digit (first.toNat % 4 * 16 + second.toNat / 16) (by omega)
      have three := from_base64_digit (second.toNat % 16 * 4 + third.toNat / 64) (by omega)
      have four := from_base64_digit (third.toNat % 64) (by omega)
      have thirdNotPad :=
        (base64_digit_range (second.toNat % 16 * 4 + third.toNat / 64) (by omega)).1
      have fourthNotPad := (base64_digit_range (third.toNat % 64) (by omega)).1
      simp only [decodeBase64Groups, one, two, three, four, thirdNotPad, fourthNotPad, induction,
        Option.bind_eq_bind, Option.bind_some, false_and, if_false]
      rw [byte_eq_of_nat first (by omega), byte_eq_of_nat second (by omega),
        byte_eq_of_nat third (by omega)]

/-- Every byte of a base64 text is printable ASCII and no backslash, so no
quoting ever touches it. -/
theorem encode_base64_printable (bytes : Bytes) :
    ∀ byte ∈ encodeBase64 bytes, 43 ≤ byte ∧ byte < 123 ∧ byte ≠ 92 := by
  fun_induction encodeBase64 bytes with
  | case1 => simp
  | case2 first =>
      have small := byte_lt first
      have one := (base64_digit_range (first.toNat / 4) (by omega)).2
      have two := (base64_digit_range (first.toNat % 4 * 16) (by omega)).2
      simp [one, two]
  | case3 first second =>
      have firstSmall := byte_lt first
      have secondSmall := byte_lt second
      have one := (base64_digit_range (first.toNat / 4) (by omega)).2
      have two :=
        (base64_digit_range (first.toNat % 4 * 16 + second.toNat / 16) (by omega)).2
      have three := (base64_digit_range (second.toNat % 16 * 4) (by omega)).2
      simp [one, two, three]
  | case4 first second third rest induction =>
      have firstSmall := byte_lt first
      have secondSmall := byte_lt second
      have thirdSmall := byte_lt third
      have one := (base64_digit_range (first.toNat / 4) (by omega)).2
      have two :=
        (base64_digit_range (first.toNat % 4 * 16 + second.toNat / 16) (by omega)).2
      have three :=
        (base64_digit_range (second.toNat % 16 * 4 + third.toNat / 64) (by omega)).2
      have four := (base64_digit_range (third.toNat % 64) (by omega)).2
      simpa [one, two, three, four] using induction

theorem decode_base64_encode (bytes : Bytes) :
    decodeBase64 (encodeBase64 bytes) = some bytes := by
  have untouched : (encodeBase64 bytes).filter (fun byte => byte != 10 && byte != 13) =
      encodeBase64 bytes := by
    apply List.filter_eq_self.mpr
    intro byte member
    have printable := (encode_base64_printable bytes byte member).1
    simp only [Bool.and_eq_true, bne_iff_ne]
    constructor <;>
      · rintro rfl
        exact absurd printable (by decide)
  rw [decodeBase64, untouched, decode_base64_groups_encode]

end Base64

section Decimal

def isDigit (byte : UInt8) : Bool := 48 ≤ byte && byte ≤ 57

def decimalDigit (value : Nat) : UInt8 := UInt8.ofNat (48 + value)

def readDigits (digits : Bytes) : Nat :=
  digits.foldl (fun value byte => 10 * value + (byte.toNat - 48)) 0

def formatNat (value : Nat) : Bytes :=
  (Nat.toDigits 10 value).map fun character => UInt8.ofNat character.toNat

/-- `strconv.FormatInt(value, 10)`. -/
def formatInt : Int → Bytes
  | .ofNat value => formatNat value
  | .negSucc value => 45 :: formatNat (value + 1)

def minInt64 : Int := -2 ^ 63

def maxInt64 : Int := 2 ^ 63 - 1

/-- `strconv.ParseInt(text, 10, 64)`. -/
def parseInt64 (text : Bytes) : Option Int :=
  let negative := text.head? == some 45
  let digits := if text.head? = some 45 ∨ text.head? = some 43 then text.tail else text
  let magnitude : Int := readDigits digits
  let value := if negative then -magnitude else magnitude
  if digits ≠ [] ∧ digits.all isDigit = true ∧ minInt64 ≤ value ∧ value ≤ maxInt64 then some value
  else none

theorem decimal_digit_is_digit (value : Nat) (bound : value < 10) :
    isDigit (decimalDigit value) = true ∧ (decimalDigit value).toNat - 48 = value := by
  interval_cases value <;> decide

theorem format_nat_single (value : Nat) (bound : value < 10) :
    formatNat value = [decimalDigit value] := by
  rw [formatNat, Nat.toDigits_of_lt_base bound]
  simp [decimalDigit, Nat.toNat_digitChar_of_lt_ten bound]

theorem format_nat_append (value digit : Nat) (positive : 0 < value) (bound : digit < 10) :
    formatNat (10 * value + digit) = formatNat value ++ [decimalDigit digit] := by
  rw [← format_nat_single digit bound, formatNat, formatNat, formatNat,
    ← Nat.toDigits_append_toDigits (by decide) positive bound, List.map_append]

theorem read_digits_append (digits : Bytes) (digit : Nat) (bound : digit < 10) :
    readDigits (digits ++ [decimalDigit digit]) = 10 * readDigits digits + digit := by
  rw [readDigits, List.foldl_append]
  simp only [List.foldl_cons, List.foldl_nil, (decimal_digit_is_digit digit bound).2]
  rfl

theorem read_digits_format_nat (value : Nat) : readDigits (formatNat value) = value := by
  induction value using Nat.base_induction 10 (by decide) with
  | single value bound =>
      have empty : readDigits [] = 0 := rfl
      rw [format_nat_single value bound]
      simpa [empty] using read_digits_append [] value bound
  | digit value digit bound positive induction =>
      rw [format_nat_append value digit positive bound, read_digits_append _ digit bound,
        induction]

theorem format_nat_digits (value : Nat) : (formatNat value).all isDigit = true := by
  induction value using Nat.base_induction 10 (by decide) with
  | single value bound =>
      rw [format_nat_single value bound]
      simp [(decimal_digit_is_digit value bound).1]
  | digit value digit bound positive induction =>
      rw [format_nat_append value digit positive bound]
      simp [induction, (decimal_digit_is_digit digit bound).1]

theorem format_nat_ne_nil (value : Nat) : formatNat value ≠ [] := by
  simp [formatNat]

/-- No leading zero: the decimal spelling of a positive number starts with a
digit from 1 to 9. -/
theorem format_nat_head (value : Nat) (positive : 0 < value) :
    ∃ digit rest, 0 < digit ∧ digit < 10 ∧ formatNat value = decimalDigit digit :: rest := by
  induction value using Nat.base_induction 10 (by decide) with
  | single value bound => exact ⟨value, [], positive, bound, format_nat_single value bound⟩
  | digit value digit bound positiveValue induction =>
      obtain ⟨head, rest, headPositive, headBound, same⟩ := induction positiveValue
      refine ⟨head, rest ++ [decimalDigit digit], headPositive, headBound, ?_⟩
      rw [format_nat_append value digit positiveValue bound, same, List.cons_append]

theorem format_nat_head_digit (value : Nat) :
    ∃ first rest, formatNat value = first :: rest ∧ isDigit first = true := by
  obtain ⟨first, rest, same⟩ := List.exists_cons_of_ne_nil (format_nat_ne_nil value)
  have digits := format_nat_digits value
  rw [same] at digits
  exact ⟨first, rest, same, by simpa using (List.all_eq_true.mp digits) first (by simp)⟩

theorem parse_int_format (value : Int) (lower : minInt64 ≤ value) (upper : value ≤ maxInt64) :
    parseInt64 (formatInt value) = some value := by
  cases value with
  | ofNat value =>
      obtain ⟨first, rest, same, digit⟩ := format_nat_head_digit value
      have notSign : first ≠ 45 ∧ first ≠ 43 := by
        constructor <;>
          · rintro rfl
            exact absurd digit (by decide)
      have magnitude := read_digits_format_nat value
      have digits := format_nat_digits value
      rw [same] at magnitude digits
      have lower' : minInt64 ≤ (value : Int) := lower
      have upper' : (value : Int) ≤ maxInt64 := upper
      simp only [formatInt, same, parseInt64, List.head?_cons, Option.some.injEq, notSign,
        or_self, if_false, magnitude, digits, beq_iff_eq, Int.ofNat_eq_natCast]
      simp [lower', upper']
  | negSucc value =>
      have magnitude := read_digits_format_nat (value + 1)
      have digits := format_nat_digits (value + 1)
      have nonempty := format_nat_ne_nil (value + 1)
      have same : -((value + 1 : Nat) : Int) = Int.negSucc value := by omega
      simp only [formatInt, parseInt64, List.head?_cons, List.tail_cons, true_or, if_true,
        magnitude, digits, beq_self_eq_true, same]
      simp [nonempty, lower, upper]

end Decimal

end ChatScale.ByteEncodings
