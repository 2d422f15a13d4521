import ChatScale.ByteEncodings

/-!
# Times as RFC 3339 spells them

A `Time` is the wall-clock reading and zone offset that a time prints as. JSON
has a text for the years 0 to 9999 and for offsets below a day, and formatting
drops trailing zeros of the fraction, as the nanosecond layout does. Parsing
takes more than formatting writes: an hour of one digit, a comma before the
fraction, and offsets up to 24:60, which have no text again.
-/

namespace ChatScale.CivilTime

open ChatScale.ByteText ChatScale.ByteEncodings

set_option autoImplicit false

def isLeap (year : Int) : Bool := year % 4 == 0 && (year % 100 != 0 || year % 400 == 0)

def daysIn (year : Int) (month : Nat) : Nat :=
  if month = 2 then (if isLeap year then 29 else 28)
  else if month = 4 ∨ month = 6 ∨ month = 9 ∨ month = 11 then 30
  else 31

structure Civil where
  year : Int
  month : Nat
  day : Nat
  hour : Nat
  minute : Nat
  second : Nat
  nanos : Nat
  /-- Seconds east of UTC. -/
  offset : Int
  deriving DecidableEq

def Civil.wellFormed (civil : Civil) : Prop :=
  (1 ≤ civil.month ∧ civil.month ≤ 12) ∧
    (1 ≤ civil.day ∧ civil.day ≤ daysIn civil.year civil.month) ∧
    civil.hour < 24 ∧ civil.minute < 60 ∧ civil.second < 60 ∧ civil.nanos < 1000000000

instance (civil : Civil) : Decidable civil.wellFormed := by
  unfold Civil.wellFormed
  infer_instance

structure Time where
  civil : Civil
  wellFormed : civil.wellFormed
  deriving DecidableEq

/-- `MarshalJSON` refuses the other times: "year outside of range" and "timezone
hour outside of range". -/
def Time.encodes (time : Time) : Bool :=
  decide (0 ≤ time.civil.year ∧ time.civil.year ≤ 9999) && decide (time.civil.offset.natAbs < 86400)

/-- The text of a time has no place for the seconds of its offset. -/
def Time.inMinutes (time : Time) : Time :=
  ⟨{ time.civil with offset := 60 * time.civil.offset.tdiv 60 }, time.wellFormed⟩

/-- The time has a text, and it is read back from it. -/
def Time.isExact (time : Time) : Bool := time.encodes && time.civil.offset % 60 == 0

/-- What a clock or a column of times reads. -/
structure Stamp extends Time where
  spelled : toTime.isExact = true
  deriving DecidableEq

/-- Days from 1 January of year 1 to 1 January of `year`. -/
def yearStart (year : Int) : Int :=
  let past : Int := year - 1
  365 * past + past / 4 - past / 100 + past / 400

def monthStart (year : Int) (month : Nat) : Nat :=
  ((List.range (month - 1)).map fun earlier => daysIn year (earlier + 1)).sum

/-- Nanoseconds since 1 January of year 1, 00:00 UTC. -/
def Time.instant (time : Time) : Int :=
  let civil := time.civil
  let day := yearStart civil.year + monthStart civil.year civil.month + (civil.day - 1)
  (((day * 24 + civil.hour) * 60 + civil.minute) * 60 + civil.second - civil.offset) *
    1000000000 + civil.nanos

/-- `time.Time.IsZero`. -/
def Time.isZero (time : Time) : Bool := time.instant == 0

def zeroTime : Time := ⟨⟨1, 1, 1, 0, 0, 0, 0, 0⟩, by decide⟩

def zeroStamp : Stamp := ⟨zeroTime, by decide⟩

/-- A column of times that takes only stamps. -/
def Time.stamp (time : Time) : Stamp :=
  if spelled : time.isExact = true then ⟨time, spelled⟩ else zeroStamp

/-- The time of the sample messages: 1 May 2024, 12:00 UTC. -/
def sampleTime : Stamp := ⟨⟨⟨2024, 5, 1, 12, 0, 0, 0, 0⟩, by decide⟩, by decide⟩

/-- The same time of day a whole day ahead of UTC, which does not encode. -/
def aheadTime : Time := ⟨⟨2024, 5, 1, 12, 0, 0, 0, 86400⟩, by decide⟩

example : Time.isZero zeroTime = true ∧
    Time.isZero ⟨⟨1, 1, 1, 2, 0, 0, 0, 7200⟩, by decide⟩ = true ∧
    Time.instant ⟨⟨1970, 1, 1, 0, 0, 0, 0, 0⟩, by decide⟩ = 62135596800 * 1000000000 := by
  decide +kernel

def fixedDigits : Nat → Nat → Bytes
  | 0, _ => []
  | width + 1, value => fixedDigits width (value / 10) ++ [decimalDigit (value % 10)]

def formatFraction (nanos : Nat) : Bytes :=
  if nanos = 0 then [] else 0x2E :: (fixedDigits 9 nanos).rdropWhile (· == 0x30)

/-- The sign is that of the whole minutes. -/
def formatZone (offset : Int) : Bytes :=
  if offset = 0 then [0x5A]
  else (if offset ≤ -60 then 0x2D else 0x2B) :: fixedDigits 2 (offset.natAbs / 3600) ++
    0x3A :: fixedDigits 2 (offset.natAbs / 60 % 60)

/-- `time.Time.Format(time.RFC3339Nano)`, for the years it writes with four
digits. -/
def Time.format (time : Time) : Bytes :=
  let civil := time.civil
  fixedDigits 4 civil.year.toNat ++ 0x2D :: (fixedDigits 2 civil.month ++ 0x2D ::
    (fixedDigits 2 civil.day ++ 0x54 :: (fixedDigits 2 civil.hour ++ 0x3A ::
      (fixedDigits 2 civil.minute ++ 0x3A :: (fixedDigits 2 civil.second ++
        (formatFraction civil.nanos ++ formatZone civil.offset))))))

def readFixed (width : Nat) (text : Bytes) : Option (Nat × Bytes) :=
  let digits := text.take width
  if digits.length = width ∧ digits.all isDigit = true then
    some (readDigits digits, text.drop width)
  else none

def expect (byte : UInt8) : Bytes → Option Bytes
  | [] => none
  | first :: rest => if first = byte then some rest else none

/-- The hour may have one digit. -/
def readHour (text : Bytes) : Option (Nat × Bytes) :=
  (readFixed 2 text).or (readFixed 1 text)

/-- A comma or a period with a digit after it starts a fraction. -/
def readFraction (text : Bytes) : Nat × Bytes :=
  let digits := text.tail.takeWhile isDigit
  if (text.head? = some 0x2E ∨ text.head? = some 0x2C) ∧ digits ≠ [] then
    (readDigits ((digits ++ List.replicate 9 0x30).take 9), text.tail.dropWhile isDigit)
  else (0, text)

/-- An offset of 24 hours, or one with 60 minutes, is still read. -/
def readZone : Bytes → Option Int
  | [] => none
  | sign :: rest =>
      if sign = 0x5A then (if rest = [] then some 0 else none)
      else do
        let hour ← readFixed 2 rest
        let afterColon ← expect 0x3A hour.2
        let minute ← readFixed 2 afterColon
        let total : Int := 60 * (60 * hour.1 + minute.1)
        if minute.2 = [] ∧ hour.1 ≤ 24 ∧ minute.1 ≤ 60 then
          (if sign = 0x2B then some total else if sign = 0x2D then some (-total) else none)
        else none

/-- `time.Parse(time.RFC3339, …)`, as `Time.UnmarshalJSON` calls it: the strict
checks behind it are disabled. -/
def parseTime (text : Bytes) : Option Time := do
  let year ← readFixed 4 text
  let month ← readFixed 2 (← expect 0x2D year.2)
  let day ← readFixed 2 (← expect 0x2D month.2)
  let hour ← readHour (← expect 0x54 day.2)
  let minute ← readFixed 2 (← expect 0x3A hour.2)
  let second ← readFixed 2 (← expect 0x3A minute.2)
  let fraction := readFraction second.2
  let offset ← readZone fraction.2
  let civil : Civil :=
    ⟨year.1, month.1, day.1, hour.1, minute.1, second.1, fraction.1, offset⟩
  if wellFormed : civil.wellFormed then some ⟨civil, wellFormed⟩ else none

example : parseTime (ascii "2024-02-29T23:59:59.120+05:30") =
    some ⟨⟨2024, 2, 29, 23, 59, 59, 120000000, 19800⟩, by decide⟩ ∧
    parseTime (ascii "2024-05-01T1:00:00,5+24:00") =
      some ⟨⟨2024, 5, 1, 1, 0, 0, 500000000, 86400⟩, by decide⟩ ∧
    parseTime (ascii "2023-02-29T00:00:00Z") = none := by decide +kernel

theorem fixed_digits_length (width value : Nat) : (fixedDigits width value).length = width := by
  induction width generalizing value with
  | zero => rfl
  | succ width induction => simp [fixedDigits, induction]

theorem fixed_digits_all (width value : Nat) : (fixedDigits width value).all isDigit = true := by
  induction width generalizing value with
  | zero => rfl
  | succ width induction =>
      have last := (decimal_digit_is_digit (value % 10) (Nat.mod_lt _ (by decide))).1
      simp [fixedDigits, last, induction (value / 10)]

theorem read_fixed_digits (width value : Nat) (bound : value < 10 ^ width) :
    readDigits (fixedDigits width value) = value := by
  induction width generalizing value with
  | zero =>
      rw [pow_zero] at bound
      rw [Nat.lt_one_iff.mp bound]
      rfl
  | succ width induction =>
      have small : value / 10 < 10 ^ width := by
        rw [pow_succ] at bound
        omega
      rw [fixedDigits, read_digits_append _ _ (Nat.mod_lt _ (by decide)), induction _ small]
      omega

theorem read_fixed_append (width value : Nat) (bound : value < 10 ^ width) (rest : Bytes) :
    readFixed width (fixedDigits width value ++ rest) = some (value, rest) := by
  have length := fixed_digits_length width value
  have taken : (fixedDigits width value ++ rest).take width = fixedDigits width value := by
    rw [List.take_append_of_le_length (by omega), List.take_of_length_le (by omega)]
  have dropped : (fixedDigits width value ++ rest).drop width = rest := by
    rw [List.drop_append_of_le_length (by omega), List.drop_of_length_le (by omega),
      List.nil_append]
  simp only [readFixed, taken, dropped, length, fixed_digits_all width value,
    read_fixed_digits width value bound, and_self, if_true]

/-- The trailing zeros that formatting drops. -/
theorem trim_zeros (digits : Bytes) :
    ∃ count, digits = digits.rdropWhile (· == 0x30) ++ List.replicate count 0x30 := by
  induction digits using List.reverseRecOn with
  | nil => exact ⟨0, rfl⟩
  | append_singleton digits last induction =>
      by_cases zero : last = 0x30
      · obtain ⟨count, same⟩ := induction
        refine ⟨count + 1, ?_⟩
        rw [List.rdropWhile_concat_pos _ _ _ (by simp [zero]), List.replicate_succ',
          ← List.append_assoc, ← same, zero]
      · exact ⟨0, by rw [List.rdropWhile_concat_neg _ _ _ (by simp [zero])]; simp⟩

theorem read_hour_format (value : Nat) (bound : value < 100) (rest : Bytes) :
    readHour (fixedDigits 2 value ++ rest) = some (value, rest) := by
  rw [readHour, read_fixed_append 2 value (by omega), Option.some_or]

theorem read_fraction_format (nanos : Nat) (bound : nanos < 1000000000) (rest : Bytes)
    (ends : ∀ byte ∈ rest.head?, isDigit byte = false ∧ byte ≠ 0x2E ∧ byte ≠ 0x2C) :
    readFraction (formatFraction nanos ++ rest) = (nanos, rest) := by
  unfold formatFraction
  split_ifs with zero
  · have plain : ¬(rest.head? = some 0x2E ∨ rest.head? = some 0x2C) := by
      rintro (period | comma)
      · exact (ends _ period).2.1 rfl
      · exact (ends _ comma).2.2 rfl
    rw [List.nil_append, readFraction, if_neg fun both => plain both.1, zero]
  · obtain ⟨count, same⟩ := trim_zeros (fixedDigits 9 nanos)
    generalize (fixedDigits 9 nanos).rdropWhile (· == 0x30) = trimmed at same ⊢
    have value := read_fixed_digits 9 nanos bound
    have length := fixed_digits_length 9 nanos
    have all := fixed_digits_all 9 nanos
    rw [same, List.length_append, List.length_replicate] at length
    rw [same, List.all_append, Bool.and_eq_true] at all
    have nonempty : trimmed ≠ [] := by
      rintro rfl
      have nine : count = 9 := by simpa using length
      rw [same, nine] at value
      exact zero (value.symm.trans (by decide))
    have padded : (trimmed ++ List.replicate 9 0x30).take 9 = fixedDigits 9 nanos := by
      rw [same, List.take_append, List.take_of_length_le (by omega), List.take_replicate]
      congr 2
      omega
    have inside := List.all_eq_true.mp all.1
    have stop : rest.takeWhile isDigit = [] ∧ rest.dropWhile isDigit = rest := by
      cases rest with
      | nil => exact ⟨rfl, rfl⟩
      | cons byte rest => simp [(ends byte rfl).1]
    have taken : (trimmed ++ rest).takeWhile isDigit = trimmed := by
      rw [List.takeWhile_append_of_pos inside, stop.1, List.append_nil]
    have dropped : (trimmed ++ rest).dropWhile isDigit = rest := by
      rw [List.dropWhile_append_of_pos inside, stop.2]
    simp only [readFraction, List.cons_append, List.head?_cons, List.tail_cons, taken, dropped,
      ne_eq, nonempty, not_false_eq_true, true_or, and_true, padded, value, if_true]

/-- A sign, two digits, a colon and two digits. -/
theorem read_zone_signed (sign : UInt8) (hours minutes : Nat) (hourBound : hours ≤ 24)
    (minuteBound : minutes ≤ 60) (notZ : sign ≠ 0x5A) :
    readZone (sign :: fixedDigits 2 hours ++ 0x3A :: fixedDigits 2 minutes) =
      if sign = 0x2B then some (60 * (60 * (hours : Int) + minutes))
      else if sign = 0x2D then some (-(60 * (60 * (hours : Int) + minutes))) else none := by
  have minute := read_fixed_append 2 minutes (by omega) []
  rw [List.append_nil] at minute
  simp only [readZone, List.cons_append, read_fixed_append 2 hours (by omega), expect, minute,
    Option.bind_eq_bind, Option.bind_some, hourBound, minuteBound, if_true, and_self, notZ,
    if_false]

/-- The minutes of an offset are rounded towards zero. -/
theorem offset_minutes (offset : Int) :
    offset.tdiv 60 = if 0 ≤ offset then offset / 60 else -(-offset / 60) := by
  have sign : Int.sign 60 = 1 := rfl
  rw [Int.tdiv_eq_ediv, sign]
  split_ifs <;> omega

theorem read_zone_format (offset : Int) (below : offset.natAbs < 86400) :
    readZone (formatZone offset) = some (60 * offset.tdiv 60) := by
  unfold formatZone
  split_ifs with zero negative
  · rw [zero]
    rfl
  · rw [read_zone_signed 0x2D _ _ (by omega) (by omega) (by decide), if_neg (by decide),
      if_pos rfl, offset_minutes, if_neg (by omega)]
    congr 1
    omega
  · rw [read_zone_signed 0x2B _ _ (by omega) (by omega) (by decide), if_pos rfl, offset_minutes]
    congr 1
    split_ifs <;> omega

theorem format_zone_head (offset : Int) :
    ∀ byte ∈ (formatZone offset).head?, isDigit byte = false ∧ byte ≠ 0x2E ∧ byte ≠ 0x2C := by
  intro byte member
  unfold formatZone at member
  split_ifs at member with zero negative <;> cases member <;> decide

/-- The years and offsets that have a text. -/
theorem encodes_bounds {time : Time} (encodes : time.encodes = true) :
    (0 ≤ time.civil.year ∧ time.civil.year ≤ 9999) ∧ time.civil.offset.natAbs < 86400 := by
  simpa only [Time.encodes, Bool.and_eq_true, decide_eq_true_eq] using encodes

/-- The time that is read from the text of a time. -/
theorem parse_time_format {time : Time} (encodes : time.encodes = true) :
    parseTime time.format = some time.inMinutes := by
  obtain ⟨years, below⟩ := encodes_bounds encodes
  obtain ⟨civil, wellFormed⟩ := time
  have fields := wellFormed
  obtain ⟨month, day, hour, minute, second, nanos⟩ := fields
  have days : daysIn civil.year civil.month ≤ 31 := by
    unfold daysIn
    split_ifs <;> omega
  have fraction := read_fraction_format civil.nanos nanos (formatZone civil.offset)
    (format_zone_head civil.offset)
  have zone := read_zone_format civil.offset below
  have year : ((civil.year.toNat : Nat) : Int) = civil.year := Int.toNat_of_nonneg years.1
  have skip (byte : UInt8) (rest : Bytes) : expect byte (byte :: rest) = some rest := if_pos rfl
  have next {Kind Result : Type} (value : Kind) (following : Kind → Option Result) :
      (some value >>= following) = following value := rfl
  dsimp only at years
  rw [parseTime, Time.format]
  rw [read_fixed_append 4 civil.year.toNat (by omega), next, skip, next,
    read_fixed_append 2 civil.month (by omega), next, skip, next,
    read_fixed_append 2 civil.day (by omega), next, skip, next,
    read_hour_format civil.hour (by omega), next, skip, next,
    read_fixed_append 2 civil.minute (by omega), next, skip, next,
    read_fixed_append 2 civil.second (by omega), next]
  dsimp only
  rw [fraction, zone, next]
  simp only [year]
  exact dif_pos (Time.inMinutes ⟨civil, wellFormed⟩).wellFormed

theorem exact_encodes {time : Time} (spelled : time.isExact = true) : time.encodes = true := by
  rw [Time.isExact, Bool.and_eq_true] at spelled
  exact spelled.1

theorem exact_in_minutes {time : Time} (spelled : time.isExact = true) : time.inMinutes = time := by
  have whole : time.civil.offset % 60 = 0 := by
    rw [Time.isExact, Bool.and_eq_true, beq_iff_eq] at spelled
    exact spelled.2
  have same : 60 * time.civil.offset.tdiv 60 = time.civil.offset := by
    rw [offset_minutes]
    split_ifs <;> omega
  simp only [Time.inMinutes, same]

theorem parse_exact_format {time : Time} (spelled : time.isExact = true) :
    parseTime time.format = some time := by
  rw [parse_time_format (exact_encodes spelled), exact_in_minutes spelled]

end ChatScale.CivilTime
