import Mathlib.Data.List.Basic
import Mathlib.Data.List.DropRight
import Mathlib.Data.List.TakeWhile
import Mathlib.Data.Nat.Digits.Defs

/-!
# Byte strings and their UTF-8 reading

Strings are byte lists. `runes` cuts a byte string the way a forgiving UTF-8
reader does: an ASCII byte, a well-formed sequence of two to four bytes, or a
single byte that starts no such sequence. Nothing is lost by the cut, and a
string is valid exactly when no byte had to stand alone.
-/

namespace ChatScale.ByteText

set_option autoImplicit false

abbrev Bytes := List UInt8

def ascii (text : String) : Bytes :=
  text.toList.map fun character => UInt8.ofNat character.toNat

def isTail (byte : UInt8) : Bool := 0x80 ≤ byte && byte ≤ 0xBF

def isTwoByte (first second : UInt8) : Bool :=
  0xC2 ≤ first && first ≤ 0xDF && isTail second

def isThreeByte (first second third : UInt8) : Bool :=
  ((first == 0xE0 && 0xA0 ≤ second && second ≤ 0xBF) ||
    (0xE1 ≤ first && first ≤ 0xEC && isTail second) ||
    (first == 0xED && 0x80 ≤ second && second ≤ 0x9F) ||
    (0xEE ≤ first && first ≤ 0xEF && isTail second)) && isTail third

def isFourByte (first second third fourth : UInt8) : Bool :=
  ((first == 0xF0 && 0x90 ≤ second && second ≤ 0xBF) ||
    (0xF1 ≤ first && first ≤ 0xF3 && isTail second) ||
    (first == 0xF4 && 0x80 ≤ second && second ≤ 0x8F)) && isTail third && isTail fourth

/-- The well-formed sequences of more than one byte. -/
def isMultiByte : Bytes → Bool
  | [first, second] => isTwoByte first second
  | [first, second, third] => isThreeByte first second third
  | [first, second, third, fourth] => isFourByte first second third fourth
  | _ => false

inductive Rune where
  | ascii (byte : UInt8) (small : byte < 0x80)
  | multi (sequence : Bytes) (wellFormed : isMultiByte sequence = true)
  | stray (byte : UInt8) (large : ¬byte < 0x80)

def Rune.bytes : Rune → Bytes
  | .ascii byte _ => [byte]
  | .multi sequence _ => sequence
  | .stray byte _ => [byte]

def Rune.isStray : Rune → Bool
  | .stray _ _ => true
  | _ => false

def runes : Bytes → List Rune
  | [] => []
  | first :: afterFirst =>
      if small : first < 0x80 then .ascii first small :: runes afterFirst
      else match afterFirst with
        | [] => [.stray first small]
        | second :: afterSecond =>
            if two : isMultiByte [first, second] then
              .multi [first, second] two :: runes afterSecond
            else match afterSecond with
              | [] => .stray first small :: runes [second]
              | third :: afterThird =>
                  if three : isMultiByte [first, second, third] then
                    .multi [first, second, third] three :: runes afterThird
                  else match afterThird with
                    | [] => .stray first small :: runes [second, third]
                    | fourth :: afterFourth =>
                        if four : isMultiByte [first, second, third, fourth] then
                          .multi [first, second, third, fourth] four :: runes afterFourth
                        else .stray first small :: runes (second :: third :: fourth :: afterFourth)

def isValidUtf8 (text : Bytes) : Bool := (runes text).all fun rune => !rune.isStray

theorem runes_bytes (text : Bytes) : (runes text).flatMap Rune.bytes = text := by
  fun_induction runes text <;> simp_all [Rune.bytes]

theorem multi_byte_first_large {first : UInt8} {rest : Bytes}
    (wellFormed : isMultiByte (first :: rest) = true) : ¬first < 0x80 := by
  match rest, wellFormed with
  | [second], wellFormed => grind [isMultiByte, isTwoByte]
  | [second, third], wellFormed => grind [isMultiByte, isThreeByte]
  | [second, third, fourth], wellFormed => grind [isMultiByte, isFourByte]

theorem runes_ascii_append {byte : UInt8} (small : byte < 0x80) (rest : Bytes) :
    runes (byte :: rest) = .ascii byte small :: runes rest := by
  rw [runes, dif_pos small]

theorem runes_multi_append {sequence : Bytes} (wellFormed : isMultiByte sequence = true)
    (rest : Bytes) :
    runes (sequence ++ rest) = .multi sequence wellFormed :: runes rest := by
  match sequence, wellFormed with
  | [first, second], two =>
      have large := multi_byte_first_large two
      simp [runes, large, two]
  | [first, second, third], three =>
      have large := multi_byte_first_large three
      have notTwo : ¬isMultiByte [first, second] = true := by
        grind [isMultiByte, isTwoByte, isThreeByte]
      simp [runes, large, notTwo, three]
  | [first, second, third, fourth], four =>
      have large := multi_byte_first_large four
      have notTwo : ¬isMultiByte [first, second] = true := by
        grind [isMultiByte, isTwoByte, isFourByte]
      have notThree : ¬isMultiByte [first, second, third] = true := by
        grind [isMultiByte, isThreeByte, isFourByte]
      simp [runes, large, notTwo, notThree, four]

theorem runes_large {first : UInt8} (large : ¬first < 0x80) (rest : Bytes) :
    ∃ rune after, runes (first :: rest) = rune :: runes after ∧
      first :: rest = rune.bytes ++ after ∧
      (rune = .stray first large ∨
        ∃ sequence wellFormed, rune = .multi sequence wellFormed) := by
  rw [runes.eq_def]
  simp only [large, dif_neg, not_false_eq_true]
  split
  · exact ⟨_, [], rfl, rfl, .inl rfl⟩
  · split
    · exact ⟨_, _, rfl, rfl, .inr ⟨_, _, rfl⟩⟩
    · split
      · exact ⟨_, _, rfl, rfl, .inl rfl⟩
      · split
        · exact ⟨_, _, rfl, rfl, .inr ⟨_, _, rfl⟩⟩
        · split
          · exact ⟨_, _, rfl, rfl, .inl rfl⟩
          · split
            · exact ⟨_, _, rfl, rfl, .inr ⟨_, _, rfl⟩⟩
            · exact ⟨_, _, rfl, rfl, .inl rfl⟩

/-- Reading the bytes of runes that all stand for characters gives the runes
back: no byte of one sequence can be taken into its neighbour. -/
theorem runes_flat_map (characters : List Rune)
    (clean : ∀ rune ∈ characters, rune.isStray = false) :
    runes (characters.flatMap Rune.bytes) = characters := by
  induction characters with
  | nil => rfl
  | cons rune characters induction =>
      have tail := induction fun other member => clean other (by simp [member])
      rw [List.flatMap_cons]
      cases rune with
      | ascii byte small =>
          rw [Rune.bytes, List.singleton_append, runes_ascii_append small, tail]
      | multi sequence wellFormed =>
          rw [Rune.bytes, runes_multi_append wellFormed, tail]
      | stray byte large => simpa [Rune.isStray] using clean (.stray byte large) (by simp)

/-- Reading takes one character off the front. -/
theorem runes_cons {text : Bytes} {rune : Rune} {others : List Rune}
    (read : runes text = rune :: others) :
    ∃ rest, text = rune.bytes ++ rest ∧ others = runes rest := by
  cases text with
  | nil => cases read
  | cons first rest =>
      by_cases small : first < 0x80
      · rw [runes_ascii_append small] at read
        cases read
        exact ⟨rest, rfl, rfl⟩
      · obtain ⟨character, after, same, split, _⟩ := runes_large small rest
        cases same.symm.trans read
        exact ⟨after, split, rfl⟩

/-- The last characters of a text are read in the same way on their own. -/
theorem runes_back {text : Bytes} {front back : List Rune} (read : runes text = front ++ back) :
    runes (back.flatMap Rune.bytes) = back := by
  induction front generalizing text with
  | nil =>
      rw [List.nil_append] at read
      rw [← read, runes_bytes]
  | cons rune front induction =>
      obtain ⟨rest, _, others⟩ := runes_cons read
      exact induction others.symm

/-- So are the first ones: a byte that stands for nothing with all that follows
it stands for nothing with less. -/
theorem runes_front {text : Bytes} {front back : List Rune} (read : runes text = front ++ back) :
    runes (front.flatMap Rune.bytes) = front := by
  induction front generalizing text with
  | nil => rfl
  | cons rune front induction =>
      obtain ⟨rest, split, others⟩ := runes_cons read
      have tail := induction others.symm
      rw [List.flatMap_cons]
      cases rune with
      | ascii byte small => rw [Rune.bytes, List.singleton_append, runes_ascii_append small, tail]
      | multi sequence wellFormed => rw [Rune.bytes, runes_multi_append wellFormed, tail]
      | stray byte large =>
          rw [Rune.bytes, List.singleton_append]
          obtain ⟨character, after, same, shorter, kind⟩ :=
            runes_large large (front.flatMap Rune.bytes)
          rcases kind with rfl | ⟨sequence, wellFormed, rfl⟩
          · rw [Rune.bytes, List.singleton_append, List.cons.injEq] at shorter
            rw [same, ← shorter.2, tail]
          · -- then the sequence would have been read in the longer text
            have whole : text = sequence ++ (after ++ back.flatMap Rune.bytes) := by
              have bytes := runes_bytes text
              rw [read, List.flatMap_append, List.flatMap_cons, Rune.bytes, List.singleton_append,
                shorter, Rune.bytes, List.append_assoc] at bytes
              exact bytes.symm
            rw [whole, runes_multi_append wellFormed] at read
            cases read

/-- The replacement character U+FFFD. -/
def replacement : Bytes := [0xEF, 0xBF, 0xBD]

def Rune.repaired : Rune → Rune
  | .stray _ _ => .multi replacement rfl
  | rune => rune

/-- Every stray byte replaced by U+FFFD, as a decoder of quoted text does. -/
def toValidUtf8 (text : Bytes) : Bytes := (runes text).flatMap fun rune => rune.repaired.bytes

theorem runes_to_valid_utf8 (text : Bytes) :
    runes (toValidUtf8 text) = (runes text).map Rune.repaired := by
  have flat : toValidUtf8 text = ((runes text).map Rune.repaired).flatMap Rune.bytes := by
    rw [toValidUtf8, List.flatMap_map]
  rw [flat]
  apply runes_flat_map
  intro rune member
  obtain ⟨original, _, rfl⟩ := List.mem_map.mp member
  cases original <;> rfl

theorem repaired_of_not_stray {rune : Rune} (clean : rune.isStray = false) :
    rune.repaired = rune := by
  cases rune with
  | ascii byte small => rfl
  | multi sequence wellFormed => rfl
  | stray byte large => cases clean

theorem runes_clean {text : Bytes} (valid : isValidUtf8 text = true) :
    ∀ rune ∈ runes text, rune.isStray = false := by
  intro rune member
  simpa using List.all_eq_true.mp valid rune member

theorem to_valid_utf8_of_valid {text : Bytes} (valid : isValidUtf8 text = true) :
    toValidUtf8 text = text := by
  have same : ∀ rune ∈ runes text, rune.repaired.bytes = rune.bytes := by
    intro rune member
    rw [repaired_of_not_stray (runes_clean valid rune member)]
  rw [toValidUtf8, List.flatMap_congr same, runes_bytes]

theorem to_valid_utf8_idempotent (text : Bytes) :
    toValidUtf8 (toValidUtf8 text) = toValidUtf8 text := by
  have twice (rune : Rune) : rune.repaired.repaired = rune.repaired := by cases rune <;> rfl
  rw [toValidUtf8, runes_to_valid_utf8, List.flatMap_map]
  simp only [twice]
  rfl

def Rune.isSpace : Rune → Bool
  | .ascii byte _ => (9 ≤ byte && byte ≤ 13) || byte == 32
  | .multi sequence _ =>
      -- U+0085, U+00A0, U+1680, U+2000..U+200A, U+2028, U+2029, U+202F, U+205F, U+3000
      sequence == [0xC2, 0x85] || sequence == [0xC2, 0xA0] ||
      sequence == [0xE1, 0x9A, 0x80] ||
      (match sequence with
        | [0xE2, 0x80, third] => third ≤ 0x8A || third == 0xA8 || third == 0xA9 || third == 0xAF
        | _ => false) ||
      sequence == [0xE2, 0x81, 0x9F] || sequence == [0xE3, 0x80, 0x80]
  | .stray _ _ => false

/-- `strings.TrimSpace`. -/
def trimSpace (text : Bytes) : Bytes :=
  (((runes text).dropWhile Rune.isSpace).rdropWhile Rune.isSpace).flatMap Rune.bytes

def isBlank (text : Bytes) : Bool := trimSpace text == []

theorem not_blank_of_head {first : UInt8} {rest : Bytes} (printable : 32 < first)
    (small : first < 0x80) : isBlank (first :: rest) = false := by
  have solid : (Rune.ascii first small).isSpace = false := by
    grind [Rune.isSpace]
  have dropped : (runes (first :: rest)).dropWhile Rune.isSpace =
      .ascii first small :: runes rest := by
    rw [runes_ascii_append small, List.dropWhile_cons_of_neg (by simp [solid])]
  rw [isBlank, trimSpace, dropped, beq_eq_false_iff_ne]
  cases kept : (Rune.ascii first small :: runes rest).rdropWhile Rune.isSpace with
  | nil =>
      have all := List.rdropWhile_eq_nil_iff.mp kept (.ascii first small) (by simp)
      rw [solid] at all
      cases all
  | cons rune others =>
      have same := (List.rdropWhile_prefix Rune.isSpace (Rune.ascii first small :: runes rest))
      rw [kept, List.cons_prefix_cons] at same
      rw [same.1]
      simp [Rune.bytes]

/-- The characters `TrimSpace` keeps. -/
def trimmedRunes (text : Bytes) : List Rune :=
  ((runes text).dropWhile Rune.isSpace).rdropWhile Rune.isSpace

theorem trimmed_runes_between (text : Bytes) :
    ∃ front back, runes text = front ++ trimmedRunes text ++ back := by
  obtain ⟨front, dropped⟩ := List.dropWhile_suffix (l := runes text) Rune.isSpace
  obtain ⟨back, kept⟩ := List.rdropWhile_prefix Rune.isSpace ((runes text).dropWhile Rune.isSpace)
  refine ⟨front, back, ?_⟩
  rw [trimmedRunes, List.append_assoc, kept, dropped]

theorem runes_trim_space (text : Bytes) : runes (trimSpace text) = trimmedRunes text := by
  obtain ⟨front, back, read⟩ := trimmed_runes_between text
  rw [List.append_assoc] at read
  exact runes_front (runes_back read)

theorem trim_space_subset {text : Bytes} {byte : UInt8} (listed : byte ∈ trimSpace text) :
    byte ∈ text := by
  obtain ⟨front, back, read⟩ := trimmed_runes_between text
  have bytes := runes_bytes text
  rw [read, List.flatMap_append, List.flatMap_append] at bytes
  rw [← bytes]
  exact List.mem_append_left _ (List.mem_append_right _ listed)

theorem trim_space_idempotent (text : Bytes) : trimSpace (trimSpace text) = trimSpace text := by
  have stable : ((trimmedRunes text).dropWhile Rune.isSpace) = trimmedRunes text := by
    cases kept : trimmedRunes text with
    | nil => rfl
    | cons rune others =>
        obtain ⟨back, dropped⟩ :=
          List.rdropWhile_prefix Rune.isSpace ((runes text).dropWhile Rune.isSpace)
        rw [← trimmedRunes, kept, List.cons_append] at dropped
        have nonempty : (runes text).dropWhile Rune.isSpace ≠ [] := by
          rw [← dropped]
          exact List.cons_ne_nil _ _
        have solid := List.head_dropWhile_not Rune.isSpace nonempty
        simp only [← dropped, List.head_cons] at solid
        rw [List.dropWhile_cons_of_neg (by simp [solid])]
  rw [trimSpace, runes_trim_space, stable, trimmedRunes, List.rdropWhile_idempotent]
  rfl

end ChatScale.ByteText
