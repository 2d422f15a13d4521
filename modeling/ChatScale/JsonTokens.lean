import ChatScale.JsonLiterals
import Mathlib.Algebra.Order.Field.Rat

/-!
# The tokens of a JSON text

`lex` cuts a text into tokens and keeps every byte of it, white space included,
so that a stretch of tokens still spells the stretch of text it came from. A
text that can be cut at all can be cut in one way only.
-/

namespace ChatScale.JsonTokens

open ChatScale.ByteText ChatScale.ByteEncodings ChatScale.JsonLiterals

set_option autoImplicit false

def isWhitespace (byte : UInt8) : Bool :=
  byte == 0x20 || byte == 0x09 || byte == 0x0A || byte == 0x0D

def isNumberByte (byte : UInt8) : Bool :=
  isDigit byte || byte == 0x2B || byte == 0x2D || byte == 0x2E || byte == 0x65 || byte == 0x45

def dropSign : Bytes → Bytes
  | [] => []
  | sign :: rest => if sign = 0x2B ∨ sign = 0x2D then rest else sign :: rest

def isExponent : Bytes → Bool
  | [] => true
  | mark :: rest =>
      (mark == 0x65 || mark == 0x45) && dropSign rest != [] && (dropSign rest).all isDigit

def isFraction : Bytes → Bool
  | [] => true
  | point :: rest =>
      if point = 0x2E then
        rest.takeWhile isDigit != [] && isExponent (rest.dropWhile isDigit)
      else isExponent (point :: rest)

def isUnsigned : Bytes → Bool
  | [] => false
  | first :: rest =>
      if first = 0x30 then isFraction rest
      else isDigit first && isFraction (rest.dropWhile isDigit)

def isSigned : Bytes → Bool
  | [] => false
  | sign :: rest => if sign = 0x2D then isUnsigned rest else isUnsigned (sign :: rest)

/-- The number grammar, over the bytes a number can consist of. -/
def isNumberLiteral (text : Bytes) : Bool := text.all isNumberByte && isSigned text

structure NumberLiteral where
  text : Bytes
  wellFormed : isNumberLiteral text = true
  deriving DecidableEq

def exponentValue (text : Bytes) : Int :=
  match text with
  | [] => 0
  | _ :: rest =>
      let magnitude : Int := readDigits (dropSign rest)
      if rest.head? = some 0x2D then -magnitude else magnitude

/-- The number a literal stands for. -/
def NumberLiteral.value (literal : NumberLiteral) : Rat :=
  let unsigned := if literal.text.head? = some 0x2D then literal.text.tail else literal.text
  let whole := unsigned.takeWhile isDigit
  let afterWhole := unsigned.dropWhile isDigit
  let hasFraction := afterWhole.head? = some 0x2E
  let fraction := if hasFraction then afterWhole.tail.takeWhile isDigit else []
  let exponent :=
    exponentValue (if hasFraction then afterWhole.tail.dropWhile isDigit else afterWhole)
  let magnitude : Rat :=
    (readDigits (whole ++ fraction) : Rat) * (10 : Rat) ^ (exponent - fraction.length)
  if literal.text.head? = some 0x2D then -magnitude else magnitude

example : NumberLiteral.value ⟨ascii "-12.50e-1", by decide⟩ = -5 / 4 := by decide +kernel

inductive Mark where
  | beginObject
  | endObject
  | beginArray
  | endArray
  | colon
  | comma
  deriving DecidableEq

def Mark.byte : Mark → UInt8
  | .beginObject => 0x7B
  | .endObject => 0x7D
  | .beginArray => 0x5B
  | .endArray => 0x5D
  | .colon => 0x3A
  | .comma => 0x2C

def markOf (byte : UInt8) : Option Mark :=
  [Mark.beginObject, .endObject, .beginArray, .endArray, .colon, .comma].find?
    fun mark => mark.byte == byte

inductive Word where
  | null
  | bool (value : Bool)
  deriving DecidableEq

/-- The bytes of `null`, `false` and `true`. -/
def Word.text : Word → Bytes
  | .null => [0x6E, 0x75, 0x6C, 0x6C]
  | .bool false => [0x66, 0x61, 0x6C, 0x73, 0x65]
  | .bool true => [0x74, 0x72, 0x75, 0x65]

inductive Token where
  | space (byte : UInt8) (white : isWhitespace byte = true)
  | mark (mark : Mark)
  | word (word : Word)
  | number (literal : NumberLiteral)
  | string (literal : StringLiteral)
  deriving DecidableEq

def Token.text : Token → Bytes
  | .space byte _ => [byte]
  | .mark sign => [sign.byte]
  | .word name => name.text
  | .number literal => literal.text
  | .string literal => quoteMark :: literal.text ++ [quoteMark]

def spell (tokens : List Token) : Bytes := tokens.flatMap Token.text

/-- The text up to the first quotation mark that no backslash precedes. -/
def scanString : Bytes → Option (Bytes × Bytes)
  | [] => none
  | first :: rest =>
      if first = quoteMark then some ([], rest)
      else if first = backslash then
        match rest with
        | [] => none
        | escaped :: afterEscape =>
            (scanString afterEscape).map fun scanned =>
              (first :: escaped :: scanned.1, scanned.2)
      else (scanString rest).map fun scanned => (first :: scanned.1, scanned.2)

def lexString (text : Bytes) : Option (Token × Bytes) := do
  let scanned ← scanString text
  if wellFormed : isLiteral scanned.1 = true then
    some (.string ⟨scanned.1, wellFormed⟩, scanned.2)
  else none

def lexNumber (text : Bytes) : Option (Token × Bytes) :=
  if wellFormed : isNumberLiteral (text.takeWhile isNumberByte) = true then
    some (.number ⟨text.takeWhile isNumberByte, wellFormed⟩, text.dropWhile isNumberByte)
  else none

def lexWord (text : Bytes) : Option (Token × Bytes) :=
  [Word.null, .bool false, .bool true].findSome? fun word =>
    (text.dropPrefix? word.text).map fun rest => (.word word, rest)

def lexToken : Bytes → Option (Token × Bytes)
  | [] => none
  | first :: rest =>
      if white : isWhitespace first = true then some (.space first white, rest)
      else match markOf first with
        | some mark => some (.mark mark, rest)
        | none =>
            if first = quoteMark then lexString rest
            else if isNumberByte first then lexNumber (first :: rest)
            else lexWord (first :: rest)

def lexFuel : Nat → Bytes → Option (List Token)
  | _, [] => some []
  | 0, _ :: _ => none
  | fuel + 1, first :: rest => do
      let scanned ← lexToken (first :: rest)
      let tokens ← lexFuel fuel scanned.2
      some (scanned.1 :: tokens)

/-- Every token takes at least one byte, so the length is fuel enough. -/
def lex (text : Bytes) : Option (List Token) := lexFuel text.length text

section Scanning

theorem scan_string_plain {first : UInt8} (rest : Bytes) (notQuote : first ≠ quoteMark)
    (plain : first ≠ backslash) :
    scanString (first :: rest) =
      (scanString rest).map fun scanned => (first :: scanned.1, scanned.2) := by
  rw [scanString.eq_def]
  simp [notQuote, plain]

theorem scan_string_escape (escaped : UInt8) (rest : Bytes) :
    scanString (backslash :: escaped :: rest) =
      (scanString rest).map fun scanned => (backslash :: escaped :: scanned.1, scanned.2) := by
  rw [scanString.eq_def]
  simp [show backslash ≠ quoteMark by decide]

theorem scan_string_sound {text literal rest : Bytes}
    (scanned : scanString text = some (literal, rest)) : text = literal ++ quoteMark :: rest := by
  fun_induction scanString text generalizing literal rest with
  | case1 => cases scanned
  | case2 rest => cases scanned; rfl
  | case3 => cases scanned
  | case4 notQuote escaped afterEscape induction =>
      obtain ⟨⟨inner, after⟩, found, same⟩ := Option.map_eq_some_iff.mp scanned
      cases same
      rw [induction found]
      rfl
  | case5 first afterFirst notQuote plain induction =>
      obtain ⟨⟨inner, after⟩, found, same⟩ := Option.map_eq_some_iff.mp scanned
      cases same
      rw [induction found]
      rfl

theorem hex_not_special {byte : UInt8} (hex : isHex byte = true) :
    byte ≠ quoteMark ∧ byte ≠ backslash := by
  constructor
  · rintro rfl
    cases hex
  · rintro rfl
    cases hex

theorem scan_string_literal {literal : Bytes} (wellFormed : isLiteral literal = true)
    (rest : Bytes) : scanString (literal ++ quoteMark :: rest) = some (literal, rest) := by
  induction length : literal.length using Nat.strong_induction_on generalizing literal with
  | _ size induction =>
      match literal with
      | [] => rw [List.nil_append, scanString.eq_def]; simp
      | first :: after =>
          rcases is_literal_cases wellFormed with
            ⟨one, two, three, four, after, rfl, rfl, hexOne, hexTwo, hexThree, hexFour, tail⟩ |
            ⟨escaped, after, rfl, rfl, _, _, tail⟩ | ⟨plain, notQuote, _, tail⟩
          · have shorter : after.length < size := by
              simp only [← length, List.length_cons]
              omega
            have scanned := induction after.length shorter tail rfl
            simp only [List.cons_append, scan_string_escape,
              scan_string_plain _ (hex_not_special hexOne).1 (hex_not_special hexOne).2,
              scan_string_plain _ (hex_not_special hexTwo).1 (hex_not_special hexTwo).2,
              scan_string_plain _ (hex_not_special hexThree).1 (hex_not_special hexThree).2,
              scan_string_plain _ (hex_not_special hexFour).1 (hex_not_special hexFour).2,
              scanned, Option.map_some]
          · have shorter : after.length < size := by
              simp only [← length, List.length_cons]
              omega
            have scanned := induction after.length shorter tail rfl
            simp only [List.cons_append, scan_string_escape, scanned, Option.map_some]
          · have scanned := induction after.length (by rw [← length]; simp) tail rfl
            rw [List.cons_append, scan_string_plain _ notQuote plain, scanned]
            rfl

theorem lex_string_literal (literal : StringLiteral) (rest : Bytes) :
    lexString (literal.text ++ quoteMark :: rest) = some (.string literal, rest) := by
  simp [lexString, scan_string_literal literal.wellFormed, literal.wellFormed]

theorem lex_string_sound {text rest : Bytes} {token : Token}
    (scanned : lexString text = some (token, rest)) :
    ∃ literal, token = .string literal ∧ text = literal.text ++ quoteMark :: rest := by
  simp only [lexString, Option.bind_eq_bind, Option.bind_eq_some_iff] at scanned
  obtain ⟨⟨inner, after⟩, found, same⟩ := scanned
  split at same
  · cases same
    exact ⟨_, rfl, scan_string_sound found⟩
  · cases same

/-- What follows does not continue a number. -/
def endsNumber (rest : Bytes) : Prop := ∀ byte ∈ rest.head?, isNumberByte byte = false

theorem take_number {literal rest : Bytes} (all : literal.all isNumberByte = true)
    (ends : endsNumber rest) :
    (literal ++ rest).takeWhile isNumberByte = literal ∧
      (literal ++ rest).dropWhile isNumberByte = rest := by
  have stop : rest.takeWhile isNumberByte = [] ∧ rest.dropWhile isNumberByte = rest := by
    cases rest with
    | nil => exact ⟨rfl, rfl⟩
    | cons byte rest => simp [ends byte rfl]
  have inside := List.all_eq_true.mp all
  constructor
  · rw [List.takeWhile_append_of_pos inside, stop.1, List.append_nil]
  · rw [List.dropWhile_append_of_pos inside, stop.2]

theorem number_literal_bytes (literal : NumberLiteral) :
    literal.text ≠ [] ∧ literal.text.all isNumberByte = true := by
  have wellFormed := literal.wellFormed
  simp only [isNumberLiteral, Bool.and_eq_true] at wellFormed
  refine ⟨?_, wellFormed.1⟩
  intro empty
  rw [empty] at wellFormed
  cases wellFormed.2

theorem lex_number_literal (literal : NumberLiteral) {rest : Bytes} (ends : endsNumber rest) :
    lexNumber (literal.text ++ rest) = some (.number literal, rest) := by
  obtain ⟨taken, dropped⟩ := take_number (number_literal_bytes literal).2 ends
  simp only [lexNumber, taken, dropped, literal.wellFormed, dif_pos]

theorem lex_number_sound {text rest : Bytes} {token : Token}
    (scanned : lexNumber text = some (token, rest)) :
    ∃ literal, token = .number literal ∧ text = literal.text ++ rest ∧ endsNumber rest := by
  unfold lexNumber at scanned
  split at scanned
  · cases scanned
    refine ⟨_, rfl, (List.takeWhile_append_dropWhile).symm, ?_⟩
    intro byte member
    have stop := List.head?_dropWhile_not isNumberByte text
    rw [Option.mem_def.mp member] at stop
    exact stop
  · cases scanned

theorem lex_word_sound {text rest : Bytes} {token : Token}
    (scanned : lexWord text = some (token, rest)) :
    ∃ word, token = .word word ∧ text = word.text ++ rest := by
  obtain ⟨word, _, found⟩ := List.exists_of_findSome?_eq_some scanned
  obtain ⟨after, stripped, same⟩ := Option.map_eq_some_iff.mp found
  cases same
  obtain ⟨spelled, split, matched⟩ := List.dropPrefix?_eq_some_iff.mp stripped
  rw [eq_of_beq matched] at split
  exact ⟨word, rfl, split⟩

theorem lex_word_text (name : Word) (rest : Bytes) :
    lexWord (name.text ++ rest) = some (.word name, rest) := by
  cases name with
  | null => simp [lexWord, Word.text, List.dropPrefix?]
  | bool value => cases value <;> simp [lexWord, Word.text, List.dropPrefix?]

/-- A number token ends where no number byte follows; the other tokens end
wherever they end. -/
def Token.fits (token : Token) (rest : Bytes) : Prop :=
  match token with
  | .number _ => endsNumber rest
  | _ => True

theorem lex_token_sound {text rest : Bytes} {token : Token}
    (scanned : lexToken text = some (token, rest)) :
    text = token.text ++ rest ∧ token.fits rest := by
  match text with
  | [] => cases scanned
  | first :: after =>
      rw [lexToken] at scanned
      split at scanned
      · cases scanned
        exact ⟨rfl, trivial⟩
      · split at scanned
        · rename_i sign found
          cases scanned
          have same := List.find?_some found
          rw [Token.text, eq_of_beq same]
          exact ⟨rfl, trivial⟩
        · split_ifs at scanned with quoted number
          · obtain ⟨literal, rfl, split⟩ := lex_string_sound scanned
            rw [quoted, split]
            exact ⟨by simp [Token.text], trivial⟩
          · obtain ⟨literal, rfl, split, ends⟩ := lex_number_sound scanned
            exact ⟨split, ends⟩
          · obtain ⟨word, rfl, split⟩ := lex_word_sound scanned
            exact ⟨split, trivial⟩

theorem number_byte_head {byte : UInt8} (number : isNumberByte byte = true) :
    isWhitespace byte = false ∧ markOf byte = none ∧ byte ≠ quoteMark := by
  have notMark (sign : Mark) : sign.byte ≠ byte := by
    rintro rfl
    cases sign <;> cases number
  refine ⟨?_, ?_, ?_⟩
  · grind [isNumberByte, isWhitespace, isDigit]
  · simp [markOf, notMark]
  · rintro rfl
    cases number

theorem lex_token_text (token : Token) (rest : Bytes) (fits : token.fits rest) :
    lexToken (token.text ++ rest) = some (token, rest) := by
  cases token with
  | space byte white => simp [Token.text, lexToken, white]
  | mark sign => cases sign <;> rfl
  | word name =>
      rw [Token.text, ← lex_word_text name rest]
      cases name with
      | null => rfl
      | bool value => cases value <;> rfl
  | string literal =>
      have scanned := lex_string_literal literal rest
      simp only [Token.text, List.cons_append, List.append_assoc]
      rw [lexToken]
      simpa [show isWhitespace quoteMark = false by decide, show markOf quoteMark = none by decide]
        using scanned
  | number literal =>
      obtain ⟨nonempty, all⟩ := number_literal_bytes literal
      have scanned := lex_number_literal literal fits
      obtain ⟨first, after, split⟩ := List.exists_cons_of_ne_nil nonempty
      rw [split, List.all_cons, Bool.and_eq_true] at all
      obtain ⟨notWhite, notMark, notQuote⟩ := number_byte_head all.1
      rw [Token.text, split, List.cons_append, lexToken]
      rw [split, List.cons_append] at scanned
      simpa [notWhite, notMark, notQuote, all.1] using scanned

/-- No number token runs into the token after it. -/
def Separated : List Token → Prop
  | [] => True
  | token :: rest => token.fits (spell rest) ∧ Separated rest

theorem token_text_ne_nil (token : Token) : token.text ≠ [] := by
  cases token with
  | word name => cases name with
    | null => decide
    | bool value => cases value <;> decide
  | number literal => exact (number_literal_bytes literal).1
  | space byte white => simp [Token.text]
  | mark sign => simp [Token.text]
  | string literal => simp [Token.text]

theorem lex_fuel_spell (tokens : List Token) (separated : Separated tokens) (fuel : Nat)
    (enough : (spell tokens).length ≤ fuel) : lexFuel fuel (spell tokens) = some tokens := by
  induction tokens generalizing fuel with
  | nil => cases fuel <;> rfl
  | cons token tokens induction =>
      have scanned := lex_token_text token (spell tokens) separated.1
      have positive := List.length_pos_iff.mpr (token_text_ne_nil token)
      have split : spell (token :: tokens) = token.text ++ spell tokens := List.flatMap_cons
      rw [split] at enough ⊢
      rw [List.length_append] at enough
      obtain ⟨first, after, text⟩ := List.exists_cons_of_ne_nil (token_text_ne_nil token)
      obtain ⟨fuel, rfl⟩ := Nat.exists_eq_succ_of_ne_zero (show fuel ≠ 0 by omega)
      rw [text, List.cons_append] at scanned ⊢
      simp [lexFuel, scanned, induction separated.2 fuel (by omega)]

/-- The cut of a text into tokens is the only one that keeps number tokens
apart. -/
theorem lex_spell {tokens : List Token} (separated : Separated tokens) :
    lex (spell tokens) = some tokens :=
  lex_fuel_spell tokens separated _ (Nat.le_refl _)

theorem lex_fuel_sound {fuel : Nat} {text : Bytes} {tokens : List Token}
    (cut : lexFuel fuel text = some tokens) : spell tokens = text ∧ Separated tokens := by
  fun_induction lexFuel fuel text generalizing tokens with
  | case1 fuel => cases cut; exact ⟨rfl, trivial⟩
  | case2 => cases cut
  | case3 fuel first rest induction =>
      simp only [Option.bind_eq_bind, Option.bind_eq_some_iff] at cut
      obtain ⟨⟨token, after⟩, scanned, tail, cutTail, same⟩ := cut
      cases same
      obtain ⟨split, fits⟩ := lex_token_sound scanned
      obtain ⟨spelled, separated⟩ : spell tail = after ∧ Separated tail :=
        induction (token, after) cutTail
      rw [← spelled] at split fits
      exact ⟨split.symm, fits, separated⟩

theorem lex_sound {text : Bytes} {tokens : List Token} (cut : lex text = some tokens) :
    spell tokens = text ∧ Separated tokens :=
  lex_fuel_sound cut

end Scanning

end ChatScale.JsonTokens
