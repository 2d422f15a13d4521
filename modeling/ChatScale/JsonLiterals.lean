import ChatScale.ByteEncodings

/-!
# String literals of JSON texts

A literal is the text between two quotation marks, as spelled. `unescape` reads
the string it stands for, `quote` writes the spelling a standard encoder gives
a string, with the characters that are unsafe inside HTML escaped as well.
-/

namespace ChatScale.JsonLiterals

open ChatScale.ByteText ChatScale.ByteEncodings

set_option autoImplicit false

def quoteMark : UInt8 := 0x22

def backslash : UInt8 := 0x5C

def letterU : UInt8 := 0x75

def isHex (byte : UInt8) : Bool := (fromHex byte).isSome

def isSimpleEscape (byte : UInt8) : Bool :=
  byte == 0x22 || byte == 0x5C || byte == 0x2F || byte == 0x62 || byte == 0x66 ||
    byte == 0x6E || byte == 0x72 || byte == 0x74

/-- No bare quotation mark or control byte, and every backslash starts one of
the escapes of the grammar. -/
def isLiteral : Bytes → Bool
  | [] => true
  | first :: rest =>
      if first = backslash then
        match rest with
        | [] => false
        | escaped :: afterEscape =>
            if escaped = letterU then
              match afterEscape with
              | one :: two :: three :: four :: after =>
                  isHex one && isHex two && isHex three && isHex four && isLiteral after
              | _ => false
            else isSimpleEscape escaped && isLiteral afterEscape
      else first != quoteMark && !(first < 0x20) && isLiteral rest

def hexCode (one two three four : UInt8) : Nat :=
  4096 * (fromHex one).getD 0 + 256 * (fromHex two).getD 0 +
    16 * (fromHex three).getD 0 + (fromHex four).getD 0

def isHighSurrogate (code : Nat) : Bool := 0xD800 ≤ code && code < 0xDC00

def isLowSurrogate (code : Nat) : Bool := 0xDC00 ≤ code && code < 0xE000

/-- `utf8.AppendRune`: a lone surrogate becomes the replacement character. -/
def encodeRune (code : Nat) : Bytes :=
  if code < 0x80 then [UInt8.ofNat code]
  else if code < 0x800 then [UInt8.ofNat (0xC0 + code / 64), UInt8.ofNat (0x80 + code % 64)]
  else if 0xD800 ≤ code ∧ code < 0xE000 then replacement
  else if code < 0x10000 then
    [UInt8.ofNat (0xE0 + code / 4096), UInt8.ofNat (0x80 + code / 64 % 64),
      UInt8.ofNat (0x80 + code % 64)]
  else
    [UInt8.ofNat (0xF0 + code / 262144), UInt8.ofNat (0x80 + code / 4096 % 64),
      UInt8.ofNat (0x80 + code / 64 % 64), UInt8.ofNat (0x80 + code % 64)]

def simpleEscape (byte : UInt8) : UInt8 :=
  if byte = 0x62 then 8 else if byte = 0x66 then 12 else if byte = 0x6E then 10
  else if byte = 0x72 then 13 else if byte = 0x74 then 9 else byte

def pairCode (high low : Nat) : Nat := 0x10000 + (high - 0xD800) * 0x400 + (low - 0xDC00)

/-- A literal read escape by escape: plain bytes, and the codes of the `\u`
escapes, which may still be halves of a surrogate pair. -/
inductive CodeUnit where
  | plain (byte : UInt8)
  | code (value : Nat)

def codeUnits : Bytes → List CodeUnit
  | [] => []
  | first :: rest =>
      if first = backslash then
        match rest with
        | [] => []
        | escaped :: afterEscape =>
            if escaped = letterU then
              match afterEscape with
              | one :: two :: three :: four :: after =>
                  .code (hexCode one two three four) :: codeUnits after
              | _ => []
            else .plain (simpleEscape escaped) :: codeUnits afterEscape
      else .plain first :: codeUnits rest

def joinUnits : List CodeUnit → Bytes
  | [] => []
  | .plain byte :: rest => byte :: joinUnits rest
  | .code high :: .code low :: rest =>
      if isHighSurrogate high && isLowSurrogate low then
        encodeRune (pairCode high low) ++ joinUnits rest
      else encodeRune high ++ joinUnits (.code low :: rest)
  | .code value :: rest => encodeRune value ++ joinUnits rest

def unescape (literal : Bytes) : Bytes := joinUnits (codeUnits literal)

def unicodeEscape (code : Nat) : Bytes :=
  [backslash, letterU, hexDigit (code / 4096 % 16), hexDigit (code / 256 % 16),
    hexDigit (code / 16 % 16), hexDigit (code % 16)]

def isHtmlUnsafe (byte : UInt8) : Bool := byte == 0x3C || byte == 0x3E || byte == 0x26

def lineSeparator : Bytes := [0xE2, 0x80, 0xA8]

def paragraphSeparator : Bytes := [0xE2, 0x80, 0xA9]

def quoteAscii (byte : UInt8) : Bytes :=
  if byte = quoteMark ∨ byte = backslash then [backslash, byte]
  else if byte = 8 then [backslash, 0x62]
  else if byte = 12 then [backslash, 0x66]
  else if byte = 10 then [backslash, 0x6E]
  else if byte = 13 then [backslash, 0x72]
  else if byte = 9 then [backslash, 0x74]
  else if byte < 0x20 ∨ isHtmlUnsafe byte = true then unicodeEscape byte.toNat
  else [byte]

def quoteMulti (sequence : Bytes) : Bytes :=
  if sequence = lineSeparator then unicodeEscape 0x2028
  else if sequence = paragraphSeparator then unicodeEscape 0x2029
  else sequence

def quoteRune : Rune → Bytes
  | .ascii byte _ => quoteAscii byte
  | .multi sequence _ => quoteMulti sequence
  | .stray _ _ => unicodeEscape 0xFFFD

/-- The spelling `encoding/json` gives a string. -/
def quote (text : Bytes) : Bytes := (runes text).flatMap quoteRune

def htmlEscapeRune : Rune → Bytes
  | .ascii byte _ => if isHtmlUnsafe byte then unicodeEscape byte.toNat else [byte]
  | .multi sequence _ => quoteMulti sequence
  | .stray byte _ => [byte]

/-- What compaction does inside a literal: the spelling stays, only the
characters unsafe inside HTML are escaped. -/
def htmlEscape (literal : Bytes) : Bytes := (runes literal).flatMap htmlEscapeRune

structure StringLiteral where
  text : Bytes
  wellFormed : isLiteral text = true
  deriving DecidableEq

/-- The string a literal stands for. An escape always writes whole characters,
so repairing stray bytes after reading the escapes is repairing the bare ones. -/
def StringLiteral.value (literal : StringLiteral) : Bytes := toValidUtf8 (unescape literal.text)

example : unescape (ascii "a\\u0062\\n\\ud83d\\ude00\\ud83d") =
    ascii "ab\n" ++ [0xF0, 0x9F, 0x98, 0x80] ++ replacement := by decide +kernel

theorem code_units_plain {first : UInt8} (rest : Bytes) (plain : first ≠ backslash) :
    codeUnits (first :: rest) = .plain first :: codeUnits rest := by
  rw [codeUnits.eq_def]
  simp [plain]

theorem code_units_simple {escaped : UInt8} (rest : Bytes) (simple : escaped ≠ letterU) :
    codeUnits (backslash :: escaped :: rest) =
      .plain (simpleEscape escaped) :: codeUnits rest := by
  rw [codeUnits.eq_def]
  simp [simple]

theorem code_units_unicode (code : Nat) (bound : code < 0x10000) (rest : Bytes) :
    codeUnits (unicodeEscape code ++ rest) = .code code :: codeUnits rest := by
  have spelled : hexCode (hexDigit (code / 4096 % 16)) (hexDigit (code / 256 % 16))
      (hexDigit (code / 16 % 16)) (hexDigit (code % 16)) = code := by
    rw [hexCode, from_hex_digit _ (by omega), from_hex_digit _ (by omega),
      from_hex_digit _ (by omega), from_hex_digit _ (by omega)]
    simp only [Option.getD_some]
    omega
  simp [unicodeEscape, codeUnits, spelled]

theorem is_literal_plain {first : UInt8} (rest : Bytes) (plain : first ≠ backslash)
    (notQuote : first ≠ quoteMark) (printable : ¬first < 0x20) :
    isLiteral (first :: rest) = isLiteral rest := by
  rw [isLiteral.eq_def]
  simp [plain, notQuote, printable]

theorem is_literal_simple {escaped : UInt8} (rest : Bytes) (simple : escaped ≠ letterU)
    (known : isSimpleEscape escaped = true) :
    isLiteral (backslash :: escaped :: rest) = isLiteral rest := by
  rw [isLiteral.eq_def]
  simp [simple, known]

theorem is_literal_unicode (code : Nat) (rest : Bytes) :
    isLiteral (unicodeEscape code ++ rest) = isLiteral rest := by
  have hex (value : Nat) : isHex (hexDigit (value % 16)) = true := by
    rw [isHex, from_hex_digit _ (by omega), Option.isSome_some]
  simp [unicodeEscape, isLiteral, hex]

theorem join_units_code {value : Nat} (rest : List CodeUnit)
    (notHigh : isHighSurrogate value = false) :
    joinUnits (.code value :: rest) = encodeRune value ++ joinUnits rest := by
  cases rest with
  | nil => rfl
  | cons next rest =>
      cases next with
      | plain byte => rfl
      | code low => rw [joinUnits, notHigh, Bool.false_and, if_neg (by decide)]

/-- The bytes of a sequence beyond ASCII are all plain inside a literal. -/
theorem multi_byte_plain {sequence : Bytes} (wellFormed : isMultiByte sequence = true) :
    ∀ byte ∈ sequence, ¬byte < 0x80 := by
  match sequence, wellFormed with
  | [first, second], two =>
      have large := multi_byte_first_large two
      grind [isMultiByte, isTwoByte, isTail]
  | [first, second, third], three =>
      have large := multi_byte_first_large three
      grind [isMultiByte, isThreeByte, isTail]
  | [first, second, third, fourth], four =>
      have large := multi_byte_first_large four
      grind [isMultiByte, isFourByte, isTail]

theorem large_byte_plain {byte : UInt8} (large : ¬byte < 0x80) :
    byte ≠ backslash ∧ byte ≠ quoteMark ∧ ¬byte < 0x20 := by
  refine ⟨?_, ?_, ?_⟩
  · rintro rfl
    exact large (by decide)
  · rintro rfl
    exact large (by decide)
  · intro small
    exact large (UInt8.lt_trans small (by decide))

theorem code_units_large (bytes rest : Bytes) (large : ∀ byte ∈ bytes, ¬byte < 0x80) :
    codeUnits (bytes ++ rest) = bytes.map .plain ++ codeUnits rest := by
  induction bytes with
  | nil => rfl
  | cons byte bytes induction =>
      have plain := (large_byte_plain (large byte (by simp))).1
      rw [List.cons_append, code_units_plain _ plain, induction fun other member =>
        large other (by simp [member])]
      rfl

theorem is_literal_large (bytes rest : Bytes) (large : ∀ byte ∈ bytes, ¬byte < 0x80) :
    isLiteral (bytes ++ rest) = isLiteral rest := by
  induction bytes with
  | nil => rfl
  | cons byte bytes induction =>
      obtain ⟨plain, notQuote, printable⟩ := large_byte_plain (large byte (by simp))
      rw [List.cons_append, is_literal_plain _ plain notQuote printable,
        induction fun other member => large other (by simp [member])]

theorem join_units_plain (bytes : Bytes) (rest : List CodeUnit) :
    joinUnits (bytes.map .plain ++ rest) = bytes ++ joinUnits rest := by
  induction bytes with
  | nil => rfl
  | cons byte bytes induction =>
      simp only [List.map_cons, List.cons_append, joinUnits, induction]

theorem unescape_plain {first : UInt8} (rest : Bytes) (plain : first ≠ backslash) :
    unescape (first :: rest) = first :: unescape rest := by
  rw [unescape, code_units_plain rest plain]
  rfl

theorem unescape_simple {escaped : UInt8} (rest : Bytes) (simple : escaped ≠ letterU) :
    unescape (backslash :: escaped :: rest) = simpleEscape escaped :: unescape rest := by
  rw [unescape, code_units_simple rest simple]
  rfl

theorem unescape_unicode (code : Nat) (bound : code < 0x10000)
    (notHigh : isHighSurrogate code = false) (rest : Bytes) :
    unescape (unicodeEscape code ++ rest) = encodeRune code ++ unescape rest := by
  rw [unescape, code_units_unicode code bound, join_units_code _ notHigh]
  rfl

theorem unescape_large (bytes rest : Bytes) (large : ∀ byte ∈ bytes, ¬byte < 0x80) :
    unescape (bytes ++ rest) = bytes ++ unescape rest := by
  rw [unescape, code_units_large bytes rest large, join_units_plain]
  rfl

theorem encode_small_byte {byte : UInt8} (small : byte < 0x80) :
    encodeRune byte.toNat = [byte] ∧ byte.toNat < 0x10000 ∧
      isHighSurrogate byte.toNat = false := by
  have bound : byte.toNat < 0x80 := UInt8.lt_iff_toNat_lt.mp small
  refine ⟨?_, by omega, ?_⟩
  · rw [encodeRune, if_pos bound, byte_of_nat]
  · simp only [isHighSurrogate, Bool.and_eq_false_iff, decide_eq_false_iff_not]
    omega

/-- One quoted ASCII byte, read back. -/
theorem unescape_quote_ascii {byte : UInt8} (small : byte < 0x80) (rest : Bytes) :
    unescape (quoteAscii byte ++ rest) = byte :: unescape rest ∧
      isLiteral (quoteAscii byte ++ rest) = isLiteral rest := by
  obtain ⟨encoded, bound, notHigh⟩ := encode_small_byte small
  have simple (escaped result : UInt8) (notU : escaped ≠ letterU)
      (known : isSimpleEscape escaped = true) (same : simpleEscape escaped = result) :
      unescape ([backslash, escaped] ++ rest) = result :: unescape rest ∧
        isLiteral ([backslash, escaped] ++ rest) = isLiteral rest := by
    constructor
    · rw [List.cons_append, List.singleton_append, unescape_simple _ notU, same]
    · rw [List.cons_append, List.singleton_append, is_literal_simple _ notU known]
  unfold quoteAscii
  split_ifs with mark eight twelve ten thirteen nine unsafeByte
  · rcases mark with rfl | rfl
    · exact simple quoteMark quoteMark (by decide) (by decide) (by decide)
    · exact simple backslash backslash (by decide) (by decide) (by decide)
  · exact simple 0x62 byte (by decide) (by decide) (by rw [eight]; decide)
  · exact simple 0x66 byte (by decide) (by decide) (by rw [twelve]; decide)
  · exact simple 0x6E byte (by decide) (by decide) (by rw [ten]; decide)
  · exact simple 0x72 byte (by decide) (by decide) (by rw [thirteen]; decide)
  · exact simple 0x74 byte (by decide) (by decide) (by rw [nine]; decide)
  · exact ⟨by rw [unescape_unicode _ bound notHigh, encoded]; rfl,
      is_literal_unicode byte.toNat rest⟩
  · rw [not_or] at mark unsafeByte
    exact ⟨unescape_plain rest mark.2,
      is_literal_plain rest mark.2 mark.1 unsafeByte.1⟩

theorem unescape_quote_multi {sequence : Bytes} (wellFormed : isMultiByte sequence = true)
    (rest : Bytes) :
    unescape (quoteMulti sequence ++ rest) = sequence ++ unescape rest ∧
      isLiteral (quoteMulti sequence ++ rest) = isLiteral rest := by
  have large := multi_byte_plain wellFormed
  unfold quoteMulti
  split_ifs with line paragraph
  · rw [line]
    exact ⟨unescape_unicode 0x2028 (by decide) (by decide) rest, is_literal_unicode 0x2028 rest⟩
  · rw [paragraph]
    exact ⟨unescape_unicode 0x2029 (by decide) (by decide) rest, is_literal_unicode 0x2029 rest⟩
  · exact ⟨unescape_large sequence rest large, is_literal_large sequence rest large⟩

theorem unescape_quote_rune (rune : Rune) (rest : Bytes) :
    unescape (quoteRune rune ++ rest) = rune.repaired.bytes ++ unescape rest ∧
      isLiteral (quoteRune rune ++ rest) = isLiteral rest := by
  cases rune with
  | ascii byte small => exact unescape_quote_ascii small rest
  | multi sequence wellFormed => exact unescape_quote_multi wellFormed rest
  | stray byte large =>
      exact ⟨unescape_unicode 0xFFFD (by decide) (by decide) rest,
        is_literal_unicode 0xFFFD rest⟩

theorem unescape_quote_runes (characters : List Rune) :
    unescape (characters.flatMap quoteRune) =
        characters.flatMap (fun rune => rune.repaired.bytes) ∧
      isLiteral (characters.flatMap quoteRune) = true := by
  induction characters with
  | nil => exact ⟨rfl, rfl⟩
  | cons rune characters induction =>
      obtain ⟨read, literal⟩ := unescape_quote_rune rune (characters.flatMap quoteRune)
      rw [List.flatMap_cons, List.flatMap_cons, read, literal, induction.1]
      exact ⟨rfl, induction.2⟩

theorem quote_is_literal (text : Bytes) : isLiteral (quote text) = true :=
  (unescape_quote_runes (runes text)).2

def StringLiteral.ofBytes (text : Bytes) : StringLiteral := ⟨quote text, quote_is_literal text⟩

/-- A quoted string denotes the string it was made from, up to the repair of
stray bytes. -/
theorem value_of_bytes (text : Bytes) :
    (StringLiteral.ofBytes text).value = toValidUtf8 text := by
  have read : unescape (quote text) = toValidUtf8 text := (unescape_quote_runes (runes text)).1
  rw [StringLiteral.value, StringLiteral.ofBytes, read, to_valid_utf8_idempotent]

/-- `Softened before after`: some characters of `before` are spelled as
escapes in `after`. -/
inductive Softened : List CodeUnit → List CodeUnit → Prop where
  | nil : Softened [] []
  | keep {before after : List CodeUnit} (unit : CodeUnit) (tail : Softened before after) :
      Softened (unit :: before) (unit :: after)
  | escape {before after : List CodeUnit} (code : Nat) (first : UInt8) (bytes : Bytes)
      (small : code < 0xD800) (encoded : encodeRune code = first :: bytes)
      (tail : Softened before after) :
      Softened (.plain first :: bytes.map .plain ++ before) (.code code :: after)

theorem softened_high {before after : List CodeUnit} (high : Nat)
    (softened : Softened before after)
    (same : ∀ low rest restAfter, before = .code low :: rest → after = .code low :: restAfter →
      joinUnits rest = joinUnits restAfter)
    (joined : joinUnits before = joinUnits after) :
    joinUnits (.code high :: before) = joinUnits (.code high :: after) := by
  cases softened with
  | nil => rfl
  | keep unit tail =>
      cases unit with
      | plain byte => simp only [joinUnits] at joined ⊢; rw [joined]
      | code low =>
          rw [joinUnits, joinUnits, joined, same low _ _ rfl rfl]
  | escape code first bytes small encoded tail =>
      have notLow : isLowSurrogate code = false := by
        simp only [isLowSurrogate, Bool.and_eq_false_iff, decide_eq_false_iff_not]
        omega
      rw [joinUnits.eq_def (.code high :: .code code :: _), List.cons_append,
        joinUnits.eq_def (.code high :: .plain first :: _)]
      simp only [notLow, Bool.and_false, Bool.false_eq_true, if_false]
      rw [← joined, List.cons_append]

theorem join_units_softened {before after : List CodeUnit} (softened : Softened before after) :
    joinUnits before = joinUnits after := by
  induction length : after.length using Nat.strong_induction_on generalizing before after with
  | _ size induction =>
      cases softened with
      | nil => rfl
      | @keep before after unit tail =>
          have joined := induction after.length (by rw [← length]; simp) tail rfl
          cases unit with
          | plain byte => rw [joinUnits, joinUnits, joined]
          | code high =>
              apply softened_high high tail _ joined
              rintro low rest restAfter rfl rfl
              cases tail with
              | keep unit inner =>
                  have shorter : restAfter.length < size := by
                    simp only [← length, List.length_cons]
                    omega
                  exact induction restAfter.length shorter inner rfl
      | @escape before after code first bytes small encoded tail =>
          have joined := induction after.length (by rw [← length]; simp) tail rfl
          have notHigh : isHighSurrogate code = false := by
            simp only [isHighSurrogate, Bool.and_eq_false_iff, decide_eq_false_iff_not]
            omega
          rw [join_units_code _ notHigh, encoded, ← joined]
          exact join_units_plain (first :: bytes) before

theorem html_escape_keep {byte : UInt8} (small : byte < 0x80) (harmless : isHtmlUnsafe byte = false)
    (rest : Bytes) : htmlEscape (byte :: rest) = byte :: htmlEscape rest := by
  rw [htmlEscape, runes_ascii_append small, List.flatMap_cons, htmlEscapeRune, harmless]
  rfl

theorem html_escape_marked {byte : UInt8} (found : isHtmlUnsafe byte = true) (rest : Bytes) :
    htmlEscape (byte :: rest) = unicodeEscape byte.toNat ++ htmlEscape rest := by
  have small : byte < 0x80 := by grind [isHtmlUnsafe]
  rw [htmlEscape, runes_ascii_append small, List.flatMap_cons, htmlEscapeRune, found]
  rfl

theorem hex_harmless {byte : UInt8} (hex : isHex byte = true) :
    byte < 0x80 ∧ isHtmlUnsafe byte = false := by
  grind [isHex, fromHex, isHtmlUnsafe]

theorem simple_escape_harmless {byte : UInt8} (simple : isSimpleEscape byte = true) :
    byte < 0x80 ∧ isHtmlUnsafe byte = false := by
  simp only [isSimpleEscape, Bool.or_eq_true, beq_iff_eq, or_assoc] at simple
  rcases simple with rfl | rfl | rfl | rfl | rfl | rfl | rfl | rfl <;> decide

/-- What compaction does to a literal, read unit by unit. -/
structure EscapedFrom (literal escaped : Bytes) : Prop where
  softened : Softened (codeUnits literal) (codeUnits escaped)
  isLiteral : isLiteral escaped = true

theorem escaped_from_simple {escaped : UInt8} {rest : Bytes} (notU : escaped ≠ letterU)
    (known : isSimpleEscape escaped = true) (tail : EscapedFrom rest (htmlEscape rest)) :
    EscapedFrom (backslash :: escaped :: rest) (htmlEscape (backslash :: escaped :: rest)) := by
  obtain ⟨small, harmless⟩ := simple_escape_harmless known
  rw [html_escape_keep (by decide) (by decide), html_escape_keep small harmless]
  constructor
  · rw [code_units_simple _ notU, code_units_simple _ notU]
    exact .keep _ tail.softened
  · rw [is_literal_simple _ notU known]
    exact tail.isLiteral

theorem escaped_from_unicode {one two three four : UInt8} {rest : Bytes} (first : isHex one = true)
    (second : isHex two = true) (third : isHex three = true) (fourth : isHex four = true)
    (tail : EscapedFrom rest (htmlEscape rest)) :
    EscapedFrom (backslash :: letterU :: one :: two :: three :: four :: rest)
      (htmlEscape (backslash :: letterU :: one :: two :: three :: four :: rest)) := by
  rw [html_escape_keep (by decide) (by decide), html_escape_keep (by decide) (by decide),
    html_escape_keep (hex_harmless first).1 (hex_harmless first).2,
    html_escape_keep (hex_harmless second).1 (hex_harmless second).2,
    html_escape_keep (hex_harmless third).1 (hex_harmless third).2,
    html_escape_keep (hex_harmless fourth).1 (hex_harmless fourth).2]
  constructor
  · simp only [codeUnits, if_true]
    exact .keep _ tail.softened
  · simp [isLiteral, first, second, third, fourth, tail.isLiteral]

theorem escaped_from_plain {first : UInt8} {rest : Bytes} (small : first < 0x80)
    (plain : first ≠ backslash) (notQuote : first ≠ quoteMark) (printable : ¬first < 0x20)
    (tail : EscapedFrom rest (htmlEscape rest)) :
    EscapedFrom (first :: rest) (htmlEscape (first :: rest)) := by
  cases found : isHtmlUnsafe first with
  | false =>
      rw [html_escape_keep small found]
      constructor
      · rw [code_units_plain _ plain, code_units_plain _ plain]
        exact .keep _ tail.softened
      · rw [is_literal_plain _ plain notQuote printable]
        exact tail.isLiteral
  | true =>
      obtain ⟨encoded, bound, _⟩ := encode_small_byte small
      have low : first.toNat < 0x80 := UInt8.lt_iff_toNat_lt.mp small
      rw [html_escape_marked found]
      constructor
      · rw [code_units_plain _ plain, code_units_unicode _ bound]
        exact .escape first.toNat first [] (by omega) encoded tail.softened
      · rw [is_literal_unicode]
        exact tail.isLiteral

theorem softened_keep_all {before after : List CodeUnit} (units : List CodeUnit)
    (tail : Softened before after) : Softened (units ++ before) (units ++ after) := by
  induction units with
  | nil => exact tail
  | cons unit units induction => exact .keep unit induction

theorem escaped_from_large {bytes rest : Bytes} (large : ∀ byte ∈ bytes, ¬byte < 0x80)
    (tail : EscapedFrom rest (htmlEscape rest)) :
    EscapedFrom (bytes ++ rest) (bytes ++ htmlEscape rest) := by
  constructor
  · rw [code_units_large _ _ large, code_units_large _ _ large]
    exact softened_keep_all _ tail.softened
  · rw [is_literal_large _ _ large]
    exact tail.isLiteral

theorem escaped_from_multi {sequence rest : Bytes} (wellFormed : isMultiByte sequence = true)
    (tail : EscapedFrom rest (htmlEscape rest)) :
    EscapedFrom (sequence ++ rest) (quoteMulti sequence ++ htmlEscape rest) := by
  have separator (code : Nat) (third : UInt8) (small : code < 0xD800)
      (encoded : encodeRune code = [0xE2, 0x80, third]) (large : ¬third < 0x80) :
      EscapedFrom ([0xE2, 0x80, third] ++ rest) (unicodeEscape code ++ htmlEscape rest) := by
    constructor
    · rw [code_units_unicode code (by omega), code_units_large _ _ (by simpa using large)]
      exact .escape code 0xE2 [0x80, third] small encoded tail.softened
    · rw [is_literal_unicode]
      exact tail.isLiteral
  unfold quoteMulti
  split_ifs with line paragraph
  · rw [line]
    exact separator 0x2028 0xA8 (by decide) (by decide) (by decide)
  · rw [paragraph]
    exact separator 0x2029 0xA9 (by decide) (by decide) (by decide)
  · exact escaped_from_large (multi_byte_plain wellFormed) tail

/-- A literal starts with nothing, an escape, a plain ASCII byte or bytes
beyond ASCII. -/
theorem is_literal_cases {first : UInt8} {rest : Bytes}
    (literal : isLiteral (first :: rest) = true) :
    (∃ one two three four after, first = backslash ∧
        rest = letterU :: one :: two :: three :: four :: after ∧ isHex one = true ∧
        isHex two = true ∧ isHex three = true ∧ isHex four = true ∧ isLiteral after = true) ∨
      (∃ escaped after, first = backslash ∧ rest = escaped :: after ∧ escaped ≠ letterU ∧
        isSimpleEscape escaped = true ∧ isLiteral after = true) ∨
      (first ≠ backslash ∧ first ≠ quoteMark ∧ ¬first < 0x20 ∧ isLiteral rest = true) := by
  rw [isLiteral.eq_def] at literal
  simp only at literal
  split_ifs at literal with escape
  · split at literal
    · cases literal
    · split_ifs at literal with unicode
      · split at literal
        · rename_i one two three four after
          simp only [Bool.and_eq_true] at literal
          obtain ⟨⟨⟨⟨first, second⟩, third⟩, fourth⟩, tail⟩ := literal
          exact .inl ⟨one, two, three, four, after, escape, by rw [unicode], first, second, third,
            fourth, tail⟩
        · cases literal
      · rename_i escaped after
        simp only [Bool.and_eq_true] at literal
        exact .inr (.inl ⟨escaped, after, escape, rfl, unicode, literal.1, literal.2⟩)
  · simp only [Bool.and_eq_true, bne_iff_ne, Bool.not_eq_true', decide_eq_false_iff_not] at literal
    exact .inr (.inr ⟨escape, literal.1.1, literal.1.2, literal.2⟩)

theorem html_escape_literal {literal : Bytes} (wellFormed : isLiteral literal = true) :
    EscapedFrom literal (htmlEscape literal) := by
  induction length : literal.length using Nat.strong_induction_on generalizing literal with
  | _ size induction =>
      match literal with
      | [] => exact ⟨.nil, rfl⟩
      | first :: rest =>
          rw [List.length_cons] at length
          rcases is_literal_cases wellFormed with
            ⟨one, two, three, four, after, rfl, rfl, hexOne, hexTwo, hexThree, hexFour, tail⟩ |
            ⟨escaped, after, rfl, rfl, notU, known, tail⟩ | ⟨plain, notQuote, printable, tail⟩
          · exact escaped_from_unicode hexOne hexTwo hexThree hexFour
              (induction after.length (by simp only [← length, List.length_cons]; omega) tail rfl)
          · exact escaped_from_simple notU known
              (induction after.length (by simp only [← length, List.length_cons]; omega) tail rfl)
          · by_cases small : first < 0x80
            · exact escaped_from_plain small plain notQuote printable
                (induction rest.length (by omega) tail rfl)
            · obtain ⟨rune, after, cut, split, head⟩ := runes_large small rest
              have escaped : htmlEscape (first :: rest) =
                  htmlEscapeRune rune ++ htmlEscape after := by
                rw [htmlEscape, cut, List.flatMap_cons]
                rfl
              rw [escaped, split]
              rw [split] at wellFormed
              have shorter := congrArg List.length split
              simp only [List.length_cons, List.length_append] at shorter
              rcases head with rfl | ⟨sequence, multi, rfl⟩
              · have large : ∀ byte ∈ [first], ¬byte < 0x80 := by simpa using small
                rw [Rune.bytes, is_literal_large _ _ large] at wellFormed
                exact escaped_from_large large
                  (induction after.length (by simp [Rune.bytes] at shorter; omega) wellFormed rfl)
              · rw [Rune.bytes, is_literal_large _ _ (multi_byte_plain multi)] at wellFormed
                have nonempty : sequence ≠ [] := by
                  rintro rfl
                  cases multi
                have positive := List.length_pos_iff.mpr nonempty
                exact escaped_from_multi multi
                  (induction after.length (by simp [Rune.bytes] at shorter; omega) wellFormed rfl)

/-- The literal compaction writes for a literal of its input. -/
def StringLiteral.htmlEscaped (literal : StringLiteral) : StringLiteral :=
  ⟨htmlEscape literal.text, (html_escape_literal literal.wellFormed).isLiteral⟩

theorem value_html_escaped (literal : StringLiteral) :
    literal.htmlEscaped.value = literal.value := by
  have softened := (html_escape_literal literal.wellFormed).softened
  rw [StringLiteral.value, StringLiteral.value, unescape, unescape,
    join_units_softened softened]
  rfl

end ChatScale.JsonLiterals
