import ChatScale.JsonFields

/-!
# The strings a `jsonb` column takes

A `jsonb` column reads the escapes of a literal. It refuses the escape of the
zero character, a half of a surrogate pair without the other half, and bytes that
are not UTF-8. What `encoding/json` writes for a text without zero bytes passes,
and compaction does not turn a literal that passes into one that does not.
-/

namespace ChatScale.JsonbStrings

open ChatScale.ByteText ChatScale.ByteEncodings ChatScale.JsonLiterals
open ChatScale.JsonTokens ChatScale.JsonText ChatScale.JsonValue ChatScale.JsonFields

set_option autoImplicit false

/-- The reader of a literal; `pending` says that it has just met the first half
of a surrogate pair. -/
def unitsStorable : Bool → List CodeUnit → Bool
  | pending, [] => !pending
  | pending, .plain _ :: rest => !pending && unitsStorable false rest
  | pending, .code value :: rest =>
      if isLowSurrogate value then pending && unitsStorable false rest
      else !pending && value != 0 && unitsStorable (isHighSurrogate value) rest

def literalStorable (literal : StringLiteral) : Bool :=
  isValidUtf8 literal.text && unitsStorable false (codeUnits literal.text)

mutual

def treeStorable : Json → Bool
  | .word _ => true
  | .number _ => true
  | .string literal => literalStorable literal
  | .array elements => elementsStorable elements
  | .object members => membersStorable members

def elementsStorable : List Json → Bool
  | [] => true
  | next :: others => treeStorable next && elementsStorable others

/-- The keys are read like the other strings, also those of members that a later
one replaces. -/
def membersStorable : List (StringLiteral × Json) → Bool
  | [] => true
  | (name, value) :: others =>
      literalStorable name && treeStorable value && membersStorable others

end

/-- The texts a `jsonb` column takes. -/
def isStorable (text : Bytes) : Bool := (parse text).any treeStorable

example : isStorable (ascii "[\"a\\ud83d\\ude00\", \x7b\"\\u0041\": null\x7d]") = true ∧
    isStorable (ascii "\"\\u0000\"") = false ∧ isStorable (ascii "\"\\ud83dx\"") = false ∧
    isStorable (ascii "\"\\ude00\"") = false := by decide +kernel

section Units

theorem units_storable_plain (bytes : Bytes) (rest : List CodeUnit) :
    unitsStorable false (bytes.map .plain ++ rest) = unitsStorable false rest := by
  induction bytes with
  | nil => rfl
  | cons byte bytes induction => simp [unitsStorable, induction]

theorem units_storable_code {value : Nat} (pending : Bool) (rest : List CodeUnit)
    (small : value < 0xD800 ∨ 0xE000 ≤ value) (nonzero : value ≠ 0) :
    unitsStorable pending (.code value :: rest) = (!pending && unitsStorable false rest) := by
  have notLow : isLowSurrogate value = false := by
    simp only [isLowSurrogate, Bool.and_eq_false_iff, decide_eq_false_iff_not]
    omega
  have notHigh : isHighSurrogate value = false := by
    simp only [isHighSurrogate, Bool.and_eq_false_iff, decide_eq_false_iff_not]
    omega
  have written : (value != 0) = true := bne_iff_ne.mpr nonzero
  simp [unitsStorable, notLow, notHigh, written]

/-- Escaping a character other than the zero character makes no difference. -/
theorem units_storable_softened {before after : List CodeUnit} (softened : Softened before after)
    (nonzero : CodeUnit.plain 0 ∉ before) (pending : Bool) :
    unitsStorable pending after = unitsStorable pending before := by
  induction softened generalizing pending with
  | nil => rfl
  | keep unit tail induction =>
      have others := induction fun listed => nonzero (List.mem_cons_of_mem _ listed)
      cases unit with
      | plain byte => simp only [unitsStorable, others]
      | code value => simp only [unitsStorable, others]
  | @escape before after code first bytes small encoded tail induction =>
      have others := induction fun listed => nonzero (List.mem_append_right _ listed)
      have written : code ≠ 0 := by
        rintro rfl
        have same : [0] = first :: bytes := encoded
        cases same
        exact nonzero (List.mem_append_left _ List.mem_cons_self)
      rw [units_storable_code pending after (.inl small) written, others, List.cons_append,
        unitsStorable, units_storable_plain]

/-- A literal has no bare control characters, and no short escape stands for the
zero character. -/
theorem literal_units_nonzero {literal : Bytes} (wellFormed : isLiteral literal = true) :
    CodeUnit.plain 0 ∉ codeUnits literal := by
  fun_induction codeUnits literal with
  | case1 => simp
  | case2 => simp
  | case3 one two three four after induction =>
      simp only [isLiteral, if_true, Bool.and_eq_true] at wellFormed
      simpa using induction wellFormed.2
  | case4 => simp
  | case5 escaped afterEscape notU induction =>
      rw [isLiteral.eq_def] at wellFormed
      simp only [if_true, if_neg notU, Bool.and_eq_true] at wellFormed
      have shown : (0 : UInt8) ≠ simpleEscape escaped := by
        have known := wellFormed.1
        simp only [isSimpleEscape, Bool.or_eq_true, beq_iff_eq, or_assoc] at known
        rcases known with rfl | rfl | rfl | rfl | rfl | rfl | rfl | rfl <;> decide
      simpa [shown] using induction wellFormed.2
  | case6 first rest plain induction =>
      rw [isLiteral.eq_def] at wellFormed
      simp only [if_neg plain, Bool.and_eq_true, Bool.not_eq_true', decide_eq_false_iff_not]
        at wellFormed
      have printable : (0 : UInt8) ≠ first := by
        rintro rfl
        exact wellFormed.1.2 (by decide)
      simpa [printable] using induction wellFormed.2

end Units

section Utf8

theorem valid_ascii_append {bytes : Bytes} (small : ∀ byte ∈ bytes, byte < 0x80) (rest : Bytes) :
    isValidUtf8 (bytes ++ rest) = isValidUtf8 rest := by
  induction bytes with
  | nil => rfl
  | cons byte bytes induction =>
      have others := induction fun other listed => small other (List.mem_cons_of_mem _ listed)
      rw [List.cons_append, isValidUtf8, runes_ascii_append (small byte List.mem_cons_self),
        ← others]
      rfl

theorem valid_multi_append {sequence : Bytes} (wellFormed : isMultiByte sequence = true)
    (rest : Bytes) : isValidUtf8 (sequence ++ rest) = isValidUtf8 rest := by
  rw [isValidUtf8, runes_multi_append wellFormed]
  rfl

theorem valid_unicode_append (code : Nat) (rest : Bytes) :
    isValidUtf8 (unicodeEscape code ++ rest) = isValidUtf8 rest := by
  apply valid_ascii_append
  have digit (value : Nat) : hexDigit (value % 16) < 0x80 := by
    have bound : value % 16 < 16 := Nat.mod_lt _ (by decide)
    generalize value % 16 = small at bound
    interval_cases small <;> decide
  simp only [unicodeEscape, List.mem_cons, List.not_mem_nil, or_false]
  rintro byte (rfl | rfl | rfl | rfl | rfl | rfl)
  · decide
  · decide
  all_goals exact digit _

theorem valid_multi_quoted {sequence : Bytes} (wellFormed : isMultiByte sequence = true)
    (rest : Bytes) : isValidUtf8 (quoteMulti sequence ++ rest) = isValidUtf8 rest := by
  unfold quoteMulti
  split_ifs
  · exact valid_unicode_append _ rest
  · exact valid_unicode_append _ rest
  · exact valid_multi_append wellFormed rest

theorem valid_html_escape {text : Bytes} (valid : isValidUtf8 text = true) :
    isValidUtf8 (htmlEscape text) = true := by
  have clean := runes_clean valid
  rw [htmlEscape]
  generalize runes text = characters at clean ⊢
  induction characters with
  | nil => rfl
  | cons rune others induction =>
      have tail := induction fun other listed => clean other (List.mem_cons_of_mem _ listed)
      rw [List.flatMap_cons]
      cases rune with
      | ascii byte small =>
          rw [htmlEscapeRune]
          split_ifs
          · rw [valid_unicode_append, tail]
          · rw [valid_ascii_append (by simpa using small), tail]
      | multi sequence wellFormed => rw [htmlEscapeRune, valid_multi_quoted wellFormed, tail]
      | stray byte large => cases clean (.stray byte large) List.mem_cons_self

theorem valid_quote_ascii {byte : UInt8} (small : byte < 0x80) (rest : Bytes) :
    isValidUtf8 (quoteAscii byte ++ rest) = isValidUtf8 rest := by
  unfold quoteAscii
  split_ifs
  · exact valid_ascii_append (by simp [small, backslash]) rest
  all_goals first
    | exact valid_unicode_append _ rest
    | exact valid_ascii_append (by simp [small, backslash]) rest

theorem valid_quote (text : Bytes) : isValidUtf8 (quote text) = true := by
  rw [quote]
  induction runes text with
  | nil => rfl
  | cons rune others induction =>
      rw [List.flatMap_cons]
      cases rune with
      | ascii byte small => rw [quoteRune, valid_quote_ascii small, induction]
      | multi sequence wellFormed => rw [quoteRune, valid_multi_quoted wellFormed, induction]
      | stray byte large => rw [quoteRune, valid_unicode_append, induction]

end Utf8

section Literals

theorem unicode_escape_storable {code : Nat} (bound : code < 0x10000)
    (single : code < 0xD800 ∨ 0xE000 ≤ code) (nonzero : code ≠ 0) (rest : Bytes) :
    unitsStorable false (codeUnits (unicodeEscape code ++ rest)) =
      unitsStorable false (codeUnits rest) := by
  rw [code_units_unicode code bound, units_storable_code _ _ single nonzero]
  rfl

theorem quote_ascii_storable {byte : UInt8} (small : byte < 0x80) (nonzero : byte ≠ 0)
    (rest : Bytes) :
    unitsStorable false (codeUnits (quoteAscii byte ++ rest)) =
      unitsStorable false (codeUnits rest) := by
  have simple (escaped : UInt8) (notU : escaped ≠ letterU) :
      unitsStorable false (codeUnits ([backslash, escaped] ++ rest)) =
        unitsStorable false (codeUnits rest) := by
    rw [List.cons_append, List.singleton_append, code_units_simple _ notU]
    rfl
  have bound : byte.toNat < 0x80 := UInt8.lt_iff_toNat_lt.mp small
  have positive : byte.toNat ≠ 0 := fun zero => nonzero (UInt8.toNat_inj.mp zero)
  unfold quoteAscii
  split_ifs with mark
  · rcases mark with rfl | rfl
    · exact simple quoteMark (by decide)
    · exact simple backslash (by decide)
  · exact simple 0x62 (by decide)
  · exact simple 0x66 (by decide)
  · exact simple 0x6E (by decide)
  · exact simple 0x72 (by decide)
  · exact simple 0x74 (by decide)
  · exact unicode_escape_storable (by omega) (by omega) positive rest
  · rw [List.singleton_append, code_units_plain _ fun same => mark (.inr same)]
    rfl

theorem quote_rune_storable (rune : Rune) (nonzero : 0 ∉ rune.bytes) (rest : Bytes) :
    unitsStorable false (codeUnits (quoteRune rune ++ rest)) =
      unitsStorable false (codeUnits rest) := by
  cases rune with
  | ascii byte small =>
      exact quote_ascii_storable small (fun zero => nonzero (by simp [Rune.bytes, zero])) rest
  | multi sequence wellFormed =>
      rw [quoteRune, quoteMulti]
      split_ifs
      · exact unicode_escape_storable (by decide) (by decide) (by decide) rest
      · exact unicode_escape_storable (by decide) (by decide) (by decide) rest
      · rw [code_units_large _ _ (multi_byte_plain wellFormed), units_storable_plain]
  | stray byte large =>
      exact unicode_escape_storable (by decide) (by decide) (by decide) rest

/-- The spelling `encoding/json` gives a text without zero bytes. -/
theorem of_bytes_storable {text : Bytes} (nonzero : 0 ∉ text) :
    literalStorable (StringLiteral.ofBytes text) = true := by
  have units : unitsStorable false (codeUnits (quote text)) = true := by
    rw [← runes_bytes text] at nonzero
    rw [quote]
    generalize runes text = characters at nonzero ⊢
    induction characters with
    | nil => rfl
    | cons rune others induction =>
        rw [List.flatMap_cons, List.mem_append, not_or] at nonzero
        rw [List.flatMap_cons, quote_rune_storable rune nonzero.1, induction nonzero.2]
  simp only [literalStorable, StringLiteral.ofBytes, valid_quote, units, Bool.and_self]

theorem plain_literal_storable {text : Bytes} (plain : isPlainText text = true) :
    literalStorable (plainLiteral text plain) = true := by
  have units : codeUnits text = text.map .plain := by
    induction text with
    | nil => rfl
    | cons byte text induction =>
        rw [isPlainText, List.all_cons, Bool.and_eq_true] at plain
        rw [code_units_plain _ (plain_byte plain.1).2.1, induction plain.2]
        rfl
  have read := units_storable_plain text []
  rw [List.append_nil, ← units] at read
  simp only [literalStorable, plainLiteral, (plain_text plain).2.2, read]
  rfl

theorem html_escaped_storable {literal : StringLiteral}
    (storable : literalStorable literal = true) :
    literalStorable literal.htmlEscaped = true := by
  rw [literalStorable, Bool.and_eq_true] at storable
  have units := units_storable_softened (html_escape_literal literal.wellFormed).softened
    (literal_units_nonzero literal.wellFormed) false
  rw [literalStorable, Bool.and_eq_true]
  exact ⟨valid_html_escape storable.1, units.trans storable.2⟩

end Literals

section Trees

mutual

theorem tree_html_escaped {tree : Json} (storable : treeStorable tree = true) :
    treeStorable (htmlEscaped tree) = true := by
  match tree with
  | .word name => rw [htmlEscaped, treeStorable]
  | .number literal => rw [htmlEscaped, treeStorable]
  | .string literal =>
      rw [treeStorable] at storable
      rw [htmlEscaped, treeStorable, html_escaped_storable storable]
  | .array elements =>
      rw [treeStorable] at storable
      rw [htmlEscaped, treeStorable, elements_html_escaped storable]
  | .object members =>
      rw [treeStorable] at storable
      rw [htmlEscaped, treeStorable, members_html_escaped storable]

theorem elements_html_escaped {elements : List Json} (storable : elementsStorable elements = true) :
    elementsStorable (htmlEscapedElements elements) = true := by
  match elements with
  | [] => rw [htmlEscapedElements, elementsStorable]
  | next :: others =>
      rw [elementsStorable, Bool.and_eq_true] at storable
      rw [htmlEscapedElements, elementsStorable, tree_html_escaped storable.1,
        elements_html_escaped storable.2, Bool.and_self]

theorem members_html_escaped {members : List (StringLiteral × Json)}
    (storable : membersStorable members = true) :
    membersStorable (htmlEscapedMembers members) = true := by
  match members with
  | [] => rw [htmlEscapedMembers, membersStorable]
  | (name, value) :: others =>
      rw [membersStorable, Bool.and_eq_true, Bool.and_eq_true] at storable
      rw [htmlEscapedMembers, membersStorable, html_escaped_storable storable.1.1,
        tree_html_escaped storable.1.2, members_html_escaped storable.2, Bool.and_self,
        Bool.and_self]

end

theorem struct_storable {fields : List (String × Json)}
    (names : ∀ field ∈ fields, 0 ∉ ascii field.1)
    (values : ∀ field ∈ fields, treeStorable field.2 = true) :
    treeStorable (structTree fields) = true := by
  rw [structTree, treeStorable]
  induction fields with
  | nil => rw [List.map_nil, membersStorable]
  | cons field others induction =>
      have tail := induction (fun other listed => names other (List.mem_cons_of_mem _ listed))
        fun other listed => values other (List.mem_cons_of_mem _ listed)
      have name := of_bytes_storable (names field List.mem_cons_self)
      rw [List.map_cons, membersStorable, fieldName, name, values field List.mem_cons_self, tail,
        Bool.and_self, Bool.and_self]

theorem render_storable {tree : Json} (storable : treeStorable tree = true) :
    isStorable (render tree) = true := by
  rw [isStorable, parse_render]
  exact storable

end Trees

end ChatScale.JsonbStrings
