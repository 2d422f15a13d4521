import ChatScale.JsonFields
import Mathlib.Algebra.BigOperators.Group.List.Basic
import Mathlib.Data.List.Sort

/-!
# The text of a stored JSON tree

What a `jsonb` column prints for a tree: a space follows every colon and every
comma, strings are spelled with as few escapes as the grammar allows, an object
has only the last member of each key, shorter keys first. How a number is
spelled is left open.
-/

namespace ChatScale.JsonbText

open ChatScale.ByteText ChatScale.ByteEncodings ChatScale.JsonLiterals
open ChatScale.JsonTokens ChatScale.JsonText ChatScale.JsonValue ChatScale.JsonFields

set_option autoImplicit false

def escapeByte (byte : UInt8) : Bytes :=
  if byte = quoteMark ∨ byte = backslash then [backslash, byte]
  else if byte = 8 then [backslash, 0x62]
  else if byte = 12 then [backslash, 0x66]
  else if byte = 10 then [backslash, 0x6E]
  else if byte = 13 then [backslash, 0x72]
  else if byte = 9 then [backslash, 0x74]
  else if byte < 0x20 then unicodeEscape byte.toNat
  else [byte]

def spellString (text : Bytes) : Bytes := quoteMark :: text.flatMap escapeByte ++ [quoteMark]

def joinComma (parts : List Bytes) : Bytes := List.intercalate [0x2C, 0x20] parts

/-- Each key with the last of its texts. -/
def lastEntries : List (Bytes × Bytes) → List (Bytes × Bytes)
  | [] => []
  | entry :: others =>
      if others.any fun later => later.1 == entry.1 then lastEntries others
      else entry :: lastEntries others

def keyBefore (left right : Bytes × Bytes) : Prop :=
  left.1.length < right.1.length ∨ left.1.length = right.1.length ∧ left.1 ≤ right.1

instance (left right : Bytes × Bytes) : Decidable (keyBefore left right) := by
  unfold keyBefore
  infer_instance

def storedEntries (entries : List (Bytes × Bytes)) : List (Bytes × Bytes) :=
  (lastEntries entries).insertionSort keyBefore

def printEntry (entry : Bytes × Bytes) : Bytes := spellString entry.1 ++ 0x3A :: 0x20 :: entry.2

section Printing

variable (number : NumberLiteral → Bytes)

mutual

def print : Json → Bytes
  | .word name => name.text
  | .number literal => number literal
  | .string literal => spellString literal.value
  | .array elements => 0x5B :: joinComma (printElements elements) ++ [0x5D]
  | .object members =>
      0x7B :: joinComma ((storedEntries (printMembers members)).map printEntry) ++ [0x7D]

def printElements : List Json → List Bytes
  | [] => []
  | next :: others => print next :: printElements others

/-- The keys of an object with the texts of their values. -/
def printMembers : List (StringLiteral × Json) → List (Bytes × Bytes)
  | [] => []
  | (name, value) :: others => (name.value, print value) :: printMembers others

end

end Printing

example : (parse (ascii "\x7b\"ab\":[1,2],\"b\":\"\\u003c\\t\",\"ab\":null\x7d")).map
    (print NumberLiteral.text) = some (ascii "\x7b\"b\": \"<\\t\", \"ab\": null\x7d") := by
  decide +kernel

section Escapes

variable (number : NumberLiteral → Bytes)

mutual

/-- The text does not depend on the escapes a tree was spelled with. -/
theorem print_html_escaped (tree : Json) : print number (htmlEscaped tree) = print number tree := by
  match tree with
  | .word name => rw [htmlEscaped]
  | .number literal => rw [htmlEscaped]
  | .string literal => rw [htmlEscaped, print, print, value_html_escaped]
  | .array elements => rw [htmlEscaped, print, print, print_elements_html_escaped elements]
  | .object members => rw [htmlEscaped, print, print, print_members_html_escaped members]

theorem print_elements_html_escaped (elements : List Json) :
    printElements number (htmlEscapedElements elements) = printElements number elements := by
  match elements with
  | [] => rw [htmlEscapedElements]
  | next :: others =>
      rw [htmlEscapedElements, printElements, printElements, print_html_escaped next,
        print_elements_html_escaped others]

theorem print_members_html_escaped (members : List (StringLiteral × Json)) :
    printMembers number (htmlEscapedMembers members) = printMembers number members := by
  match members with
  | [] => rw [htmlEscapedMembers]
  | (name, value) :: others =>
      rw [htmlEscapedMembers, printMembers, printMembers, print_html_escaped value,
        print_members_html_escaped others, value_html_escaped]

end

theorem escape_plain {text : Bytes} (plain : isPlainText text = true) :
    text.flatMap escapeByte = text := by
  induction text with
  | nil => rfl
  | cons byte text induction =>
      rw [isPlainText, List.all_cons, Bool.and_eq_true] at plain
      have kept : escapeByte byte = [byte] := by
        have printable := plain.1
        grind [isPlainByte, escapeByte]
      rw [List.flatMap_cons, kept, induction plain.2]
      rfl

theorem spell_plain_length {text : Bytes} (plain : isPlainText text = true) :
    (spellString text).length = text.length + 2 := by
  simp [spellString, escape_plain plain]

end Escapes

section Sizes

variable (number : NumberLiteral → Bytes)

/-- A comma and a space stand behind every part but the last. -/
theorem join_length {parts : List Bytes} (inhabited : parts ≠ []) :
    (joinComma parts).length + 2 = (parts.map fun part => part.length + 2).sum := by
  induction parts with
  | nil => exact absurd rfl inhabited
  | cons part others induction =>
      cases others with
      | nil => simp [joinComma]
      | cons next others =>
          have rest := induction (List.cons_ne_nil next others)
          simp only [joinComma, List.intercalate_cons_cons, List.length_append, List.length_cons,
            List.length_nil, List.map_cons, List.sum_cons] at rest ⊢
          omega

theorem last_entries_distinct {entries : List (Bytes × Bytes)}
    (distinct : (entries.map Prod.fst).Nodup) : lastEntries entries = entries := by
  induction entries with
  | nil => rfl
  | cons entry others induction =>
      rw [List.map_cons, List.nodup_cons] at distinct
      have last : (others.any fun later => later.1 == entry.1) = false := by
        rw [List.any_eq_false]
        intro later listed same
        exact distinct.1 (eq_of_beq same ▸ List.mem_map_of_mem listed)
      rw [lastEntries, last, induction distinct.2]
      rfl

/-- What a member takes up: its key, its text, a colon, a comma and two spaces.
The braces of an object make up for the comma and the space it has too few. -/
def entrySize (entry : Bytes × Bytes) : Nat := (spellString entry.1).length + entry.2.length + 4

theorem print_object_length {members : List (StringLiteral × Json)}
    (distinct : ((printMembers number members).map Prod.fst).Nodup)
    (inhabited : printMembers number members ≠ []) :
    (print number (.object members)).length =
      ((printMembers number members).map entrySize).sum := by
  have sorted : (storedEntries (printMembers number members)).Perm
      (printMembers number members) := by
    rw [storedEntries, last_entries_distinct distinct]
    exact List.perm_insertionSort keyBefore _
  have parts : ((storedEntries (printMembers number members)).map printEntry) ≠ [] := by
    intro empty
    rw [List.map_eq_nil_iff] at empty
    rw [empty] at sorted
    exact inhabited sorted.nil_eq.symm
  have size : (fun entry => (printEntry entry).length + 2) = entrySize := by
    funext entry
    simp only [printEntry, entrySize, List.length_append, List.length_cons]
    omega
  have joined := join_length parts
  rw [List.map_map] at joined
  calc (print number (.object members)).length
      = (joinComma ((storedEntries (printMembers number members)).map printEntry)).length + 2 := by
        simp [print]
    _ = ((storedEntries (printMembers number members)).map entrySize).sum := by
        rw [joined, ← size]
        rfl
    _ = ((printMembers number members).map entrySize).sum := (sorted.map entrySize).sum_nat

theorem print_struct_members {fields : List (String × Json)}
    (valid : ∀ field ∈ fields, isValidUtf8 (ascii field.1) = true) :
    printMembers number (fields.map fun field => (fieldName field.1, field.2)) =
      fields.map fun field => (ascii field.1, print number field.2) := by
  induction fields with
  | nil => rw [List.map_nil, List.map_nil, printMembers]
  | cons field others induction =>
      have name : (fieldName field.1).value = ascii field.1 :=
        value_of_valid (valid field (List.mem_cons_self ..))
      rw [List.map_cons, List.map_cons, printMembers, name,
        induction fun other listed => valid other (List.mem_cons_of_mem field listed)]

/-- The text of a struct: its names, four marks for each field, its values. -/
theorem print_struct_length {fields : List (String × Json)} {names : List String}
    (named : fields.map Prod.fst = names) (inhabited : names ≠ [])
    (valid : ∀ name ∈ names, isValidUtf8 (ascii name) = true)
    (distinct : (names.map ascii).Nodup) :
    (print number (structTree fields)).length =
      (names.map fun name => (spellString (ascii name)).length + 4).sum +
        (fields.map fun field => (print number field.2).length).sum := by
  subst named
  have members : printMembers number (fields.map fun field => (fieldName field.1, field.2)) =
      fields.map fun field => (ascii field.1, print number field.2) :=
    print_struct_members number fun field listed => valid field.1 (List.mem_map_of_mem listed)
  rw [structTree, print_object_length number, members, List.map_map, List.map_map,
    ← List.sum_map_add]
  · apply congrArg List.sum
    apply List.map_congr_left
    intro field _
    simp only [Function.comp, entrySize]
    omega
  · rw [members, List.map_map]
    rw [List.map_map] at distinct
    exact distinct
  · rw [members]
    simpa using inhabited

end Sizes

end ChatScale.JsonbText
