import ChatScale.JsonText

/-!
# What a JSON tree denotes

Two trees that differ in spelling can denote one value: strings and numbers are
compared as what they stand for, objects as finite maps in which the last
member of a key counts. `StoredAs` says what a binary JSON column may do to a
tree between writing and reading it.
-/

namespace ChatScale.JsonValue

open ChatScale.ByteText ChatScale.JsonLiterals ChatScale.JsonTokens ChatScale.JsonText

set_option autoImplicit false

inductive Value where
  | word (name : Word)
  | number (value : Rat)
  | string (text : Bytes)
  | array (elements : List Value)
  | object (member : Bytes → Option Value)

/-- The value of the last member with this key. -/
def lastMember : List (StringLiteral × Json) → Bytes → Option Json
  | [], _ => none
  | (name, value) :: others, key =>
      match lastMember others key with
      | some later => some later
      | none => if name.value = key then some value else none

mutual

def denote : Json → Value
  | .word name => .word name
  | .number literal => .number literal.value
  | .string literal => .string literal.value
  | .array elements => .array (denoteElements elements)
  | .object members => .object (denoteMembers members)

def denoteElements : List Json → List Value
  | [] => []
  | next :: others => denote next :: denoteElements others

def denoteMembers : List (StringLiteral × Json) → Bytes → Option Value
  | [], _ => none
  | (name, value) :: others, key =>
      match denoteMembers others key with
      | some later => some later
      | none => if name.value = key then some (denote value) else none

end

theorem denote_elements (elements : List Json) : denoteElements elements = elements.map denote := by
  induction elements with
  | nil => rw [denoteElements]; rfl
  | cons next others induction => rw [denoteElements, induction]; rfl

theorem denote_members (members : List (StringLiteral × Json)) (key : Bytes) :
    denoteMembers members key = (lastMember members key).map denote := by
  induction members with
  | nil => rw [denoteMembers]; rfl
  | cons entry others induction =>
      obtain ⟨name, value⟩ := entry
      rw [denoteMembers, lastMember, induction]
      cases lastMember others key with
      | some later => rfl
      | none =>
          by_cases same : name.value = key
          · simp [same]
          · simp [same]

section Escaping

mutual

/-- The tree of a compacted text: the characters unsafe inside HTML are
escaped in every string, keys included. -/
def htmlEscaped : Json → Json
  | .word name => .word name
  | .number literal => .number literal
  | .string literal => .string literal.htmlEscaped
  | .array elements => .array (htmlEscapedElements elements)
  | .object members => .object (htmlEscapedMembers members)

def htmlEscapedElements : List Json → List Json
  | [] => []
  | next :: others => htmlEscaped next :: htmlEscapedElements others

def htmlEscapedMembers : List (StringLiteral × Json) → List (StringLiteral × Json)
  | [] => []
  | (name, value) :: others => (name.htmlEscaped, htmlEscaped value) :: htmlEscapedMembers others

end

mutual

/-- Compaction does not change the value. -/
theorem denote_html_escaped (tree : Json) : denote (htmlEscaped tree) = denote tree := by
  match tree with
  | .word name => rw [htmlEscaped]
  | .number literal => rw [htmlEscaped]
  | .string literal => rw [htmlEscaped, denote, denote, value_html_escaped]
  | .array elements => rw [htmlEscaped, denote, denote, denote_elements_html_escaped elements]
  | .object members =>
      rw [htmlEscaped, denote, denote]
      exact congrArg Value.object (funext (denote_members_html_escaped members))

theorem denote_elements_html_escaped (elements : List Json) :
    denoteElements (htmlEscapedElements elements) = denoteElements elements := by
  match elements with
  | [] => rw [htmlEscapedElements]
  | next :: others =>
      rw [htmlEscapedElements, denoteElements, denoteElements, denote_html_escaped next,
        denote_elements_html_escaped others]

theorem denote_members_html_escaped (members : List (StringLiteral × Json)) (key : Bytes) :
    denoteMembers (htmlEscapedMembers members) key = denoteMembers members key := by
  match members with
  | [] => rw [htmlEscapedMembers]
  | (name, value) :: others =>
      rw [htmlEscapedMembers, denoteMembers, denoteMembers, denote_html_escaped value,
        denote_members_html_escaped others key, value_html_escaped]

end

end Escaping

section Storage

/-- An integer written without fraction and exponent; a column need not keep the
sign of zero. -/
def isPlainInteger (text : Bytes) : Bool :=
  (dropSign text).all ByteEncodings.isDigit && text != ascii "-0"

def isPlainByte (byte : UInt8) : Bool :=
  0x20 ≤ byte && byte < 0x7F && byte != quoteMark && byte != backslash

/-- Printable ASCII that no string literal has to escape. -/
def isPlainText (text : Bytes) : Bool := text.all isPlainByte

/-- The column keeps the value of a tree. It may respell numbers and strings,
though not plain integers and plain text, reorder members, and it drops all but
the last member of a key. -/
inductive StoredAs : Json → Json → Prop where
  | word (name : Word) : StoredAs (.word name) (.word name)
  | number (literal stored : NumberLiteral) (value : stored.value = literal.value)
      (plain : isPlainInteger literal.text = true → stored.text = literal.text) :
      StoredAs (.number literal) (.number stored)
  | string (literal stored : StringLiteral) (value : stored.value = literal.value)
      (plain : isPlainText literal.value = true → stored.text = literal.value) :
      StoredAs (.string literal) (.string stored)
  | array (elements stored : List Json) (length : stored.length = elements.length)
      (each : ∀ (index : Nat) (before after : Json), elements[index]? = some before →
        stored[index]? = some after → StoredAs before after) :
      StoredAs (.array elements) (.array stored)
  | object (members stored : List (StringLiteral × Json))
      (distinct : (stored.map fun entry => entry.1.value).Nodup)
      (keys : ∀ key, (lastMember stored key).isSome = (lastMember members key).isSome)
      (each : ∀ key before after, lastMember members key = some before →
        lastMember stored key = some after → StoredAs before after) :
      StoredAs (.object members) (.object stored)

theorem denote_stored_as {tree stored : Json} (kept : StoredAs tree stored) :
    denote stored = denote tree := by
  induction kept with
  | word name => rfl
  | number literal stored value plain => rw [denote, denote, value]
  | string literal stored value plain => rw [denote, denote, value]
  | array elements stored length each induction =>
      rw [denote, denote, denote_elements, denote_elements]
      congr 1
      apply List.ext_getElem?
      intro index
      rw [List.getElem?_map, List.getElem?_map]
      by_cases bound : index < elements.length
      · have before := List.getElem?_eq_getElem bound
        have after := List.getElem?_eq_getElem (show index < stored.length by omega)
        rw [before, after, Option.map_some, Option.map_some,
          induction index _ _ before after]
      · rw [List.getElem?_eq_none (by omega), List.getElem?_eq_none (by omega)]
  | object members stored distinct keys each induction =>
      rw [denote, denote]
      congr 1
      funext key
      rw [denote_members, denote_members]
      have both := keys key
      cases before : lastMember members key with
      | none =>
          rw [before, Option.isSome_none, Option.isSome_eq_false_iff, Option.isNone_iff_eq_none]
            at both
          rw [both]
      | some value =>
          rw [before, Option.isSome_some, Option.isSome_iff_exists] at both
          obtain ⟨other, after⟩ := both
          rw [after, Option.map_some, Option.map_some, induction key _ _ before after]

end Storage

end ChatScale.JsonValue
