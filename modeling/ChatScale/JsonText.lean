import ChatScale.JsonTokens

/-!
# JSON texts and their trees

A tree keeps numbers and strings as they were spelled, so that nothing but
white space separates a text from the compact text of its tree. The parser also
keeps, for every member of an object, the stretch of text its value stood in.
Texts may be nested to any depth; `encoding/json` stops at 10000 levels.
-/

namespace ChatScale.JsonText

open ChatScale.ByteText ChatScale.JsonLiterals ChatScale.JsonTokens

set_option autoImplicit false

inductive Json where
  | word (name : Word)
  | number (literal : NumberLiteral)
  | string (literal : StringLiteral)
  | array (elements : List Json)
  | object (members : List (StringLiteral × Json))

/-- A member of an object: its key, its value, and the tokens of its value. -/
structure Member where
  key : StringLiteral
  value : Json
  raw : List Token

def Member.entry (member : Member) : StringLiteral × Json := (member.key, member.value)

def Token.isSpace : Token → Bool
  | .space _ _ => true
  | _ => false

def skipSpace (tokens : List Token) : List Token := tokens.dropWhile Token.isSpace

section Sequences

variable {Item : Type} (item : List Token → Option (Item × List Token)) (close : Mark)

/-- The items after the first: each follows a comma, the last one is followed
by the closing mark. -/
def moreItems : Nat → List Token → Option (List Item × List Token)
  | 0, _ => none
  | fuel + 1, tokens =>
      let start := skipSpace tokens
      if start.head? = some (.mark close) then some ([], start.tail)
      else if start.head? = some (.mark .comma) then do
        let next ← item (skipSpace start.tail)
        let others ← moreItems fuel next.2
        some (next.1 :: others.1, others.2)
      else none

def parseItems (fuel : Nat) (tokens : List Token) : Option (List Item × List Token) :=
  let start := skipSpace tokens
  if start.head? = some (.mark close) then some ([], start.tail)
  else do
    let first ← item start
    let others ← moreItems item close fuel first.2
    some (first.1 :: others.1, others.2)

end Sequences

def parseMember (value : List Token → Option (Json × List Token)) :
    List Token → Option (Member × List Token)
  | .string key :: afterKey =>
      if (skipSpace afterKey).head? = some (.mark .colon) then do
        let start := skipSpace (skipSpace afterKey).tail
        let parsed ← value start
        let raw := start.take (start.length - parsed.2.length)
        some (⟨key, parsed.1, raw⟩, parsed.2)
      else none
  | _ => none

def parseValue : Nat → List Token → Option (Json × List Token)
  | 0, _ => none
  | fuel + 1, tokens =>
      match tokens with
      | .word name :: rest => some (.word name, rest)
      | .number literal :: rest => some (.number literal, rest)
      | .string literal :: rest => some (.string literal, rest)
      | .mark .beginArray :: rest =>
          (parseItems (parseValue fuel) .endArray fuel rest).map fun parsed =>
            (.array parsed.1, parsed.2)
      | .mark .beginObject :: rest =>
          (parseItems (parseMember (parseValue fuel)) .endObject fuel rest).map fun parsed =>
            (.object (parsed.1.map Member.entry), parsed.2)
      | _ => none

/-- The tree of a whole text, if it is one JSON value between white space. -/
def parse (text : Bytes) : Option Json := do
  let tokens ← lex text
  let parsed ← parseValue tokens.length (skipSpace tokens)
  if skipSpace parsed.2 = [] then some parsed.1 else none

/-- `json.Valid`. -/
def isValid (text : Bytes) : Bool := (parse text).isSome

/-- The members of a text that is one object. -/
def parseMembers (text : Bytes) : Option (List Member) := do
  let tokens ← lex text
  let start := skipSpace tokens
  if start.head? = some (.mark .beginObject) then do
    let value := parseValue tokens.length
    let parsed ← parseItems (parseMember value) .endObject tokens.length start.tail
    if skipSpace parsed.2 = [] then some parsed.1 else none
  else none

mutual

/-- The tokens of a tree, without white space. -/
def compact : Json → List Token
  | .word name => [.word name]
  | .number literal => [.number literal]
  | .string literal => [.string literal]
  | .array [] => [.mark .beginArray, .mark .endArray]
  | .array (first :: others) => .mark .beginArray :: compact first ++ compactElements others
  | .object [] => [.mark .beginObject, .mark .endObject]
  | .object ((key, value) :: others) =>
      .mark .beginObject :: .string key :: .mark .colon :: compact value ++ compactMembers others

def compactElements : List Json → List Token
  | [] => [.mark .endArray]
  | next :: others => .mark .comma :: compact next ++ compactElements others

def compactMembers : List (StringLiteral × Json) → List Token
  | [] => [.mark .endObject]
  | (key, value) :: others =>
      .mark .comma :: .string key :: .mark .colon :: compact value ++ compactMembers others

end

/-- The compact text of a tree, as `json.Marshal` writes it. -/
def render (tree : Json) : Bytes := spell (compact tree)

example : (parse (ascii " [1, \x7b\"a\" : [ ] , \"a\":null\x7d] ")).map render =
    some (ascii "[1,\x7b\"a\":[],\"a\":null\x7d]") := by decide +kernel

section Reading

/-- Tokens a value can start with. -/
def Token.opens : Token → Bool
  | .space _ _ => false
  | .mark .beginArray => true
  | .mark .beginObject => true
  | .mark _ => false
  | _ => true

def Starts (tokens : List Token) : Prop :=
  ∃ first tail, tokens = first :: tail ∧ Token.opens first = true

def Spaces (tokens : List Token) : Prop := ∀ token ∈ tokens, Token.isSpace token = true

/-- The parser takes exactly these tokens for this result, whatever follows. -/
def Reads {Result : Type} (parser : List Token → Option (Result × List Token))
    (used : List Token) (result : Result) : Prop :=
  ∀ rest, parser (used ++ rest) = some (result, rest)

/-- With fuel for the tokens it takes, the parser takes them for this result. -/
def Consumes {Result : Type} (parser : Nat → List Token → Option (Result × List Token))
    (used : List Token) (result : Result) : Prop :=
  Starts used ∧ ∀ fuel, used.length ≤ fuel → Reads (parser fuel) used result

theorem starts_length {tokens : List Token} (starts : Starts tokens) : 0 < tokens.length := by
  obtain ⟨first, tail, rfl, _⟩ := starts
  simp

theorem skip_space_split (tokens : List Token) :
    ∃ spaces, Spaces spaces ∧ tokens = spaces ++ skipSpace tokens :=
  ⟨tokens.takeWhile Token.isSpace, fun _ member => List.mem_takeWhile_imp member,
    List.takeWhile_append_dropWhile.symm⟩

theorem skip_space_token {spaces : List Token} (white : Spaces spaces) {token : Token}
    (solid : Token.isSpace token = false) (rest : List Token) :
    skipSpace (spaces ++ token :: rest) = token :: rest := by
  rw [skipSpace, List.dropWhile_append_of_pos white, List.dropWhile_cons_of_neg (by simp [solid])]

theorem skip_space_mark {spaces : List Token} (white : Spaces spaces) (sign : Mark)
    (rest : List Token) : skipSpace (spaces ++ .mark sign :: rest) = .mark sign :: rest :=
  skip_space_token white rfl rest

theorem opens_solid {token : Token} (opens : Token.opens token = true) :
    Token.isSpace token = false := by
  cases token with
  | space byte white => cases opens
  | _ => rfl

theorem skip_space_starts {spaces tokens : List Token} (white : Spaces spaces)
    (starts : Starts tokens) (rest : List Token) :
    skipSpace (spaces ++ (tokens ++ rest)) = tokens ++ rest := by
  obtain ⟨first, tail, rfl, opens⟩ := starts
  exact skip_space_token white (opens_solid opens) (tail ++ rest)

theorem starts_append {tokens : List Token} (starts : Starts tokens) (rest : List Token) :
    Starts (tokens ++ rest) := by
  obtain ⟨first, tail, rfl, opens⟩ := starts
  exact ⟨first, tail ++ rest, rfl, opens⟩

theorem starts_not_close {tokens : List Token} (starts : Starts tokens) {close : Mark}
    (closes : Token.opens (.mark close) = false) : tokens.head? ≠ some (.mark close) := by
  obtain ⟨first, tail, rfl, opens⟩ := starts
  rintro same
  cases same
  rw [closes] at opens
  cases opens

theorem consumes_leaf {token : Token} {value : Json} (opens : Token.opens token = true)
    (leaf : ∀ fuel rest, parseValue (fuel + 1) (token :: rest) = some (value, rest)) :
    Consumes parseValue [token] value := by
  refine ⟨⟨token, [], rfl, opens⟩, ?_⟩
  intro fuel enough rest
  obtain ⟨fuel, rfl⟩ := Nat.exists_eq_succ_of_ne_zero (show fuel ≠ 0 by simp at enough; omega)
  exact leaf fuel rest

section Sequences

variable {Item : Type} {item : Nat → List Token → Option (Item × List Token)} {close : Mark}

/-- The same for the items after the first one and the closing mark. -/
def ConsumesMore (item : Nat → List Token → Option (Item × List Token)) (close : Mark)
    (used : List Token) (items : List Item) : Prop :=
  0 < used.length ∧ ∀ itemFuel fuel, used.length ≤ itemFuel → used.length ≤ fuel →
    Reads (moreItems (item itemFuel) close fuel) used items

def ConsumesItems (item : Nat → List Token → Option (Item × List Token)) (close : Mark)
    (used : List Token) (items : List Item) : Prop :=
  ∀ fuel, used.length ≤ fuel → Reads (parseItems (item fuel) close fuel) used items

theorem consumes_more_nil {spaces : List Token} (white : Spaces spaces) :
    ConsumesMore item close (spaces ++ [.mark close]) [] := by
  refine ⟨by simp, ?_⟩
  intro itemFuel fuel _ enough rest
  obtain ⟨fuel, rfl⟩ := Nat.exists_eq_succ_of_ne_zero (show fuel ≠ 0 by simp at enough; omega)
  simp [moreItems, skip_space_mark white]

theorem consumes_more_cons {spaces gap used more : List Token} {value : Item}
    {others : List Item} (white : Spaces spaces) (gapWhite : Spaces gap)
    (notComma : close ≠ .comma) (next : Consumes item used value)
    (tail : ConsumesMore item close more others) :
    ConsumesMore item close (spaces ++ .mark .comma :: (gap ++ (used ++ more)))
      (value :: others) := by
  refine ⟨by simp, ?_⟩
  intro itemFuel fuel enoughItem enough rest
  have positive := starts_length next.1
  have morePositive := tail.1
  simp only [List.length_append, List.length_cons] at enoughItem enough
  obtain ⟨fuel, rfl⟩ := Nat.exists_eq_succ_of_ne_zero (show fuel ≠ 0 by omega)
  have start := skip_space_starts gapWhite next.1 (more ++ rest)
  have first := next.2 itemFuel (by omega) (more ++ rest)
  have afterwards := tail.2 itemFuel fuel (by omega) (by omega) rest
  simp [moreItems, skip_space_mark white, start, first, afterwards, Ne.symm notComma]

theorem consumes_items_nil {spaces : List Token} (white : Spaces spaces) :
    ConsumesItems item close (spaces ++ [.mark close]) [] := by
  intro fuel _ rest
  simp [parseItems, skip_space_mark white]

theorem consumes_items_cons {spaces used more : List Token} {value : Item} {others : List Item}
    (white : Spaces spaces) (closes : Token.opens (.mark close) = false)
    (first : Consumes item used value) (tail : ConsumesMore item close more others) :
    ConsumesItems item close (spaces ++ (used ++ more)) (value :: others) := by
  intro fuel enough rest
  simp only [List.length_append] at enough
  have skipped : skipSpace (spaces ++ (used ++ more) ++ rest) = used ++ (more ++ rest) := by
    simpa using skip_space_starts white first.1 (more ++ rest)
  have notClose := starts_not_close (starts_append first.1 (more ++ rest)) closes
  have head := first.2 fuel (by omega) (more ++ rest)
  have afterwards := tail.2 fuel fuel (by omega) (by omega) rest
  simp only [parseItems, skipped, if_neg notClose, head, afterwards, Option.bind_eq_bind,
    Option.bind_some]

end Sequences

theorem consumes_array {used : List Token} {elements : List Json}
    (inner : ConsumesItems parseValue .endArray used elements) :
    Consumes parseValue (.mark .beginArray :: used) (.array elements) := by
  refine ⟨⟨_, _, rfl, rfl⟩, ?_⟩
  intro fuel enough rest
  rw [List.length_cons] at enough
  obtain ⟨fuel, rfl⟩ := Nat.exists_eq_succ_of_ne_zero (show fuel ≠ 0 by omega)
  rw [List.cons_append, parseValue, inner fuel (by omega) rest, Option.map_some]

theorem consumes_object {used : List Token} {members : List Member}
    (inner : ConsumesItems (fun fuel => parseMember (parseValue fuel)) .endObject used members) :
    Consumes parseValue (.mark .beginObject :: used) (.object (members.map Member.entry)) := by
  refine ⟨⟨_, _, rfl, rfl⟩, ?_⟩
  intro fuel enough rest
  rw [List.length_cons] at enough
  obtain ⟨fuel, rfl⟩ := Nat.exists_eq_succ_of_ne_zero (show fuel ≠ 0 by omega)
  rw [List.cons_append, parseValue, inner fuel (by omega) rest, Option.map_some]

theorem consumes_member (key : StringLiteral) {spaces gap used : List Token} {value : Json}
    (white : Spaces spaces) (gapWhite : Spaces gap) (inner : Consumes parseValue used value) :
    Consumes (fun fuel => parseMember (parseValue fuel))
      (.string key :: (spaces ++ .mark .colon :: (gap ++ used))) ⟨key, value, used⟩ := by
  refine ⟨⟨_, _, rfl, rfl⟩, ?_⟩
  intro fuel enough rest
  simp only [List.length_append, List.length_cons] at enough
  have start := skip_space_starts gapWhite inner.1 rest
  have parsed := inner.2 fuel (by omega) rest
  simp [parseMember, skip_space_mark white, start, parsed]

/-- Every successful reading of a parser is of the kind `Consumes` describes. -/
def Local {Result : Type} (parser : Nat → List Token → Option (Result × List Token))
    (sound : List Token → Result → Prop) (fuel : Nat) : Prop :=
  ∀ tokens result rest, parser fuel tokens = some (result, rest) →
    ∃ used, tokens = used ++ rest ∧ Consumes parser used result ∧ sound used result

section Sequences

variable {Item : Type} {item : Nat → List Token → Option (Item × List Token)} {close : Mark}
  {sound : List Token → Item → Prop}

/-- Each item was read from a stretch of these tokens. -/
def ItemsSound (sound : List Token → Item → Prop) (used : List Token) (items : List Item) :
    Prop :=
  ∀ value ∈ items, ∃ part, part <:+: used ∧ sound part value

theorem items_sound_cons {value : Item} {others : List Item} {part more used : List Token}
    (first : sound part value) (tail : ItemsSound sound more others)
    (inside : part <:+: used) (moreInside : more <:+: used) :
    ItemsSound sound used (value :: others) := by
  intro other member
  rcases List.mem_cons.mp member with rfl | member
  · exact ⟨part, inside, first⟩
  · obtain ⟨inner, within, holds⟩ := tail other member
    exact ⟨inner, within.trans moreInside, holds⟩

theorem head_mark {tokens : List Token} {sign : Mark} (head : tokens.head? = some (.mark sign)) :
    tokens = .mark sign :: tokens.tail := by
  cases tokens with
  | nil => cases head
  | cons first tail => cases head; rfl

theorem more_items_local (notComma : close ≠ .comma) {itemFuel : Nat}
    (reading : Local item sound itemFuel) (fuel : Nat) (tokens rest : List Token)
    (items : List Item) (read : moreItems (item itemFuel) close fuel tokens = some (items, rest)) :
    ∃ used, tokens = used ++ rest ∧ ConsumesMore item close used items ∧
      ItemsSound sound used items := by
  induction fuel generalizing tokens items with
  | zero => cases read
  | succ fuel induction =>
      obtain ⟨spaces, white, split⟩ := skip_space_split tokens
      rw [moreItems] at read
      split_ifs at read with closed comma
      · cases read
        rw [head_mark closed] at split
        exact ⟨spaces ++ [.mark close], by simpa using split, consumes_more_nil white,
          fun value member => by cases member⟩
      · simp only [Option.bind_eq_bind, Option.bind_eq_some_iff] at read
        obtain ⟨⟨value, afterItem⟩, readItem, ⟨others, after⟩, readMore, same⟩ := read
        cases same
        obtain ⟨gap, gapWhite, gapSplit⟩ := skip_space_split (skipSpace tokens).tail
        obtain ⟨used, usedSplit, consumes, holds⟩ := reading _ _ _ readItem
        obtain ⟨more, moreSplit, consumesMore, moreSound⟩ := induction _ _ readMore
        simp only at moreSplit
        refine ⟨spaces ++ .mark .comma :: (gap ++ (used ++ more)), ?_,
          consumes_more_cons white gapWhite notComma consumes consumesMore,
          items_sound_cons holds moreSound ?_ ?_⟩
        · rw [split, head_mark comma, gapSplit, usedSplit, moreSplit]
          simp
        · exact ⟨spaces ++ .mark .comma :: gap, more, by simp⟩
        · exact ⟨spaces ++ .mark .comma :: (gap ++ used), [], by simp⟩

theorem items_local (notComma : close ≠ .comma) (closes : Token.opens (.mark close) = false)
    {fuel : Nat} (reading : Local item sound fuel) (tokens rest : List Token) (items : List Item)
    (read : parseItems (item fuel) close fuel tokens = some (items, rest)) :
    ∃ used, tokens = used ++ rest ∧ ConsumesItems item close used items ∧
      ItemsSound sound used items := by
  obtain ⟨spaces, white, split⟩ := skip_space_split tokens
  rw [parseItems] at read
  split_ifs at read with closed
  · cases read
    rw [head_mark closed] at split
    exact ⟨spaces ++ [.mark close], by simpa using split, consumes_items_nil white,
      fun value member => by cases member⟩
  · simp only [Option.bind_eq_bind, Option.bind_eq_some_iff] at read
    obtain ⟨⟨value, afterItem⟩, readItem, ⟨others, after⟩, readMore, same⟩ := read
    cases same
    obtain ⟨used, usedSplit, consumes, holds⟩ := reading _ _ _ readItem
    obtain ⟨more, moreSplit, consumesMore, moreSound⟩ :=
      more_items_local notComma reading fuel _ _ _ readMore
    simp only at moreSplit
    refine ⟨spaces ++ (used ++ more), ?_, consumes_items_cons white closes consumes consumesMore,
      items_sound_cons holds moreSound ?_ ?_⟩
    · rw [split, usedSplit, moreSplit]
      simp
    · exact ⟨spaces, more, by simp⟩
    · exact ⟨spaces ++ used, [], by simp⟩

end Sequences

/-- The tokens kept for a member's value are the tokens its value was read
from. -/
def MemberSound (used : List Token) (member : Member) : Prop :=
  member.raw <:+: used ∧ Consumes parseValue member.raw member.value

theorem parse_member_local {fuel : Nat} (value : Local parseValue (fun _ _ => True) fuel) :
    Local (fun fuel => parseMember (parseValue fuel)) MemberSound fuel := by
  intro tokens member rest read
  match tokens with
  | .string key :: afterKey =>
      simp only [parseMember] at read
      split_ifs at read with colon
      simp only [Option.bind_eq_bind, Option.bind_eq_some_iff] at read
      obtain ⟨⟨tree, after⟩, readValue, same⟩ := read
      obtain ⟨spaces, white, split⟩ := skip_space_split afterKey
      obtain ⟨gap, gapWhite, gapSplit⟩ := skip_space_split (skipSpace afterKey).tail
      obtain ⟨used, usedSplit, consumes, _⟩ := value _ _ _ readValue
      have raw : (skipSpace (skipSpace afterKey).tail).take
          ((skipSpace (skipSpace afterKey).tail).length - after.length) = used := by
        rw [usedSplit, List.length_append, Nat.add_sub_cancel, List.take_left]
      simp only [raw, Option.some.injEq, Prod.mk.injEq] at same
      obtain ⟨rfl, rfl⟩ := same
      refine ⟨.string key :: (spaces ++ .mark .colon :: (gap ++ used)), ?_,
        consumes_member key white gapWhite consumes, ?_, consumes⟩
      · rw [split, head_mark colon, gapSplit, usedSplit]
        simp
      · exact ⟨.string key :: (spaces ++ .mark .colon :: gap), [], by simp⟩

theorem parse_value_local (fuel : Nat) : Local parseValue (fun _ _ => True) fuel := by
  induction fuel with
  | zero => intro tokens value rest read; cases read
  | succ fuel induction =>
      intro tokens value rest read
      rw [parseValue.eq_def] at read
      simp only at read
      split at read
      · cases read
        exact ⟨[_], rfl, consumes_leaf rfl fun _ _ => by rw [parseValue], trivial⟩
      · cases read
        exact ⟨[_], rfl, consumes_leaf rfl fun _ _ => by rw [parseValue], trivial⟩
      · cases read
        exact ⟨[_], rfl, consumes_leaf rfl fun _ _ => by rw [parseValue], trivial⟩
      · obtain ⟨⟨elements, after⟩, readItems, same⟩ := Option.map_eq_some_iff.mp read
        cases same
        obtain ⟨used, split, consumes, _⟩ :=
          items_local (by decide) rfl induction _ _ _ readItems
        exact ⟨.mark .beginArray :: used, by rw [split]; rfl, consumes_array consumes, trivial⟩
      · obtain ⟨⟨members, after⟩, readItems, same⟩ := Option.map_eq_some_iff.mp read
        cases same
        obtain ⟨used, split, consumes, _⟩ :=
          items_local (by decide) rfl (parse_member_local induction) _ _ _ readItems
        exact ⟨.mark .beginObject :: used, by rw [split]; rfl, consumes_object consumes, trivial⟩
      · cases read

theorem spell_append (left right : List Token) :
    spell (left ++ right) = spell left ++ spell right := List.flatMap_append

theorem separated_left {left right : List Token} (separated : Separated (left ++ right)) :
    Separated left := by
  induction left with
  | nil => trivial
  | cons token left induction =>
      refine ⟨?_, induction separated.2⟩
      have fits : token.fits (spell (left ++ right)) := separated.1
      rw [spell_append] at fits
      cases token with
      | number literal =>
          intro byte member
          exact fits byte (by rw [List.head?_append, Option.mem_def.mp member]; rfl)
      | _ => trivial

theorem separated_right {left right : List Token} (separated : Separated (left ++ right)) :
    Separated right := by
  induction left with
  | nil => exact separated
  | cons token left induction => exact induction separated.2

theorem separated_within {part tokens : List Token} (within : part <:+: tokens)
    (separated : Separated tokens) : Separated part := by
  obtain ⟨before, after, rfl⟩ := within
  exact separated_right (separated_left separated)

theorem skip_space_nil {tokens : List Token} (skipped : skipSpace tokens = []) :
    Spaces tokens := by
  obtain ⟨spaces, white, split⟩ := skip_space_split tokens
  rw [skipped, List.append_nil] at split
  rwa [split]

theorem skip_spaces {tokens : List Token} (white : Spaces tokens) : skipSpace tokens = [] :=
  List.dropWhile_eq_nil_iff.mpr white

/-- A text is a JSON value exactly when it is the value's tokens between white
space. -/
theorem parse_iff {text : Bytes} {value : Json} :
    parse text = some value ↔ ∃ before used after, lex text = some (before ++ (used ++ after)) ∧
      Spaces before ∧ Spaces after ∧ Consumes parseValue used value := by
  constructor
  · intro parsed
    simp only [parse, Option.bind_eq_bind, Option.bind_eq_some_iff] at parsed
    obtain ⟨tokens, cut, ⟨tree, rest⟩, read, same⟩ := parsed
    split_ifs at same with finished
    cases same
    obtain ⟨before, white, split⟩ := skip_space_split tokens
    obtain ⟨used, usedSplit, consumes, _⟩ := parse_value_local _ _ _ _ read
    rw [usedSplit] at split
    exact ⟨before, used, rest, by rw [cut, split], white, skip_space_nil finished, consumes⟩
  · rintro ⟨before, used, after, cut, white, afterWhite, consumes⟩
    have read := consumes.2 (before ++ (used ++ after)).length
      (by simp only [List.length_append]; omega) after
    simp only [parse, cut, skip_space_starts white consumes.1, read, skip_spaces afterWhite,
      Option.bind_eq_bind, Option.bind_some, if_true]

theorem parse_members_iff {text : Bytes} {members : List Member} :
    parseMembers text = some members ↔
      ∃ before used after, lex text = some (before ++ (.mark .beginObject :: used ++ after)) ∧
        Spaces before ∧ Spaces after ∧
        ConsumesItems (fun fuel => parseMember (parseValue fuel)) .endObject used members ∧
        ItemsSound MemberSound used members := by
  constructor
  · intro parsed
    simp only [parseMembers, Option.bind_eq_bind, Option.bind_eq_some_iff] at parsed
    obtain ⟨tokens, cut, rest⟩ := parsed
    split_ifs at rest with brace
    obtain ⟨⟨items, after⟩, read, same⟩ := Option.bind_eq_some_iff.mp rest
    split_ifs at same with finished
    cases same
    obtain ⟨before, white, split⟩ := skip_space_split tokens
    have reading := parse_member_local (parse_value_local tokens.length)
    obtain ⟨used, usedSplit, consumes, sound⟩ := items_local (by decide) rfl reading _ _ _ read
    rw [head_mark brace, usedSplit] at split
    exact ⟨before, used, after, by rw [cut, split]; rfl, white, skip_space_nil finished, consumes,
      sound⟩
  · rintro ⟨before, used, after, cut, white, afterWhite, consumes, _⟩
    have read := consumes (before ++ (.mark .beginObject :: used ++ after)).length
      (by simp only [List.length_append, List.length_cons]; omega) after
    simp only [List.cons_append] at read cut
    simp only [parseMembers, cut, skip_space_mark white, List.head?_cons, List.tail_cons, read,
      skip_spaces afterWhite, Option.bind_eq_bind, Option.bind_some, if_true]

theorem parse_spell {tokens : List Token} {value : Json} (separated : Separated tokens)
    (consumes : Consumes parseValue tokens value) : parse (spell tokens) = some value := by
  have nothing : Spaces [] := by
    intro token member
    cases member
  refine parse_iff.mpr ⟨[], tokens, [], ?_, nothing, nothing, consumes⟩
  rw [lex_spell separated, List.nil_append, List.append_nil]

/-- The text kept for a member is a JSON text of its value. -/
theorem parse_member_raw {text : Bytes} {members : List Member}
    (parsed : parseMembers text = some members) (member : Member) (listed : member ∈ members) :
    parse (spell member.raw) = some member.value := by
  obtain ⟨before, used, after, cut, _, _, _, sound⟩ := parse_members_iff.mp parsed
  obtain ⟨part, inside, rawInside, consumes⟩ := sound member listed
  have separated := (lex_sound cut).2
  have whole : used <:+: before ++ (.mark .beginObject :: used ++ after) :=
    ⟨before ++ [.mark .beginObject], after, by simp⟩
  have raw := separated_within ((rawInside.trans inside).trans whole) separated
  exact parse_spell raw consumes

theorem consumes_object_cases {used : List Token} {entries : List (StringLiteral × Json)}
    (consumes : Consumes parseValue used (.object entries)) :
    ∃ inner members, used = .mark .beginObject :: inner ∧ members.map Member.entry = entries ∧
      ConsumesItems (fun fuel => parseMember (parseValue fuel)) .endObject inner members ∧
      ItemsSound MemberSound inner members := by
  have read := consumes.2 (used.length + 1) (by omega) []
  rw [parseValue.eq_def] at read
  simp only [List.append_nil] at read
  split at read <;> try cases read
  · obtain ⟨parsed, _, same⟩ := Option.map_eq_some_iff.mp read
    cases same
  · obtain ⟨⟨members, after⟩, readItems, same⟩ := Option.map_eq_some_iff.mp read
    cases same
    obtain ⟨inner, split, items, sound⟩ :=
      items_local (by decide) rfl (parse_member_local (parse_value_local _)) _ _ _ readItems
    rw [List.append_nil] at split
    exact ⟨inner, members, by rw [split], rfl, items, sound⟩

theorem members_of_parse {text : Bytes} {entries : List (StringLiteral × Json)}
    (parsed : parse text = some (.object entries)) :
    ∃ members, parseMembers text = some members ∧ members.map Member.entry = entries := by
  obtain ⟨before, used, after, cut, white, afterWhite, consumes⟩ := parse_iff.mp parsed
  obtain ⟨inner, members, rfl, same, items, sound⟩ := consumes_object_cases consumes
  exact ⟨members, parse_members_iff.mpr ⟨before, inner, after, cut, white, afterWhite, items,
    sound⟩, same⟩

end Reading

section Rendering

theorem ends_number_mark (sign : Mark) (rest : List Token) :
    endsNumber (spell (.mark sign :: rest)) := by
  intro byte member
  have same : sign.byte = byte := by simpa [spell, Token.text] using member
  rw [← same]
  cases sign <;> decide

mutual

theorem separated_compact (tree : Json) (rest : List Token) (separated : Separated rest)
    (ends : endsNumber (spell rest)) : Separated (compact tree ++ rest) := by
  match tree with
  | .word name => rw [compact]; exact ⟨trivial, separated⟩
  | .number literal => rw [compact]; exact ⟨ends, separated⟩
  | .string literal => rw [compact]; exact ⟨trivial, separated⟩
  | .array [] => rw [compact]; exact ⟨trivial, trivial, separated⟩
  | .array (first :: others) =>
      obtain ⟨tail, tailEnds⟩ := separated_elements others rest separated
      rw [compact, List.append_assoc]
      exact ⟨trivial, separated_compact first _ tail tailEnds⟩
  | .object [] => rw [compact]; exact ⟨trivial, trivial, separated⟩
  | .object ((key, value) :: others) =>
      obtain ⟨tail, tailEnds⟩ := separated_members others rest separated
      rw [compact, List.append_assoc]
      exact ⟨trivial, trivial, trivial, separated_compact value _ tail tailEnds⟩

theorem separated_elements (elements : List Json) (rest : List Token)
    (separated : Separated rest) :
    Separated (compactElements elements ++ rest) ∧
      endsNumber (spell (compactElements elements ++ rest)) := by
  match elements with
  | [] => rw [compactElements]; exact ⟨⟨trivial, separated⟩, ends_number_mark _ _⟩
  | next :: others =>
      obtain ⟨tail, tailEnds⟩ := separated_elements others rest separated
      rw [compactElements, List.append_assoc]
      exact ⟨⟨trivial, separated_compact next _ tail tailEnds⟩, ends_number_mark _ _⟩

theorem separated_members (members : List (StringLiteral × Json)) (rest : List Token)
    (separated : Separated rest) :
    Separated (compactMembers members ++ rest) ∧
      endsNumber (spell (compactMembers members ++ rest)) := by
  match members with
  | [] => rw [compactMembers]; exact ⟨⟨trivial, separated⟩, ends_number_mark _ _⟩
  | (key, value) :: others =>
      obtain ⟨tail, tailEnds⟩ := separated_members others rest separated
      rw [compactMembers, List.append_assoc]
      exact ⟨⟨trivial, trivial, trivial, separated_compact value _ tail tailEnds⟩,
        ends_number_mark _ _⟩

end

def memberOf (entry : StringLiteral × Json) : Member := ⟨entry.1, entry.2, compact entry.2⟩

mutual

theorem consumes_compact (tree : Json) : Consumes parseValue (compact tree) tree := by
  have nothing : Spaces [] := fun _ member => absurd member List.not_mem_nil
  match tree with
  | .word name => rw [compact]; exact consumes_leaf rfl fun _ _ => by rw [parseValue]
  | .number literal => rw [compact]; exact consumes_leaf rfl fun _ _ => by rw [parseValue]
  | .string literal => rw [compact]; exact consumes_leaf rfl fun _ _ => by rw [parseValue]
  | .array [] => rw [compact]; exact consumes_array (consumes_items_nil nothing)
  | .array (first :: others) =>
      rw [compact]
      exact consumes_array (consumes_items_cons nothing rfl (consumes_compact first)
        (consumes_elements others))
  | .object [] => rw [compact]; exact consumes_object (consumes_items_nil nothing)
  | .object ((key, value) :: others) =>
      have same : ((key, value) :: others) = ((key, value) :: others).map
          (Member.entry ∘ memberOf) := by simp [Function.comp_def, Member.entry, memberOf]
      rw [compact, same, ← List.map_map]
      exact consumes_object (consumes_items_cons nothing rfl
        (consumes_member key nothing nothing (consumes_compact value)) (consumes_members others))

theorem consumes_elements (elements : List Json) :
    ConsumesMore parseValue .endArray (compactElements elements) elements := by
  have nothing : Spaces [] := fun _ member => absurd member List.not_mem_nil
  match elements with
  | [] => rw [compactElements]; exact consumes_more_nil nothing
  | next :: others =>
      rw [compactElements]
      exact consumes_more_cons nothing nothing (by decide) (consumes_compact next)
        (consumes_elements others)

theorem consumes_members (members : List (StringLiteral × Json)) :
    ConsumesMore (fun fuel => parseMember (parseValue fuel)) .endObject (compactMembers members)
      (members.map memberOf) := by
  have nothing : Spaces [] := fun _ member => absurd member List.not_mem_nil
  match members with
  | [] => rw [compactMembers]; exact consumes_more_nil nothing
  | (key, value) :: others =>
      rw [compactMembers]
      exact consumes_more_cons nothing nothing (by decide)
        (consumes_member key nothing nothing (consumes_compact value)) (consumes_members others)

end

/-- Parsing what was rendered gives the tree back. -/
theorem parse_render (tree : Json) : parse (render tree) = some tree := by
  have separated : Separated (compact tree ++ []) :=
    separated_compact tree [] trivial fun _ member => by cases member
  rw [List.append_nil] at separated
  exact parse_spell separated (consumes_compact tree)

end Rendering

end ChatScale.JsonText
