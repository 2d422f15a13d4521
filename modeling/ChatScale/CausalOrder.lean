import Mathlib.Data.List.Infix
import Mathlib.Data.List.Nodup

/-!
# Lists in which everything comes after what it depends on

Items may come more than once and late, but none comes for the first time before
the items it depends on. Of numbers that depend on all smaller ones, the first
occurrences then are 1, 2, 3 and so on, without a gap.
-/

namespace ChatScale.CausalOrder

set_option autoImplicit false

variable {Item : Type*}

/-- What an item depends on stands before it. -/
def Causal (needs : Item → Item → Prop) (items : List Item) : Prop :=
  ∀ earlier item later, items = earlier ++ item :: later →
    ∀ other, needs item other → other ∈ earlier

section Lists

variable {needs : Item → Item → Prop} {items : List Item}

theorem causal_nil : Causal needs ([] : List Item) := by
  intro earlier item later split
  simp at split

theorem causal_of_initial {more : List Item} (shorter : items <+: more)
    (causal : Causal needs more) : Causal needs items := by
  rcases shorter with ⟨rest, rfl⟩
  intro earlier item later split
  apply causal earlier item (later ++ rest)
  simp [split]

theorem causal_snoc {item : Item} :
    Causal needs (items ++ [item]) ↔
      Causal needs items ∧ ∀ other, needs item other → other ∈ items := by
  constructor
  · intro causal
    exact ⟨causal_of_initial (List.prefix_append items [item]) causal, causal items item [] rfl⟩
  · intro both earlier next later split
    rcases List.append_eq_append_iff.mp split with ⟨gap, front, back⟩ | ⟨gap, front, back⟩
    · cases gap with
      | nil =>
          simp only [List.nil_append, List.cons.injEq] at back
          rw [front, List.append_nil, ← back.1]
          exact both.2
      | cons first others => simp at back
    · cases gap with
      | nil =>
          simp only [List.nil_append, List.cons.injEq] at back
          rw [List.append_nil] at front
          rw [← front, back.1]
          exact both.2
      | cons first others =>
          simp only [List.cons_append, List.cons.injEq] at back
          rw [back.1]
          exact both.1 earlier first others front

/-- The first item depends on nothing. -/
theorem causal_head {item other : Item} (causal : Causal needs (item :: items)) :
    ¬ needs item other := by
  intro needed
  exact absurd (causal [] item items rfl other needed) List.not_mem_nil

/-- The first item goes when nothing depends on it any more. -/
theorem causal_tail {left : Item → Item → Prop} {item : Item}
    (causal : Causal needs (item :: items))
    (fewer : ∀ next other, left next other → needs next other)
    (met : ∀ next, ¬ left next item) : Causal left items := by
  intro earlier next later split other needed
  have listed := causal (item :: earlier) next later (by rw [split]; rfl) other
    (fewer next other needed)
  rcases List.mem_cons.mp listed with rfl | inside
  · exact absurd needed (met next)
  · exact inside

theorem causal_weaken {left : Item → Item → Prop} (causal : Causal needs items)
    (fewer : ∀ next other, left next other → needs next other) : Causal left items :=
  fun earlier item later split other needed =>
    causal earlier item later split other (fewer item other needed)

/-- Items whose needs are all met can be added together. -/
theorem causal_append {more : List Item} (causal : Causal needs items)
    (met : ∀ item ∈ more, ∀ other, needs item other → other ∈ items) :
    Causal needs (items ++ more) := by
  induction more using List.reverseRecOn with
  | nil => simpa using causal
  | append_singleton more last induction =>
      rw [← List.append_assoc, causal_snoc]
      constructor
      · exact induction fun item listed => met item (List.mem_append_left _ listed)
      · intro other needed
        exact List.mem_append_left _ (met last (by simp) other needed)

end Lists

section FirstSeen

variable [DecidableEq Item]

def noteItem (seen : List Item) (item : Item) : List Item :=
  if seen.contains item then seen else seen ++ [item]

/-- The items in the order in which they came for the first time. -/
def firstSeen (items : List Item) : List Item := items.foldl noteItem []

theorem first_seen_snoc (items : List Item) (item : Item) :
    firstSeen (items ++ [item]) = noteItem (firstSeen items) item := by
  rw [firstSeen, List.foldl_append]
  rfl

theorem mem_first_seen {items : List Item} {item : Item} :
    item ∈ firstSeen items ↔ item ∈ items := by
  induction items using List.reverseRecOn with
  | nil => rfl
  | append_singleton items last induction =>
      rw [first_seen_snoc, noteItem]
      split_ifs with known
      · rw [List.contains_iff_mem] at known
        rw [List.mem_append, List.mem_singleton, ← induction]
        grind
      · simp [induction]

end FirstSeen

section Numbers

/-- A number depends on the numbers between `base` and it. -/
def Follows (base number other : Int) : Prop := base < other ∧ other < number

/-- The `count` numbers after `base`. -/
def numbersFrom (base : Int) (count : Nat) : List Int :=
  (List.range count).map fun (index : Nat) => base + 1 + (index : Int)

variable {base : Int}

theorem mem_numbers_from {count : Nat} {number : Int} :
    number ∈ numbersFrom base count ↔ base < number ∧ number ≤ base + count := by
  simp only [numbersFrom, List.mem_map, List.mem_range]
  constructor
  · intro present
    rcases present with ⟨index, small, rfl⟩
    omega
  · intro bounds
    exact ⟨(number - base - 1).toNat, by omega, by omega⟩

theorem numbers_from_succ (count : Nat) :
    numbersFrom base (count + 1) = numbersFrom base count ++ [base + 1 + (count : Int)] := by
  rw [numbersFrom, List.range_succ, List.map_append]
  rfl

/-- Without a gap: the numbers come for the first time in their order. -/
theorem first_seen_numbers {items : List Int} (above : ∀ item ∈ items, base < item)
    (causal : Causal (Follows base) items) :
    ∃ count : Nat, firstSeen items = numbersFrom base count := by
  induction items using List.reverseRecOn with
  | nil => exact ⟨0, rfl⟩
  | append_singleton items last induction =>
      rcases causal_snoc.mp causal with ⟨before, needed⟩
      rcases induction (fun item listed => above item (List.mem_append_left _ listed)) before
        with ⟨count, seen⟩
      have known (item : Int) : item ∈ items ↔ base < item ∧ item ≤ base + count := by
        rw [← mem_first_seen, seen, mem_numbers_from]
      have lower : base < last := above last (by simp)
      rw [first_seen_snoc, seen, noteItem]
      by_cases old : last ≤ base + count
      · refine ⟨count, if_pos ?_⟩
        rw [List.contains_iff_mem, mem_numbers_from]
        exact ⟨lower, old⟩
      · -- All smaller numbers are there, and none above `base + count`.
        have next : last = base + 1 + count := by
          by_contra larger
          have gap := (known (base + 1 + count)).mp
            (needed (base + 1 + count) ⟨by omega, by omega⟩)
          omega
        refine ⟨count + 1, ?_⟩
        rw [if_neg, numbers_from_succ, next]
        rw [List.contains_iff_mem, mem_numbers_from]
        omega

end Numbers

end ChatScale.CausalOrder
