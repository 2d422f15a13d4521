import Mathlib.Data.List.Sort
import Mathlib.Data.List.Pairwise
import Mathlib.Data.List.Perm.Subperm

/-!
# Pages of a table ordered by a key

A page is the beginning of the rows in decreasing order of their keys. A row that
is not on the page has a smaller key than the last row of the page, and then the
page is full: the last key of a page is enough to go on from.
-/

namespace ChatScale.KeysetPaging

set_option autoImplicit false

variable {Row : Type*} (key : Row → Nat)

/-- `ORDER BY key DESC`. -/
def newestFirst (rows : List Row) : List Row :=
  rows.insertionSort fun left right => key right ≤ key left

/-- `ORDER BY key DESC LIMIT limit`. -/
def page (limit : Nat) (rows : List Row) : List Row := (newestFirst key rows).take limit

/-- The keys of a list go down from each row to the next. -/
def Decreasing (rows : List Row) : Prop := rows.Pairwise fun left right => key right < key left

variable {key} {limit : Nat} {rows : List Row}

theorem newest_first_decreasing (unique : (rows.map key).Nodup) :
    Decreasing key (newestFirst key rows) := by
  have total : Std.Total fun left right : Row => key right ≤ key left :=
    ⟨fun left right => Nat.le_total (key right) (key left)⟩
  have transitive : IsTrans Row fun left right => key right ≤ key left :=
    ⟨fun _ _ _ first second => Nat.le_trans second first⟩
  have sorted : (newestFirst key rows).Pairwise fun left right => key right ≤ key left :=
    List.pairwise_insertionSort _ rows
  have distinct : ((newestFirst key rows).map key).Nodup :=
    (((List.perm_insertionSort _ rows).map key).nodup_iff).mpr unique
  exact (sorted.and (List.pairwise_map.mp distinct)).imp fun both =>
    Nat.lt_of_le_of_ne both.1 (Ne.symm both.2)

theorem page_decreasing (unique : (rows.map key).Nodup) : Decreasing key (page key limit rows) :=
  (newest_first_decreasing unique).sublist (List.take_sublist _ _)

theorem mem_of_page {row : Row} (listed : row ∈ page key limit rows) : row ∈ rows :=
  (List.mem_insertionSort _).mp (List.mem_of_mem_take listed)

/-- What is not on a page comes after its last row. -/
theorem page_covers (unique : (rows.map key).Nodup) (positive : 0 < limit) {row : Row}
    (listed : row ∈ rows) :
    row ∈ page key limit rows ∨ (page key limit rows).length = limit ∧
      ∃ last, (page key limit rows).getLast? = some last ∧ key row < key last := by
  have ordered := newest_first_decreasing unique
  have present : row ∈ newestFirst key rows := (List.mem_insertionSort _).mpr listed
  rw [Decreasing, ← List.take_append_drop limit (newestFirst key rows)] at ordered
  rw [← List.take_append_drop limit (newestFirst key rows)] at present
  rcases List.mem_append.mp present with shown | later
  · exact .inl shown
  · right
    have long : limit < (newestFirst key rows).length := by
      by_contra short
      rw [List.drop_eq_nil_of_le (by omega)] at later
      cases later
    have full : (page key limit rows).length = limit := by
      rw [page, List.length_take]
      omega
    have nonempty : page key limit rows ≠ [] := by
      rw [← List.length_pos_iff, full]
      exact positive
    refine ⟨full, _, List.getLast?_eq_some_getLast nonempty, ?_⟩
    exact (List.pairwise_append.mp ordered).2.2 _ (List.getLast_mem nonempty) row later

/-- The last row of a decreasing list has the least key. -/
theorem last_least (decreasing : Decreasing key rows) {last row : Row}
    (ends : rows.getLast? = some last) (listed : row ∈ rows) : key last ≤ key row := by
  obtain ⟨front, rfl⟩ := List.getLast?_eq_some_iff.mp ends
  rcases List.mem_append.mp listed with earlier | final
  · exact Nat.le_of_lt ((List.pairwise_append.mp decreasing).2.2 row earlier last
      List.mem_cons_self)
  · rw [List.mem_singleton.mp final]

/-- Decreasing keys from `top` down to 1 at the most. -/
theorem decreasing_length {top : Nat} (decreasing : Decreasing key rows)
    (bounds : ∀ row ∈ rows, 1 ≤ key row ∧ key row ≤ top) : rows.length ≤ top := by
  have distinct : (rows.map key).Nodup :=
    List.pairwise_map.mpr (decreasing.imp fun smaller => Nat.ne_of_gt smaller)
  have inside : rows.map key ⊆ List.range' 1 top := by
    intro value listed
    obtain ⟨row, rowListed, rfl⟩ := List.mem_map.mp listed
    obtain ⟨lower, upper⟩ := bounds row rowListed
    rw [List.mem_range'_1]
    omega
  have short := (distinct.subperm inside).length_le
  rwa [List.length_map, List.length_range'] at short

end ChatScale.KeysetPaging
