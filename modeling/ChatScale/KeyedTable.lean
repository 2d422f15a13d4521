import Mathlib.Data.List.AList
import Mathlib.Tactic.SplitIfs

/-!
# Lookups in a changed table
-/

namespace ChatScale.KeyedTable

set_option autoImplicit false

variable {Key Value : Type} [DecidableEq Key] (table : AList fun _ : Key => Value) (key other : Key)

theorem lookup_insert_ite (value : Value) :
    (table.insert key value).lookup other =
      if other = key then some value else table.lookup other := by
  by_cases same : other = key
  · rw [if_pos same, same, AList.lookup_insert]
  · rw [if_neg same, AList.lookup_insert_ne same]

theorem lookup_erase_ite :
    (table.erase key).lookup other = if other = key then none else table.lookup other := by
  by_cases same : other = key
  · rw [if_pos same, same, AList.lookup_erase]
  · rw [if_neg same, AList.lookup_erase_ne same]

end ChatScale.KeyedTable
