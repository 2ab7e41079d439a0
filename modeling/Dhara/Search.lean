import Mathlib.Data.Nat.Basic
import Mathlib.Order.Basic

/-!
# Binary search

`search` halves an interval of indices, as `sort.Search` does.  On a
predicate that stays true once it is true, it finds the first index at which
it holds, or the end of the interval.
-/

namespace Dhara

variable (holds : Nat → Bool)

/-- The halving loop on the indices from `low` to `high`. -/
def searchBetween (low high : Nat) : Nat :=
  if low < high then
    if holds ((low + high) / 2) then
      searchBetween low ((low + high) / 2)
    else
      searchBetween ((low + high) / 2 + 1) high
  else
    low
termination_by high - low

/-- `sort.Search`. -/
def search (length : Nat) : Nat :=
  searchBetween holds 0 length

variable {holds}

section

variable
    (monotone : ∀ first second, first ≤ second →
      holds first = true → holds second = true)

include monotone

/--
The indices below the interval fail and those above it hold.  Each half keeps
this, and the loop ends with an empty interval.
-/
theorem searchBetween_spec
    {low high : Nat} (ordered : low ≤ high)
    (below : ∀ index < low, holds index = false) :
    searchBetween holds low high ≤ high ∧
      (∀ index < searchBetween holds low high, holds index = false) ∧
      ∀ index, searchBetween holds low high ≤ index → index < high →
        holds index = true := by
  fun_induction searchBetween holds low high with
  | case1 low high nonempty found induction =>
      rcases induction (by omega) below with ⟨bound, fails, succeeds⟩
      refine ⟨by omega, fails, ?_⟩
      intro index reached _
      by_cases early : index < (low + high) / 2
      · exact succeeds index reached early
      · exact monotone _ index (by omega) found
  | case2 low high nonempty missed induction =>
      apply induction (by omega)
      intro index early
      by_contra holdsEarly
      rw [Bool.not_eq_false] at holdsEarly
      exact missed (monotone index _ (by omega) holdsEarly)
  | case3 low high empty =>
      refine ⟨ordered, below, ?_⟩
      intro index reached early
      omega

/-- The result splits the indices into those that fail and those that hold. -/
theorem search_le_iff
    {length index : Nat} (inside : index < length) :
    search holds length ≤ index ↔ holds index = true := by
  rcases searchBetween_spec monotone (Nat.zero_le length)
      (fun index early => absurd early (Nat.not_lt_zero index)) with
    ⟨_, fails, succeeds⟩
  constructor
  · intro reached
    exact succeeds index reached inside
  · intro found
    by_contra early
    rw [fails index (by rw [search] at early; omega)] at found
    cases found

theorem search_le_length
    (length : Nat) :
    search holds length ≤ length :=
  (searchBetween_spec monotone (Nat.zero_le length)
    fun index early => absurd early (Nat.not_lt_zero index)).1

end

end Dhara
