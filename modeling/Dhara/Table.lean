import Mathlib.Data.List.Basic
import Mathlib.Data.List.Pairwise
import Mathlib.Tactic.SplitIfs

/-!
# Tables with uniqueness constraints

The rows of a table never clash pairwise.  A clash is a symmetric relation on
the identifying columns of two rows; a primary key and a unique constraint
are both of this form.  The constraint is a field of the table, so that an
update can never break it: an insertion that would clash leaves the table as
it is, and a replacement keeps the identifying columns.
-/

namespace Dhara

/-- Rows whose identifying columns never clash pairwise. -/
structure Table {Row Ident : Type} (ident : Row → Ident)
    (Clash : Ident → Ident → Prop) where
  rows : List Row
  distinct :
    rows.Pairwise fun first second =>
      ¬ Clash (ident first) (ident second)

namespace Table

variable {Row Ident : Type} {ident : Row → Ident}
  {Clash : Ident → Ident → Prop} {table : Table ident Clash} {row : Row}

/-- The table without rows. -/
def empty : Table ident Clash :=
  ⟨[], List.Pairwise.nil⟩

@[simp]
theorem rows_empty : (empty : Table ident Clash).rows = [] :=
  rfl

/-- Two rows that clash are the same row. -/
theorem eq_of_clash
    (symmetric : ∀ first second, Clash first second → Clash second first)
    (table : Table ident Clash) {first second : Row}
    (firstMember : first ∈ table.rows)
    (secondMember : second ∈ table.rows)
    (clash : Clash (ident first) (ident second)) :
    first = second := by
  by_contra different
  have symmetricFree :
      Std.Symm fun left right : Row =>
        ¬ Clash (ident left) (ident right) :=
    ⟨fun _ _ free reversed => free (symmetric _ _ reversed)⟩
  have apart := table.distinct.forall firstMember secondMember different
  exact apart clash

/-- Append a row unless it clashes with one that is there. -/
def insert [DecidableRel Clash]
    (row : Row) (table : Table ident Clash) : Table ident Clash :=
  if free : ∀ old ∈ table.rows, ¬ Clash (ident old) (ident row) then
    ⟨table.rows ++ [row], by
      rw [List.pairwise_append]
      refine ⟨table.distinct, List.pairwise_singleton _ _, ?_⟩
      intro old member new equal
      rw [List.mem_singleton] at equal
      subst new
      exact free old member⟩
  else
    table

theorem rows_insert [DecidableRel Clash]
    (free : ∀ old ∈ table.rows, ¬ Clash (ident old) (ident row)) :
    (table.insert row).rows = table.rows ++ [row] := by
  rw [insert, dif_pos free]

/-- Replace the row that has the same identifying columns. -/
def replace [DecidableEq Ident]
    (row : Row) (table : Table ident Clash) : Table ident Clash :=
  ⟨table.rows.map fun old => if ident old = ident row then row else old,
    by
      rw [List.pairwise_map]
      apply table.distinct.imp
      intro first second free
      have firstKept :
          ident (if ident first = ident row then row else first) =
            ident first := by
        split_ifs with same
        · exact same.symm
        · rfl
      have secondKept :
          ident (if ident second = ident row then row else second) =
            ident second := by
        split_ifs with same
        · exact same.symm
        · rfl
      rw [firstKept, secondKept]
      exact free⟩

@[simp]
theorem rows_replace [DecidableEq Ident]
    (row : Row) (table : Table ident Clash) :
    (table.replace row).rows =
      table.rows.map fun old =>
        if ident old = ident row then row else old :=
  rfl

/-- Remove the rows that a condition does not keep. -/
def filter (keep : Row → Bool) (table : Table ident Clash) :
    Table ident Clash :=
  ⟨table.rows.filter keep, table.distinct.filter keep⟩

@[simp]
theorem rows_filter (keep : Row → Bool) (table : Table ident Clash) :
    (table.filter keep).rows = table.rows.filter keep :=
  rfl

section Lookup

variable
    {Key : Type} [DecidableEq Key] {key : Ident → Key}

variable {wanted : Key}

/-- The row with a given key. -/
def lookup (key : Ident → Key)
    (wanted : Key) (table : Table ident Clash) : Option Row :=
  table.rows.find? fun row => key (ident row) = wanted

variable
    (symmetric : ∀ first second, Clash first second → Clash second first)
    (unique : ∀ first second, key first = key second → Clash first second)

include symmetric unique

theorem lookup_eq_some_iff :
    table.lookup key wanted = some row ↔
      row ∈ table.rows ∧ key (ident row) = wanted := by
  constructor
  · intro found
    exact
      ⟨List.mem_of_find?_eq_some found,
        by simpa using List.find?_some found⟩
  · rintro ⟨member, keyed⟩
    cases found : table.lookup key wanted with
    | none =>
        have absent := List.find?_eq_none.mp found row member
        simp [keyed] at absent
    | some other =>
        have otherMember := List.mem_of_find?_eq_some found
        have otherKeyed : key (ident other) = wanted := by
          simpa using List.find?_some found
        have same : other = row :=
          table.eq_of_clash symmetric otherMember member
            (unique _ _ (otherKeyed.trans keyed.symm))
        rw [same]

omit symmetric unique in
theorem lookup_eq_none_iff :
    table.lookup key wanted = none ↔
      ∀ row ∈ table.rows, key (ident row) ≠ wanted := by
  simp [lookup]

theorem lookup_replace_same [DecidableEq Ident] {old : Row}
    (found : table.lookup key (key (ident row)) = some old)
    (same : ident old = ident row) :
    (table.replace row).lookup key (key (ident row)) = some row := by
  rw [lookup_eq_some_iff symmetric unique]
  have member := ((lookup_eq_some_iff symmetric unique).mp found).1
  refine ⟨?_, rfl⟩
  rw [rows_replace, List.mem_map]
  exact ⟨old, member, by rw [if_pos same]⟩

omit symmetric unique in
theorem lookup_replace_other [DecidableEq Ident]
    (different : key (ident row) ≠ wanted) :
    (table.replace row).lookup key wanted = table.lookup key wanted := by
  unfold lookup
  rw [rows_replace]
  induction table.rows with
  | nil => rfl
  | cons first rest induction =>
      rw [List.map_cons]
      by_cases same : ident first = ident row
      · have skipsOld : ¬ key (ident first) = wanted := by
          rw [same]
          exact different
        rw [if_pos same, List.find?_cons_of_neg (by simpa using different),
          List.find?_cons_of_neg (by simpa using skipsOld)]
        exact induction
      · rw [if_neg same, List.find?_cons, List.find?_cons, induction]

omit symmetric unique in
theorem lookup_insert_other [DecidableRel Clash]
    (different : key (ident row) ≠ wanted) :
    (table.insert row).lookup key wanted = table.lookup key wanted := by
  by_cases free : ∀ old ∈ table.rows, ¬ Clash (ident old) (ident row)
  · unfold lookup
    rw [rows_insert free, List.find?_append]
    simp [different]
  · rw [insert, dif_neg free]

end Lookup

end Table

end Dhara
