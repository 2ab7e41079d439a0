import Mathlib.Data.List.Sort
import Mathlib.Data.List.Nodup
import Mathlib.Data.List.Perm.Basic
import Mathlib.Order.Basic

/-!
# Pages of an order with ties

A list of rows is cut into pages of one size.  Every page may be cut from an
order of its own, as long as it is descending in the key; rows with the same
key are then in any order.  The pages are a partition of the rows whatever
these orders are, exactly if no two rows with the same key meet at the end of
a page.
-/

namespace Dhara.Paging

variable {Row Key : Type} [LinearOrder Key] {key : Row → Key}

variable {rows first second : List Row} {size : Nat}

/-- The greatest key comes first. -/
def Descending (key : Row → Key) (rows : List Row) : Prop :=
  rows.Pairwise fun first second => key second ≤ key first

/-- One page of the rows. -/
def page (size number : Nat) (rows : List Row) : List Row :=
  (rows.drop (number * size)).take size

/-- The keys on both sides of a position are different. -/
def Splits (keys : List Key) (position : Nat) : Prop :=
  keys[position - 1]? ≠ keys[position]?

/-- No two rows with the same key meet at the end of a page. -/
def Separated (size : Nat) (keys : List Key) : Prop :=
  ∀ number, 0 < number → number * size < keys.length →
    Splits keys (number * size)

/-- The keys of all descending orders are the same. -/
theorem Descending.map_eq (one : Descending key first)
    (other : Descending key second) (perm : first.Perm second) :
    first.map key = second.map key := by
  have sorted :
      ∀ {rows : List Row}, Descending key rows →
        (rows.map key).Pairwise fun first second => second ≤ first :=
    fun descending => List.pairwise_map.mpr descending
  apply (perm.map key).eq_of_pairwise
    (fun left right _ _ below above => le_antisymm above below)
  · exact sorted one
  · exact sorted other

/-! ## Pages that are a partition -/

theorem Descending.le_of_getElem? {first second : Nat} {earlier later : Row}
    (descending : Descending key rows) (order : first ≤ second)
    (here : rows[first]? = some earlier)
    (there : rows[second]? = some later) :
    key later ≤ key earlier := by
  rcases List.getElem?_eq_some_iff.mp here with ⟨_, firstRow⟩
  rcases List.getElem?_eq_some_iff.mp there with ⟨_, secondRow⟩
  rcases order.eq_or_lt with same | below
  · subst second
    rw [← firstRow, ← secondRow]
  · rw [← firstRow, ← secondRow]
    exact List.pairwise_iff_getElem.mp descending _ _ _ _ below

/-- A prefix that ends between two keys consists of the greater ones. -/
theorem Descending.take_eq_filter {position : Nat} {last : Row}
    (descending : Descending key rows) (ends : rows[position]? = some last)
    (splits : Splits (rows.map key) (position + 1)) :
    rows.take (position + 1) = rows.filter fun row => key last ≤ key row := by
  have above : ∀ row ∈ rows.take (position + 1), key last ≤ key row := by
    intro row member
    rcases List.mem_iff_getElem?.mp member with ⟨index, found⟩
    have inside : index < position + 1 := by
      by_contra outside
      rw [List.getElem?_take, if_neg outside] at found
      cases found
    rw [List.getElem?_take_of_lt inside] at found
    exact descending.le_of_getElem? (Nat.lt_succ_iff.mp inside) found ends
  have below : ∀ row ∈ rows.drop (position + 1), ¬ key last ≤ key row := by
    intro row member reaches
    rcases List.mem_iff_getElem?.mp member with ⟨index, found⟩
    rw [List.getElem?_drop] at found
    cases follows : rows[position + 1]? with
    | none =>
        rw [List.getElem?_eq_none_iff] at follows
        rw [List.getElem?_eq_none (by omega)] at found
        cases found
    | some next =>
        have lower :=
          descending.le_of_getElem? (Nat.le_add_right _ index) follows found
        have upper :=
          descending.le_of_getElem? (Nat.le_succ position) ends follows
        apply splits
        rw [Nat.add_sub_cancel, List.getElem?_map, List.getElem?_map,
          ends, follows]
        exact congrArg some (le_antisymm (reaches.trans lower) upper)
  have whole := List.take_append_drop (position + 1) rows
  conv_rhs => rw [← whole]
  rw [List.filter_append, List.filter_eq_self.mpr (by simpa using above),
    List.filter_eq_nil_iff.mpr (by simpa using below), List.append_nil]

/-- A prefix has the same rows in all orders, if no tie is cut. -/
theorem Descending.take_perm {position : Nat} (one : Descending key first)
    (other : Descending key second) (perm : first.Perm second)
    (splits :
      0 < position → position < first.length →
        Splits (first.map key) position) :
    (first.take position).Perm (second.take position) := by
  have same := one.map_eq other perm
  cases position with
  | zero => simp
  | succ position =>
      by_cases inside : position + 1 < first.length
      · have kept := splits (Nat.succ_pos position) inside
        have short := lt_trans (Nat.lt_succ_self position) inside
        have long : position < second.length := perm.length_eq ▸ short
        have keys : key first[position] = key second[position] := by
          have equal := congrArg (fun keys => keys[position]?) same
          simpa [short, long] using equal
        rw [one.take_eq_filter (List.getElem?_eq_getElem short) kept,
          other.take_eq_filter (List.getElem?_eq_getElem long)
            (same ▸ kept), keys]
        exact perm.filter _
      · have full : first.length ≤ position + 1 := not_lt.mp inside
        rw [List.take_of_length_le full,
          List.take_of_length_le (perm.length_eq ▸ full)]
        exact perm

theorem take_add_page (size number : Nat) (rows : List Row) :
    rows.take ((number + 1) * size) =
      rows.take (number * size) ++ page size number rows := by
  rw [Nat.succ_mul, List.take_add]
  rfl

/-- The pages of one order are the order. -/
theorem flatMap_page (size count : Nat) (rows : List Row) :
    ((List.range count).flatMap fun number => page size number rows) =
      rows.take (count * size) := by
  induction count with
  | zero => simp
  | succ count induction =>
      rw [List.range_succ, List.flatMap_append, induction, take_add_page]
      simp

/-- A page has the same rows in all orders, if no tie is cut. -/
theorem page_perm (one : Descending key first) (other : Descending key second)
    (perm : first.Perm second) (separated : Separated size (first.map key))
    (number : Nat) :
    (page size number first).Perm (page size number second) := by
  have prefixes :
      ∀ number, (first.take (number * size)).Perm
        (second.take (number * size)) := by
    intro number
    apply one.take_perm other perm
    intro positive inside
    apply separated
    · exact Nat.pos_of_mul_pos_right positive
    · rw [List.length_map]
      exact inside
  have longer := prefixes (number + 1)
  rw [take_add_page, take_add_page] at longer
  have swapped := (prefixes number).symm.append_right (page size number first)
  exact (List.perm_append_left_iff _).mp (swapped.trans longer)

/-- Pages of different orders are a partition, if no tie is cut. -/
theorem pages_perm {count : Nat} {orders : Nat → List Row}
    (descending : ∀ number, Descending key (orders number))
    (perm : ∀ number, (orders number).Perm rows)
    (separated : Separated size ((orders 0).map key))
    (enough : rows.length ≤ count * size) :
    ((List.range count).flatMap fun number =>
      page size number (orders number)).Perm rows := by
  have same :
      ((List.range count).flatMap fun number =>
          page size number (orders number)).Perm
        ((List.range count).flatMap fun number =>
          page size number (orders 0)) := by
    apply List.Perm.flatMap_left
    intro number _
    exact (page_perm (descending 0) (descending number)
      ((perm 0).trans (perm number).symm) separated number).symm
  rw [flatMap_page, List.take_of_length_le
    ((perm 0).length_eq.trans_le enough)] at same
  exact same.trans (perm 0)

/-! ## A row on two pages -/

/-- A row is on the page of its position. -/
theorem mem_page {row : Row} {number : Nat} (position : Nat)
    (found : rows[position]? = some row) (above : number * size ≤ position)
    (below : position < (number + 1) * size) :
    row ∈ page size number rows := by
  rw [Nat.succ_mul] at below
  rw [page, List.mem_iff_getElem?]
  refine ⟨position - number * size, ?_⟩
  rw [List.getElem?_take_of_lt (by omega), List.getElem?_drop,
    Nat.add_sub_cancel' above]
  exact found

/-- Neighbours with the same key may change their places. -/
theorem Descending.exchange {init rest : List Row} {first second : Row}
    (descending : Descending key (init ++ first :: second :: rest))
    (tied : key first = key second) :
    Descending key (init ++ second :: first :: rest) := by
  simp only [Descending, List.pairwise_append, List.pairwise_cons,
    List.mem_cons, forall_eq_or_imp, tied] at descending ⊢
  rcases descending with ⟨before, ⟨⟨_, lower⟩, lowest, after⟩, apart⟩
  exact ⟨before, ⟨⟨le_rfl, lowest⟩, lower, after⟩, fun row member =>
    ⟨(apart row member).2.1, (apart row member).1, (apart row member).2.2⟩⟩

/-- A tie that is cut puts a row on two pages, in suitable orders. -/
theorem exists_repeated (positive : 0 < size)
    (descending : Descending key rows)
    (cut : ¬ Separated size (rows.map key)) :
    ∃ number row order,
      (number + 1) * size < rows.length ∧
        Descending key order ∧ order.Perm rows ∧
        row ∈ page size number rows ∧
        row ∈ page size (number + 1) order := by
  simp only [Separated, Splits, not_forall, not_not] at cut
  rcases cut with ⟨count, some, inside, tied⟩
  have next : ∃ number, count = number + 1 := ⟨count - 1, by omega⟩
  rcases next with ⟨number, rfl⟩
  rw [List.length_map] at inside
  have least : size ≤ (number + 1) * size :=
    Nat.le_mul_of_pos_left size (Nat.succ_pos number)
  have last : ∃ position, (number + 1) * size = position + 1 :=
    ⟨(number + 1) * size - 1, by omega⟩
  rcases last with ⟨position, equal⟩
  have here : position < rows.length := by omega
  have there : position + 1 < rows.length := by omega
  have whole :
      rows =
        rows.take position ++
          rows[position] :: rows[position + 1] ::
            rows.drop (position + 2) := by
    rw [← List.drop_eq_getElem_cons there,
      ← List.drop_eq_getElem_cons here, List.take_append_drop]
  have sameKey : key rows[position] = key rows[position + 1] := by
    rw [equal] at tied
    simpa [here, there] using tied
  have length : (rows.take position).length = position := by
    rw [List.length_take, min_eq_left here.le]
  rw [whole] at descending
  refine ⟨number, rows[position],
    rows.take position ++
      rows[position + 1] :: rows[position] :: rows.drop (position + 2),
    inside, descending.exchange sameKey, ?_, ?_, ?_⟩
  · conv_rhs => rw [whole]
    exact (List.Perm.swap _ _ _).append_left _
  · apply mem_page position (List.getElem?_eq_getElem here)
    · rw [Nat.succ_mul] at equal
      omega
    · omega
  · apply mem_page (position + 1)
    · rw [List.getElem?_append_right (by omega), length]
      simp
    · omega
    · rw [Nat.succ_mul (number + 1)]
      omega

/-- A row on two pages is twice in the list of all pages. -/
theorem not_nodup_pages {pages : Nat → List Row} {count number : Nat}
    (inside : number + 1 < count) {row : Row}
    (first : row ∈ pages number) (second : row ∈ pages (number + 1)) :
    ¬ ((List.range count).flatMap pages).Nodup := by
  intro nodup
  have apart := (List.nodup_flatMap.mp nodup).2
  rw [List.pairwise_iff_getElem] at apart
  have disjoint :=
    apart number (number + 1) (by simp; omega) (by simpa using inside)
      (Nat.lt_succ_self number)
  simp only [List.getElem_range, Function.onFun] at disjoint
  exact disjoint first second

end Dhara.Paging
