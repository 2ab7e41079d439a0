import Dhara.Search
import Mathlib.Data.List.Induction
import Mathlib.Data.List.Sort
import Mathlib.Algebra.BigOperators.Group.List.Basic
import Mathlib.Algebra.GroupWithZero.Nat
import Mathlib.Algebra.Ring.Int.Defs

/-!
# The execution time histogram

A histogram counts each observation in the first bucket whose bound is not
below it, and adds the buckets up when it is rendered.  The bounds and the
observations are elements of a linear order.  The nanoseconds of an
observation and the texts of numbers are parameters, and the counters do not
wrap around.
-/

namespace Dhara.Metrics

variable {Bound : Type} {bounds : List Bound}

/-- `Histogram`.  The zero value has no counters. -/
structure Histogram (Bound : Type) where
  bounds : List Bound
  counts : List Nat
  sum : Int
  sized : counts = [] ∨ counts.length = bounds.length + 1

/-- `NewHistogram`. -/
def newHistogram (bounds : List Bound) : Histogram Bound where
  bounds := bounds
  counts := List.replicate (bounds.length + 1) 0
  sum := 0
  sized := Or.inr List.length_replicate

/-- What `Write` renders. -/
structure Exposition (Bound : Type) where
  buckets : List (Bound × Nat)
  infinity : Nat
  sum : Int
  count : Nat

/-- The loop of `Write`: the accumulated buckets and the final count. -/
def accumulate (cumulative : Nat) :
    List Bound → List Nat → List (Bound × Nat) × Nat
  | bound :: bounds, count :: counts =>
      let rest := accumulate (cumulative + count) bounds counts
      ((bound, cumulative + count) :: rest.1, rest.2)
  | [], count :: _ => ([], cumulative + count)
  | _, [] => ([], cumulative)

/-- `Write`, up to the text.  The zero value renders nothing. -/
def Histogram.render (histogram : Histogram Bound) :
    Option (Exposition Bound) :=
  if histogram.counts = [] then
    none
  else
    let result := accumulate 0 histogram.bounds histogram.counts
    some
      { buckets := result.1
        infinity := result.2
        sum := histogram.sum
        count := result.2 }

/-- The lines of `Write`, from the texts of bounds and sums. -/
def Exposition.lines (exposition : Exposition Bound) (name help : String)
    (formatBound : Bound → String) (formatSum : Int → String) :
    List String :=
  ["# HELP " ++ name ++ " " ++ help, "# TYPE " ++ name ++ " histogram"] ++
  (exposition.buckets.map fun bucket =>
    name ++ "_bucket\x7ble=\"" ++ formatBound bucket.1 ++ "\"\x7d " ++
      toString bucket.2) ++
  [name ++ "_bucket\x7ble=\"+Inf\"\x7d " ++ toString exposition.infinity,
    name ++ "_sum " ++ formatSum exposition.sum,
    name ++ "_count " ++ toString exposition.count]

/-! ## Accumulated counters -/

theorem length_accumulate (cumulative : Nat) (bounds : List Bound)
    (counts : List Nat) (sized : counts.length = bounds.length + 1) :
    (accumulate cumulative bounds counts).1.length = bounds.length := by
  induction bounds generalizing cumulative counts with
  | nil =>
      cases counts with
      | nil => rfl
      | cons count counts => rfl
  | cons bound bounds induction =>
      cases counts with
      | nil => cases sized
      | cons count counts =>
          have rest :=
            induction (cumulative + count) counts (by simpa using sized)
          simp [accumulate, rest]

/-- The buckets are sums of counters, and the last sum has them all. -/
theorem accumulate_spec (cumulative : Nat) {counts : List Nat}
    (sized : counts.length = bounds.length + 1) :
    (accumulate cumulative bounds counts).2 = cumulative + counts.sum ∧
      ∀ index bound, bounds[index]? = some bound →
        (accumulate cumulative bounds counts).1[index]? =
          some (bound, cumulative + (counts.take (index + 1)).sum) := by
  induction bounds generalizing cumulative counts with
  | nil =>
      rcases List.length_eq_one_iff.mp sized with ⟨count, equal⟩
      subst counts
      simp [accumulate]
  | cons bound bounds induction =>
      cases counts with
      | nil => cases sized
      | cons count counts =>
          rcases induction (cumulative + count) (by simpa using sized) with
            ⟨total, rest⟩
          constructor
          · rw [accumulate, total, List.sum_cons, Nat.add_assoc]
          · intro index found stored
            cases index with
            | zero =>
                cases stored
                simp [accumulate]
            | succ index =>
                have later := rest index found stored
                simpa [accumulate, Nat.add_assoc] using later

theorem countP_lt_succ (measure : Bound → Nat) (limit : Nat)
    (values : List Bound) :
    (values.countP fun value => measure value < limit + 1) =
      (values.countP fun value => measure value < limit) +
        values.countP fun value => measure value = limit := by
  induction values with
  | nil => rfl
  | cons value values induction =>
      simp only [List.countP_cons, induction]
      by_cases early : measure value < limit
      · simp [early, Nat.lt_succ_of_lt early, Nat.ne_of_lt early]
        omega
      · by_cases equal : measure value = limit
        · simp [equal]
          omega
        · have late : ¬ measure value < limit + 1 := by omega
          simp [early, equal, late]

/-! ## Observations -/

section Observe

variable [LinearOrder Bound]

variable {histogram : Histogram Bound} {values : List Bound}

/-- The bound at the index is not below the value. -/
def reaches (bounds : List Bound) (value : Bound) (index : Nat) : Bool :=
  match bounds[index]? with
  | some bound => value ≤ bound
  | none => true

/-- `SearchFloat64s`. -/
def searchBounds (bounds : List Bound) (value : Bound) : Nat :=
  search (reaches bounds value) bounds.length

variable (nanoseconds : Bound → Int)

/-- `Observe`. -/
def Histogram.observe (histogram : Histogram Bound) (value : Bound) :
    Histogram Bound :=
  if histogram.counts = [] then
    histogram
  else
    { bounds := histogram.bounds
      counts :=
        histogram.counts.modify (searchBounds histogram.bounds value) (· + 1)
      sum := histogram.sum + nanoseconds value
      sized := by
        rw [List.length_modify]
        rcases histogram.sized with empty | sized
        · exact Or.inl (by rw [empty, List.modify_nil])
        · exact Or.inr sized }

/-- One observation after the other. -/
def Histogram.observeAll (histogram : Histogram Bound)
    (values : List Bound) : Histogram Bound :=
  values.foldl (Histogram.observe nanoseconds) histogram

/-! ## The bucket of an observation -/

theorem reaches_monotone (increasing : bounds.Pairwise (· < ·))
    (value : Bound) :
    ∀ first second, first ≤ second →
      reaches bounds value first = true →
        reaches bounds value second = true := by
  intro first second ordered reached
  simp only [reaches] at reached ⊢
  cases later : bounds[second]? with
  | none => rfl
  | some upper =>
      rcases List.getElem?_eq_some_iff.mp later with ⟨inside, atSecond⟩
      have earlier : bounds[first]? = some bounds[first] :=
        List.getElem?_eq_getElem (by omega)
      simp only [earlier, decide_eq_true_eq] at reached
      rcases Nat.lt_or_eq_of_le ordered with strictly | same
      · have between :=
          List.pairwise_iff_getElem.mp increasing first second (by omega)
            inside strictly
        rw [atSecond] at between
        exact decide_eq_true (reached.trans between.le)
      · subst same
        rw [atSecond] at reached
        exact decide_eq_true reached

/-- A value belongs to the buckets up to a bound if it does not exceed it. -/
theorem searchBounds_le_iff (increasing : bounds.Pairwise (· < ·))
    {value bound : Bound} {index : Nat}
    (found : bounds[index]? = some bound) :
    searchBounds bounds value ≤ index ↔ value ≤ bound := by
  have inside := (List.getElem?_eq_some_iff.mp found).1
  rw [searchBounds,
    search_le_iff (reaches_monotone increasing value) inside, reaches,
    found]
  exact decide_eq_true_iff

theorem searchBounds_le_length (increasing : bounds.Pairwise (· < ·))
    (value : Bound) :
    searchBounds bounds value ≤ bounds.length :=
  search_le_length (reaches_monotone increasing value) bounds.length

/-! ## The counters after the observations -/

/-- The histogram after the observations, counter by counter. -/
structure Counts (bounds : List Bound) (values : List Bound)
    (histogram : Histogram Bound) : Prop where
  sameBounds : histogram.bounds = bounds
  length : histogram.counts.length = bounds.length + 1
  tally :
    ∀ index ≤ bounds.length,
      histogram.counts[index]? =
        some (values.countP fun value => searchBounds bounds value = index)
  sum : histogram.sum = (values.map nanoseconds).sum

theorem counts_newHistogram (bounds : List Bound) :
    Counts nanoseconds bounds [] (newHistogram bounds) where
  sameBounds := rfl
  length := List.length_replicate
  tally := by
    intro index inside
    rw [newHistogram, List.getElem?_replicate, if_pos (by omega)]
    rfl
  sum := rfl

theorem Counts.observe (counted : Counts nanoseconds bounds values histogram)
    (value : Bound) :
    Counts nanoseconds bounds (values ++ [value])
      (histogram.observe nanoseconds value) := by
  have live : histogram.counts ≠ [] := by
    intro empty
    have length := counted.length
    rw [empty] at length
    cases length
  rw [Histogram.observe, if_neg live]
  constructor
  · exact counted.sameBounds
  · rw [List.length_modify]
    exact counted.length
  · intro index inside
    rw [List.getElem?_modify, counted.tally index inside, counted.sameBounds,
      List.countP_append]
    by_cases here : searchBounds bounds value = index
    · simp [here]
    · simp [here]
  · rw [counted.sum]
    simp

/-- Every sequence of observations is counted. -/
theorem counts_observeAll (values : List Bound) :
    Counts nanoseconds bounds values
      ((newHistogram bounds).observeAll nanoseconds values) := by
  induction values using List.reverseRecOn with
  | nil => exact counts_newHistogram nanoseconds bounds
  | append_singleton values value induction =>
      rw [Histogram.observeAll, List.foldl_append]
      exact induction.observe nanoseconds value

/-! ## The rendered counts -/

/-- The first counters together count the values of the first buckets. -/
theorem Counts.sum_take (counted : Counts nanoseconds bounds values histogram)
    {limit : Nat} (inside : limit ≤ bounds.length + 1) :
    (histogram.counts.take limit).sum =
      values.countP fun value => searchBounds bounds value < limit := by
  induction limit with
  | zero => simp
  | succ limit induction =>
      rw [List.take_add_one, counted.tally limit (by omega),
        List.sum_append, induction (by omega), countP_lt_succ]
      simp

/-- What is rendered after the observations, as counts of values. -/
def expected (bounds values : List Bound) : Exposition Bound where
  buckets :=
    bounds.map fun bound =>
      (bound, values.countP fun value => value ≤ bound)
  infinity := values.length
  sum := (values.map nanoseconds).sum
  count := values.length

theorem Counts.render (increasing : bounds.Pairwise (· < ·))
    (counted : Counts nanoseconds bounds values histogram) :
    histogram.render = some (expected nanoseconds bounds values) := by
  have live : histogram.counts ≠ [] := by
    intro empty
    have length := counted.length
    rw [empty] at length
    cases length
  rcases accumulate_spec 0 counted.length with ⟨total, buckets⟩
  have all : (accumulate 0 bounds histogram.counts).2 = values.length := by
    have sum := counted.sum_take nanoseconds le_rfl
    rw [← counted.length, List.take_length, counted.length] at sum
    rw [total, Nat.zero_add, sum, List.countP_eq_length]
    intro value _
    have inside := searchBounds_le_length increasing value
    exact decide_eq_true (by omega)
  have series :
      (accumulate 0 bounds histogram.counts).1 =
        bounds.map fun bound =>
          (bound, values.countP fun value => value ≤ bound) := by
    apply List.ext_getElem?
    intro index
    rw [List.getElem?_map]
    cases found : bounds[index]? with
    | none =>
        rw [List.getElem?_eq_none_iff] at found
        rw [Option.map_none, List.getElem?_eq_none_iff,
          length_accumulate 0 bounds histogram.counts counted.length]
        exact found
    | some bound =>
        have inside := (List.getElem?_eq_some_iff.mp found).1
        rw [buckets index bound found, Option.map_some, Nat.zero_add,
          counted.sum_take nanoseconds (by omega)]
        simp only [Nat.lt_succ_iff, searchBounds_le_iff increasing found]
  rw [Histogram.render, if_neg live, counted.sameBounds]
  simp only [series, all, counted.sum, expected]

theorem expected_perm {others : List Bound} (permuted : values.Perm others) :
    expected nanoseconds bounds values =
      expected nanoseconds bounds others := by
  simp only [expected, permuted.length_eq,
    (permuted.map nanoseconds).sum_eq, permuted.countP_eq]

/-- The bucket series does not decrease, up to the last bucket. -/
theorem expected_monotone (increasing : bounds.Pairwise (· < ·))
    (values : List Bound) :
    ((expected nanoseconds bounds values).buckets.map Prod.snd ++
        [(expected nanoseconds bounds values).infinity]).Pairwise
      (· ≤ ·) := by
  rw [List.pairwise_append]
  refine ⟨?_, List.pairwise_singleton _ _, ?_⟩
  · simp only [expected, List.map_map, List.pairwise_map]
    apply increasing.imp
    intro lower upper less
    apply List.countP_mono_left
    intro value _ reached
    rw [decide_eq_true_eq] at reached ⊢
    exact reached.trans less.le
  · intro count listed total last
    rw [List.mem_singleton] at last
    subst total
    simp only [expected, List.map_map, List.mem_map] at listed
    rcases listed with ⟨bound, _, equal⟩
    subst count
    exact List.countP_le_length

/--
After any observations, `Write` renders for each bound the number of values
that do not exceed it, and for `+Inf` and the count the number of all values.
The series does not decrease, and the order of the observations is not seen.
-/
theorem histogram_exposition_correct
    (bounds : List Bound) (increasing : bounds.Pairwise (· < ·))
    (values : List Bound) :
    ∃ exposition,
      ((newHistogram bounds).observeAll nanoseconds values).render =
          some exposition ∧
        exposition.buckets =
          bounds.map (fun bound =>
            (bound, values.countP fun value => value ≤ bound)) ∧
        exposition.infinity = values.length ∧
        exposition.count = values.length ∧
        (exposition.buckets.map Prod.snd ++
          [exposition.infinity]).Pairwise (· ≤ ·) ∧
        ∀ others, others.Perm values →
          ((newHistogram bounds).observeAll nanoseconds
            others).render = some exposition := by
  have rendered :
      ∀ values,
        ((newHistogram bounds).observeAll nanoseconds values).render =
          some (expected nanoseconds bounds values) :=
    fun values =>
      (counts_observeAll nanoseconds values).render nanoseconds increasing
  refine ⟨expected nanoseconds bounds values, rendered values, rfl, rfl,
    rfl, expected_monotone nanoseconds increasing values, ?_⟩
  intro others permuted
  rw [rendered others, expected_perm nanoseconds permuted]

end Observe

theorem histogram_at_bounds :
    ∃ exposition : Exposition Nat,
      ((newHistogram [1, 5]).observeAll (fun _ => 0)
          [5, 1, 9, 2]).render = some exposition ∧
        exposition.buckets = [(1, 1), (5, 3)] ∧
        exposition.infinity = 4 := by
  rcases histogram_exposition_correct (fun _ => 0) [1, 5] (by decide)
      [5, 1, 9, 2] with
    ⟨exposition, rendered, buckets, infinity, _⟩
  exact ⟨exposition, rendered, buckets, infinity⟩

end Dhara.Metrics
