import Mathlib.Data.List.Basic

/-!
# Machines

A machine is a partial step function: a label that is impossible in a state
gives no step.  Its runs follow a list of labels.  What every step keeps holds
at the end of every run.

The threads of a machine are entries of lists, and a step of one thread
replaces one entry.
-/

namespace Dhara

/-- A machine with labelled partial steps. -/
structure Machine (State Label : Type) where
  step : State → Label → Option State

namespace Machine

variable {State Label : Type} {machine : Machine State Label}
  {start final : State} {labels : List Label}

/-- Follow the labels. -/
def run (machine : Machine State Label) (state : State) :
    List Label → Option State
  | [] => some state
  | label :: rest =>
      (machine.step state label).bind fun next => machine.run next rest

/-- What every step with one of the labels keeps holds at the end. -/
theorem run_induction (Holds : State → Prop)
    (kept :
      ∀ state label next, label ∈ labels → Holds state →
        machine.step state label = some next → Holds next)
    (initially : Holds start)
    (ran : machine.run start labels = some final) : Holds final := by
  induction labels generalizing start with
  | nil =>
      cases ran
      exact initially
  | cons label rest induction =>
      rcases Option.bind_eq_some_iff.mp ran with
        ⟨next, stepped, remaining⟩
      refine induction ?_ ?_ remaining
      · intro state other after member
        exact kept state other after (List.mem_cons_of_mem _ member)
      · exact kept start label next List.mem_cons_self initially stepped

/-- What every step keeps holds at the end of every run. -/
theorem run_invariant {Holds : State → Prop}
    (kept :
      ∀ state label next, Holds state →
        machine.step state label = some next → Holds next)
    (initially : Holds start)
    (ran : machine.run start labels = some final) : Holds final :=
  run_induction Holds (fun state label next _ => kept state label next)
    initially ran

end Machine

/-! ## Threads -/

section Threads

variable {Thread : Type} {threads : List Thread} {index : Nat}
  {old new : Thread} {has : Thread → Bool} {thread : Thread}

/-- A thread after a step of one of them. -/
theorem mem_set_iff (found : threads[index]? = some old) :
    thread ∈ threads.set index new ↔
      thread = new ∨ ∃ other, other ≠ index ∧
        threads[other]? = some thread := by
  rcases List.getElem?_eq_some_iff.mp found with ⟨inside, _⟩
  constructor
  · intro member
    rcases List.mem_iff_getElem?.mp member with ⟨position, located⟩
    rw [List.getElem?_set] at located
    split_ifs at located with same
    · exact Or.inl (Option.some.inj located).symm
    · exact Or.inr ⟨position, fun equal => same equal.symm, located⟩
  · rintro (rfl | ⟨other, apart, located⟩)
    · exact List.mem_set inside _
    · apply List.mem_iff_getElem?.mpr
      refine ⟨other, ?_⟩
      rw [List.getElem?_set, if_neg (Ne.symm apart)]
      exact located

/-- Another thread than the one that makes a step. -/
theorem mem_set_of_ne (found : threads[index]? = some old)
    (member : thread ∈ threads) (other : thread ≠ old) :
    thread ∈ threads.set index new := by
  rcases List.mem_iff_getElem?.mp member with ⟨position, located⟩
  refine (mem_set_iff found).mpr (Or.inr ⟨position, ?_, located⟩)
  rintro rfl
  rw [found] at located
  exact other (Option.some.inj located).symm

/-- A thread after one more was started. -/
theorem getElem?_concat_some
    (found : (threads ++ [new])[index]? = some thread) :
    threads[index]? = some thread ∨
      index = threads.length ∧ thread = new := by
  rw [List.getElem?_append] at found
  split_ifs at found with inside
  · exact Or.inl found
  · rw [List.getElem?_singleton] at found
    split_ifs at found with first
    exact Or.inr ⟨by omega, (Option.some.inj found).symm⟩

theorem getElem?_concat_old (found : threads[index]? = some old) :
    (threads ++ [new])[index]? = some old := by
  have inside := (List.getElem?_eq_some_iff.mp found).1
  rw [List.getElem?_append_left inside]
  exact found

/-- A thread of an updated list is the new one or an untouched one. -/
theorem getElem?_set_cases {position : Nat}
    (found : (threads.set index new)[position]? = some thread) :
    (position = index ∧ thread = new) ∨
      (position ≠ index ∧ threads[position]? = some thread) := by
  rw [List.getElem?_set] at found
  split_ifs at found with same inside
  · simp only [Option.some.injEq] at found
    exact Or.inl ⟨same.symm, found.symm⟩
  · exact Or.inr ⟨fun equal => same equal.symm, found⟩

theorem getElem?_set_some (found : threads[index]? = some old) :
    (threads.set index new)[index]? = some new := by
  rcases List.getElem?_eq_some_iff.mp found with ⟨bound, _⟩
  simp [bound]

/-- A thread after one of them was changed in place. -/
theorem getElem?_modify_some {change : Thread → Thread} {position : Nat}
    (found : (threads.modify index change)[position]? = some thread) :
    ∃ before, threads[position]? = some before ∧
      thread = if index = position then change before else before := by
  rw [List.getElem?_modify] at found
  rcases Option.map_eq_some_iff.mp found with ⟨before, located, equal⟩
  exact ⟨before, located, equal.symm⟩

/-- A thread that alone has a property. -/
theorem countP_eq_one (found : threads[index]? = some old)
    (holds : has old = true)
    (alone :
      ∀ position other, threads[position]? = some other →
        has other = true → position = index) :
    threads.countP has = 1 := by
  induction threads generalizing index with
  | nil => cases found
  | cons first rest induction =>
      cases index with
      | zero =>
          cases found
          rw [List.countP_cons_of_pos holds, List.countP_eq_zero.mpr]
          intro other member holdsToo
          rcases List.mem_iff_getElem?.mp member with ⟨position, located⟩
          exact absurd (alone (position + 1) other located holdsToo) nofun
      | succ index =>
          have idle : ¬ has first = true :=
            fun holdsToo => absurd (alone 0 first rfl holdsToo) nofun
          rw [List.countP_cons_of_neg idle]
          refine induction found ?_
          intro position other located holdsToo
          exact Nat.succ.inj (alone (position + 1) other located holdsToo)

/-- The threads with a property are the same at every place. -/
theorem countP_eq_of_getElem? {others : List Thread}
    (same :
      ∀ (position : Nat) (thread : Thread), has thread = true →
        (others[position]? = some thread ↔
          threads[position]? = some thread)) :
    others.countP has = threads.countP has := by
  induction others generalizing threads with
  | nil =>
      rw [List.countP_nil, eq_comm, List.countP_eq_zero]
      intro thread member holds
      rcases List.mem_iff_getElem?.mp member with ⟨position, located⟩
      cases (same position thread holds).mpr located
  | cons first rest induction =>
      cases threads with
      | nil =>
          rw [List.countP_nil, List.countP_eq_zero]
          intro thread member holds
          rcases List.mem_iff_getElem?.mp member with ⟨position, located⟩
          cases (same position thread holds).mp located
      | cons second more =>
          have rests : rest.countP has = more.countP has :=
            induction fun position => same (position + 1)
          have firsts : has first = has second := by
            rw [Bool.eq_iff_iff]
            constructor
            · intro holds
              cases (same 0 first holds).mp rfl
              exact holds
            · intro holds
              cases (same 0 second holds).mpr rfl
              exact holds
          rw [List.countP_cons, List.countP_cons, rests, firsts]

/-- How many threads have a property after a step of one of them. -/
theorem countP_set_int (found : threads[index]? = some old) :
    ((threads.set index new).countP has : Int) =
      threads.countP has +
        ((if has new then 1 else 0) - if has old then 1 else 0) := by
  induction threads generalizing index with
  | nil => cases found
  | cons first rest induction =>
      cases index with
      | zero =>
          cases found
          simp only [List.set_cons_zero, List.countP_cons]
          push_cast
          split_ifs <;> omega
      | succ index =>
          have rest := induction found
          simp only [List.set_cons_succ, List.countP_cons]
          push_cast
          omega

/-- How often the threads have an entry after a step of one of them. -/
theorem count_flatMap_set_int {Entry : Type} [DecidableEq Entry]
    {entries : Thread → List Entry} (entry : Entry)
    (found : threads[index]? = some old) :
    (((threads.set index new).flatMap entries).count entry : Int) =
      (threads.flatMap entries).count entry +
        ((entries new).count entry - (entries old).count entry) := by
  induction threads generalizing index with
  | nil => cases found
  | cons first rest induction =>
      cases index with
      | zero =>
          cases found
          simp only [List.set_cons_zero, List.flatMap_cons, List.count_append]
          push_cast
          omega
      | succ index =>
          have rest := induction found
          simp only [List.set_cons_succ, List.flatMap_cons, List.count_append]
          push_cast
          omega

end Threads

end Dhara
