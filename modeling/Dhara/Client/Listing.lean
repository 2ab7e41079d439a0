import Dhara.Client
import Dhara.Store.Listing
import Dhara.Store.Runs

/-!
# Listing tasks

`ListTasks` returns a page of the tasks that match a filter, and their number.
It hands the filter to the store as it is: a limit of zero is no limit of its
own but `LIMIT 0`.  Its pages are cut from an order that leaves tasks of the
same creation time open, so they are a partition of the matching tasks only if
no such group is cut.
-/

namespace Dhara

open Dhara.Store Dhara.Paging

/-- `ListTasks`. -/
def listTasks (faults : Nat → Option Fault) (arrangement : Arrangement)
    (filter : TaskListFilter) (rows : List TaskRecord) :
    Except ClientError (List Task × Nat) :=
  match list faults arrangement filter rows with
  | .error error => .error (.store error)
  | .ok (tasks, total) => .ok (tasks.map newTask, total)

/-- What `ListTasks` shows of a row. -/
def listed (row : TaskRecord) : Task :=
  newTask (scanSummary row)

/-- The rows of the table that match the filter. -/
def matching (filter : TaskListFilter) (db : Database) :
    List TaskRecord :=
  db.tasks.rows.filter filter.accepts

section Results

variable {filter : TaskListFilter} {db : Database}

/-- What `ListTasks` returns if its queries are answered. -/
theorem listTasks_calm (readable : filter.Readable)
    (limited : 0 ≤ filter.limit) (skips : 0 ≤ filter.offset)
    (arrangement : Arrangement) :
    listTasks (fun _ => none) arrangement filter db.tasks.rows =
      .ok
        ((((arrangement.arrange (matching filter db)).drop
            filter.offset.toNat).take filter.limit.toNat).map listed,
          (matching filter db).length) := by
  rw [listTasks, list_calm readable limited skips arrangement]
  simp only [List.map_map]
  rfl

theorem readable_of_listTasks {faults : Nat → Option Fault}
    {arrangement : Arrangement} {rows : List TaskRecord}
    {result : List Task × Nat}
    (returned : listTasks faults arrangement filter rows = .ok result) :
    filter.Readable := by
  by_contra unreadable
  rcases list_unreadable unreadable faults arrangement rows with
    ⟨error, failed⟩
  rw [listTasks, failed] at returned
  cases returned

theorem matching_nodup (filter : TaskListFilter) (db : Database) :
    (matching filter db).Nodup :=
  List.filter_sublist.nodup db.ids_nodup.of_map

theorem listed_injOn {rows : List TaskRecord}
    (inside : rows ⊆ db.tasks.rows) (nodup : rows.Nodup) :
    (rows.map listed).Nodup := by
  apply nodup.map_on
  intro first here second there same
  have sameId : first.id = second.id := congrArg Task.id same
  have found := Database.find_of_mem (inside here)
  rw [sameId, Database.find_of_mem (inside there)] at found
  exact (Option.some.inj found).symm

end Results

/-! ## The reference definition -/

/-- The limit of a page, if zero stands for a default. -/
def Store.TaskListFilter.pageSize (filter : TaskListFilter)
    (defaultLimit : Nat) : Nat :=
  if filter.limit = 0 then defaultLimit else filter.limit.toNat

/-- The rows that a listing is meant to return. -/
structure Reference (defaultLimit : Nat) (filter : TaskListFilter)
    (db : Database) (rows : List TaskRecord) : Prop where
  block :
    ∃ order,
      order.Perm (matching filter db) ∧
        Descending TaskRecord.createdAt order ∧
        rows =
          (order.drop filter.offset.toNat).take (filter.pageSize defaultLimit)
  counted :
    rows.length =
      min (filter.pageSize defaultLimit)
        ((matching filter db).length - filter.offset.toNat)
  distinct : rows.Nodup
  descending : Descending TaskRecord.createdAt rows

/-- The listing returns the rows it is meant to, and their total number. -/
def Lists (defaultLimit : Nat) (filter : TaskListFilter) (db : Database)
    (result : Except ClientError (List Task × Nat)) : Prop :=
  ∃ rows,
    Reference defaultLimit filter db rows ∧
      result = .ok (rows.map listed, (matching filter db).length)

/-- A block of an order is what the reference asks for. -/
theorem reference_block {defaultLimit : Nat} {filter : TaskListFilter}
    {db : Database} {order : List TaskRecord}
    (perm : order.Perm (matching filter db))
    (descending : Descending TaskRecord.createdAt order) :
    Reference defaultLimit filter db
      ((order.drop filter.offset.toNat).take
        (filter.pageSize defaultLimit)) where
  block := ⟨order, perm, descending, rfl⟩
  counted := by
    rw [List.length_take, List.length_drop, perm.length_eq]
  distinct :=
    ((List.take_sublist _ _).trans (List.drop_sublist _ _)).nodup
      (perm.nodup_iff.mpr (matching_nodup filter db))
  descending :=
    descending.sublist ((List.take_sublist _ _).trans (List.drop_sublist _ _))

/--
A listing returns the page that the documentation promises, in which a limit
of zero stands for some default, exactly if the limit is not zero or nothing
is left of the matching rows, and the server can read the texts of the filter.
-/
theorem listTasks_reference_iff_limit_set
    (defaultLimit : Nat) (positive : 0 < defaultLimit)
    (arrangement : Arrangement) (filter : TaskListFilter)
    (limited : 0 ≤ filter.limit) (skips : 0 ≤ filter.offset)
    (db : Database) :
    filter.Bound ∧
      (Lists defaultLimit filter db
          (listTasks (fun _ => none) arrangement filter db.tasks.rows) ↔
        filter.Readable ∧
          (filter.limit ≠ 0 ∨
            (matching filter db).length ≤ filter.offset.toNat)) := by
  refine ⟨filter.bound, ?_⟩
  constructor
  · rintro ⟨rows, reference, returned⟩
    have readable := readable_of_listTasks returned
    refine ⟨readable, ?_⟩
    by_cases zero : filter.limit = 0
    · right
      rw [listTasks_calm readable limited skips] at returned
      have empty : rows = [] := by
        have page := congrArg Prod.fst (Except.ok.inj returned)
        rw [zero] at page
        exact List.map_eq_nil_iff.mp page.symm
      have counted := reference.counted
      rw [empty, TaskListFilter.pageSize, if_pos zero] at counted
      simp only [List.length_nil] at counted
      omega
    · exact Or.inl zero
  · rintro ⟨readable, set⟩
    refine ⟨_,
      reference_block (arrangement.perm _) (arrangement.descending _),
      ?_⟩
    rw [listTasks_calm readable limited skips]
    have samePage :
        ((arrangement.arrange (matching filter db)).drop
            filter.offset.toNat).take filter.limit.toNat =
          ((arrangement.arrange (matching filter db)).drop
            filter.offset.toNat).take (filter.pageSize defaultLimit) := by
      by_cases zero : filter.limit = 0
      · have past := set.resolve_left (not_not.mpr zero)
        rw [List.drop_eq_nil_of_le
          ((arrangement.perm _).length_eq.trans_le past)]
        simp
      · rw [TaskListFilter.pageSize, if_neg zero]
    rw [samePage]

/-- A table with one task. -/
def singleTask : Database :=
  executeAll echoPlatform .empty [⟨.create (emailTask []), calm 7 0⟩]

theorem length_matching_singleTask :
    (matching {} singleTask).length = 1 := by
  decide +kernel

/-- The zero filter lists none of the tasks that it counts. -/
theorem zero_filter_lists_nothing :
    listTasks (fun _ => none) byCreatedAt {} singleTask.tasks.rows =
        .ok ([], 1) ∧
      ¬ Lists 20 {} singleTask
        (listTasks (fun _ => none) byCreatedAt {} singleTask.tasks.rows) := by
  have returned :
      listTasks (fun _ => none) byCreatedAt {} singleTask.tasks.rows =
        .ok ([], 1) := by
    rw [listTasks_calm ⟨rfl, rfl⟩ le_rfl le_rfl, length_matching_singleTask]
    rfl
  refine ⟨returned, ?_⟩
  rintro ⟨rows, reference, shows⟩
  have empty : rows = [] := by
    rw [returned] at shows
    have page := congrArg Prod.fst (Except.ok.inj shows)
    exact List.map_eq_nil_iff.mp page.symm
  have counted := reference.counted
  rw [empty, length_matching_singleTask] at counted
  cases counted

theorem limited_filter_lists_task :
    Lists 20 { limit := 5 } singleTask
      (listTasks (fun _ => none) byCreatedAt { limit := 5 }
        singleTask.tasks.rows) :=
  (listTasks_reference_iff_limit_set 20 (by decide) byCreatedAt
    { limit := 5 } (by decide) (by decide) singleTask).2.mpr
      ⟨⟨rfl, rfl⟩, Or.inl (by decide)⟩

/-! ## Pages -/

/-- The creation times of the matching rows, the latest first. -/
def creationTimes (filter : TaskListFilter) (db : Database) : List Time :=
  (byCreatedAt.arrange (matching filter db)).map TaskRecord.createdAt

/-- The filter of one page. -/
def Store.TaskListFilter.ofPage (filter : TaskListFilter)
    (size number : Nat) : TaskListFilter :=
  { filter with limit := size, offset := number * size }

/--
The pages are a partition of the matching tasks, whatever order the server
chooses for each query.
-/
def Partitions (filter : TaskListFilter) (size : Nat) (db : Database) :
    Prop :=
  ∀ arrangements : Nat → Arrangement,
    ∃ pages : Nat → List Task,
      (∀ number,
        listTasks (fun _ => none) (arrangements number)
            (filter.ofPage size number) db.tasks.rows =
          .ok (pages number, (matching filter db).length)) ∧
      ((List.range ((matching filter db).length / size + 1)).flatMap
        pages).Perm ((matching filter db).map listed)

theorem listTasks_ofPage {filter : TaskListFilter}
    (readable : filter.Readable) (size number : Nat)
    (arrangement : Arrangement) (db : Database) :
    listTasks (fun _ => none) arrangement (filter.ofPage size number)
        db.tasks.rows =
      .ok
        ((page size number
            (arrangement.arrange (matching filter db))).map listed,
          (matching filter db).length) :=
  listTasks_calm (show (filter.ofPage size number).Readable from readable)
    (Int.natCast_nonneg size)
    (show (0 : Int) ≤ number * size from
      Int.mul_nonneg (Int.natCast_nonneg number) (Int.natCast_nonneg size))
    arrangement

theorem eq_page_of_listTasks {filter : TaskListFilter}
    (readable : filter.Readable) {size number : Nat}
    {arrangement : Arrangement} {db : Database} {tasks : List Task}
    {total : Nat}
    (returned :
      listTasks (fun _ => none) arrangement (filter.ofPage size number)
        db.tasks.rows = .ok (tasks, total)) :
    tasks =
      (page size number
        (arrangement.arrange (matching filter db))).map listed := by
  rw [listTasks_ofPage readable] at returned
  cases returned
  rfl

/--
The pages of a listing are a partition of the matching tasks, whatever order
the server chooses among tasks of one creation time, exactly if no two such
tasks meet at the end of a page, and the server can read the filter.
-/
theorem pages_partition_iff_ties_uncut
    (filter : TaskListFilter) (size : Nat) (positive : 0 < size)
    (db : Database) :
    Partitions filter size db ↔
      filter.Readable ∧ Separated size (creationTimes filter db) := by
  constructor
  · intro partitions
    have readable : filter.Readable := by
      rcases partitions fun _ => byCreatedAt with ⟨pages, returned, _⟩
      have first : (filter.ofPage size 0).Readable :=
        readable_of_listTasks (returned 0)
      exact first
    refine ⟨readable, ?_⟩
    by_contra cut
    rcases exists_repeated positive (byCreatedAt.descending _) cut with
      ⟨number, row, order, inside, descending, perm, first, second⟩
    have whole := perm.trans (byCreatedAt.perm (matching filter db))
    rcases partitions fun query =>
        if query = number + 1 then byCreatedAt.choose whole descending
        else byCreatedAt with
      ⟨pages, returned, once⟩
    have shows := fun query =>
      eq_page_of_listTasks readable (returned query)
    have firstPage : listed row ∈ pages number := by
      rw [shows, if_neg (Nat.lt_succ_self number).ne]
      exact List.mem_map_of_mem first
    have secondPage : listed row ∈ pages (number + 1) := by
      rw [shows, if_pos rfl, Arrangement.arrange_choose]
      exact List.mem_map_of_mem second
    have reached : number + 1 < (matching filter db).length / size + 1 := by
      rw [(byCreatedAt.perm _).length_eq] at inside
      exact Nat.lt_succ_of_le ((Nat.le_div_iff_mul_le positive).mpr inside.le)
    apply not_nodup_pages reached firstPage secondPage
    rw [once.nodup_iff]
    exact listed_injOn List.filter_sublist.subset (matching_nodup filter db)
  · rintro ⟨readable, separated⟩ arrangements
    refine ⟨_,
      fun number =>
        listTasks_ofPage readable size number (arrangements number) db,
      ?_⟩
    rw [← List.map_flatMap]
    apply List.Perm.map
    refine pages_perm (fun number => (arrangements number).descending _)
      (fun number => (arrangements number).perm _) ?_ ?_
    · rw [((arrangements 0).descending _).map_eq
        (byCreatedAt.descending _)
        (((arrangements 0).perm _).trans (byCreatedAt.perm _).symm)]
      exact separated
    · rw [Nat.mul_comm]
      exact (Nat.lt_mul_div_succ _ positive).le

/-- Two tasks that were enqueued at the same time. -/
def twinTasks : Database :=
  executeAll echoPlatform .empty
    [⟨.create (emailTask []), calm 7 0⟩, ⟨.create (emailTask []), calm 8 0⟩]

/-- Two tasks that were enqueued one after the other. -/
def siblingTasks : Database :=
  executeAll echoPlatform .empty
    [⟨.create (emailTask []), calm 7 0⟩, ⟨.create (emailTask []), calm 8 1⟩]

/-- The other order of the table among rows of one time. -/
def reversedTies : Arrangement where
  arrange rows := byCreatedAt.arrange rows.reverse
  perm rows := (byCreatedAt.perm rows.reverse).trans rows.reverse_perm
  descending rows := byCreatedAt.descending rows.reverse

/-- The first page of one order is the second page of the other. -/
theorem twin_pages :
    page 1 0 (byCreatedAt.arrange (matching {} twinTasks)) =
        page 1 1 (reversedTies.arrange (matching {} twinTasks)) ∧
      page 1 0 (byCreatedAt.arrange (matching {} twinTasks)) ≠ [] ∧
      (matching {} twinTasks).length = 2 := by
  decide +kernel

/-- One of the twins is on both pages, so the other one is on none. -/
theorem twin_listed_twice :
    listTasks (fun _ => none) byCreatedAt (TaskListFilter.ofPage {} 1 0)
          twinTasks.tasks.rows =
        listTasks (fun _ => none) reversedTies
          (TaskListFilter.ofPage {} 1 1) twinTasks.tasks.rows ∧
      ¬ Partitions {} 1 twinTasks := by
  constructor
  · rw [listTasks_ofPage ⟨rfl, rfl⟩, listTasks_ofPage ⟨rfl, rfl⟩,
      twin_pages.1]
  · intro partitions
    rcases partitions fun query =>
        if query = 0 then byCreatedAt else reversedTies with
      ⟨pages, returned, once⟩
    have shown := eq_page_of_listTasks ⟨rfl, rfl⟩ (returned 0)
    have again := eq_page_of_listTasks ⟨rfl, rfl⟩ (returned 1)
    rw [if_pos rfl] at shown
    rw [if_neg Nat.one_ne_zero, ← twin_pages.1] at again
    rcases List.exists_mem_of_ne_nil _ twin_pages.2.1 with ⟨row, member⟩
    have here : listed row ∈ pages 0 := by
      rw [shown]
      exact List.mem_map_of_mem member
    have there : listed row ∈ pages (0 + 1) := by
      rw [Nat.zero_add, again]
      exact List.mem_map_of_mem member
    apply not_nodup_pages _ here there
    · rw [once.nodup_iff]
      exact listed_injOn List.filter_sublist.subset
        (matching_nodup {} twinTasks)
    · rw [twin_pages.2.2]
      decide

/-- The times on both sides of the only page boundary are different. -/
theorem sibling_times :
    creationTimes {} siblingTasks = [1, 0] := by
  decide +kernel

theorem siblings_listed_once : Partitions {} 1 siblingTasks := by
  apply (pages_partition_iff_ties_uncut {} 1 (by decide) siblingTasks).mpr
  refine ⟨⟨rfl, rfl⟩, ?_⟩
  rw [sibling_times]
  intro number positive inside
  have only : number = 1 := by
    simp only [List.length_cons, List.length_nil] at inside
    omega
  subst number
  intro same
  cases same

end Dhara
