import Dhara.Paging
import Dhara.Store.TaskStore

/-!
# The list of tasks

`List` assembles two queries from the filter it is given, one that counts the
matching rows and one that selects a page of them.  The conditions have
running placeholder numbers, and the arguments are collected beside them.  The
server binds the arguments by their position.

The page is ordered by `created_at` only.  Rows that were created at the same
time are in any order, which may be another one for every query.
-/

namespace Dhara.Store

open Dhara.Paging

/-- The text of a status. -/
def statusText : TaskStatus → GoString
  | .pending => ascii "PENDING"
  | .running => ascii "RUNNING"
  | .completed => ascii "COMPLETED"
  | .canceled => ascii "CANCELED"
  | .dead => ascii "DEAD"

/-- `TaskListFilter`. -/
structure TaskListFilter where
  status : GoString := []
  type : GoString := []
  retrying : Option Bool := none
  limit : Int := 0
  offset : Int := 0

/-- The rows that the filter asks for. -/
def TaskListFilter.accepts (filter : TaskListFilter) (row : TaskRecord) :
    Bool :=
  (filter.status = [] ∨ statusText row.status = filter.status) ∧
    (filter.type = [] ∨ row.type.bytes = filter.type) ∧
    (filter.retrying = some true → row.status = .pending ∧ 0 < row.attempts)

/-! ## The queries -/

/-- A condition of the `WHERE` clause, with the number of its placeholder. -/
inductive Clause where
  | statusEq (placeholder : Nat)
  | typeEq (placeholder : Nat)
  | pending
  | attempted
deriving DecidableEq

/-- An argument of a query. -/
inductive Argument where
  | text (value : GoString)
  | int (value : Int)
deriving DecidableEq

/-- The conditions and arguments so far, and the next placeholder. -/
structure Assembly where
  whereClauses : List Clause
  args : List Argument
  argIdx : Nat

/-- Compare a column with a new argument. -/
def Assembly.compare (assembly : Assembly) (clause : Nat → Clause)
    (value : GoString) : Assembly :=
  { whereClauses := assembly.whereClauses ++ [clause assembly.argIdx]
    args := assembly.args ++ [.text value]
    argIdx := assembly.argIdx + 1 }

/-- The comparison that a field of the filter asks for, unless it is empty. -/
def Assembly.compareIfSet (assembly : Assembly) (clause : Nat → Clause)
    (value : GoString) : Assembly :=
  if value ≠ [] then assembly.compare clause value else assembly

/-- The dynamic `WHERE` clauses of `List`. -/
def TaskListFilter.assemble (filter : TaskListFilter) : Assembly :=
  let compared :=
    ((⟨[], [], 1⟩ : Assembly).compareIfSet .statusEq
      filter.status).compareIfSet .typeEq filter.type
  if filter.retrying = some true then
    { compared with
      whereClauses := compared.whereClauses ++ [.pending, .attempted] }
  else
    compared

/-- The count query and its arguments. -/
structure CountQuery where
  whereClauses : List Clause
  args : List Argument

/-- The select query, the placeholders of its page, and its arguments. -/
structure SelectQuery extends CountQuery where
  limit : Nat
  offset : Nat

/-- `SELECT COUNT(*) FROM tasks …`. -/
def TaskListFilter.countQuery (filter : TaskListFilter) : CountQuery :=
  { whereClauses := filter.assemble.whereClauses
    args := filter.assemble.args }

/-- `SELECT … FROM tasks … ORDER BY created_at DESC LIMIT … OFFSET …`. -/
def TaskListFilter.selectQuery (filter : TaskListFilter) : SelectQuery :=
  { whereClauses := filter.assemble.whereClauses
    args := filter.assemble.args ++ [.int filter.limit, .int filter.offset]
    limit := filter.assemble.argIdx
    offset := filter.assemble.argIdx + 1 }

/-! ## The server -/

/-- The argument that a placeholder stands for. -/
def parameter (args : List Argument) (placeholder : Nat) :
    Option Argument :=
  match placeholder with
  | 0 => none
  | position + 1 => args[position]?

/-- A row meets a condition. -/
def Clause.holds (args : List Argument) (row : TaskRecord) :
    Clause → Bool
  | .statusEq placeholder =>
      parameter args placeholder = some (.text (statusText row.status))
  | .typeEq placeholder =>
      parameter args placeholder = some (.text row.type.bytes)
  | .pending => row.status = .pending
  | .attempted => 0 < row.attempts

/-- The placeholders of a condition. -/
def Clause.placeholders : Clause → List Nat
  | .statusEq placeholder => [placeholder]
  | .typeEq placeholder => [placeholder]
  | .pending => []
  | .attempted => []

/-- The server can read the argument. -/
def Argument.valid : Argument → Bool
  | .text value => isText value
  | .int _ => true

/--
Bind the arguments.  The driver counts them, and the server rejects texts in
another encoding.
-/
def bindArgs (placeholders : List Nat) (args : List Argument) :
    Except Fault Unit :=
  if args.length ≠ placeholders.foldl max 0 then
    .error .encodeArgs
  else if args.all Argument.valid then
    .ok ()
  else
    .error (.server .characterNotInRepertoire)

/-- The matching rows. -/
def CountQuery.matching (query : CountQuery) (rows : List TaskRecord) :
    List TaskRecord :=
  rows.filter fun row => query.whereClauses.all (Clause.holds query.args row)

/-- The server counts the matching rows. -/
def CountQuery.run (query : CountQuery) (rows : List TaskRecord) :
    Except Fault Nat :=
  (bindArgs (query.whereClauses.flatMap Clause.placeholders)
    query.args).map fun () => (query.matching rows).length

/--
An order that the server may choose for the rows of a query, with the latest
`created_at` first.
-/
structure Arrangement where
  arrange : List TaskRecord → List TaskRecord
  perm : ∀ rows, (arrange rows).Perm rows
  descending : ∀ rows, Descending TaskRecord.createdAt (arrange rows)

/-- `OFFSET must not be negative`. -/
def invalidRowCountInResultOffsetClause : SqlState := .other 0

/-- `LIMIT must not be negative`. -/
def invalidRowCountInLimitClause : SqlState := .other 1

/-- The server selects a page of the matching rows. -/
def SelectQuery.run (query : SelectQuery) (arrangement : Arrangement)
    (rows : List TaskRecord) : Except Fault (List TaskRecord) :=
  (bindArgs
    (query.whereClauses.flatMap Clause.placeholders ++
      [query.limit, query.offset]) query.args).bind fun () =>
    match parameter query.args query.limit,
        parameter query.args query.offset with
    | some (.int limit), some (.int offset) =>
        if offset < 0 then
          .error (.server invalidRowCountInResultOffsetClause)
        else if limit < 0 then
          .error (.server invalidRowCountInLimitClause)
        else
          .ok
            (((arrangement.arrange (query.matching rows)).drop
              offset.toNat).take limit.toNat)
    | _, _ => .error .encodeArgs

/-! ## The method -/

/-- A round trip with the context of its error. -/
def roundTrip {Reply : Type} (fault : Option Fault) (context : String)
    (reply : Except Fault Reply) : Except StoreError Reply :=
  match fault with
  | some fault => .error (.wrapped context fault)
  | none => reply.mapError (.wrapped context)

/-- The `rows.Next` loop and the check of `rows.Err`. -/
def scanListed (faults : Nat → Option Fault) :
    Nat → List TaskRecord → Except StoreError (List TaskRow)
  | position, [] =>
      roundTrip (faults position) "iterate task rows" (.ok [])
  | position, row :: rest =>
      (roundTrip (faults position) "scan task row" (.ok ())).bind fun () =>
        (scanListed faults (position + 1) rest).map (scanSummary row :: ·)

/-- `List`.  The faults are those of the round trips, in their order. -/
def list (faults : Nat → Option Fault) (arrangement : Arrangement)
    (filter : TaskListFilter) (rows : List TaskRecord) :
    Except StoreError (List TaskRow × Nat) :=
  (roundTrip (faults 0) "count tasks" (filter.countQuery.run rows)).bind
    fun total =>
      (roundTrip (faults 1) "list tasks"
        (filter.selectQuery.run arrangement rows)).bind fun page =>
          (scanListed faults 2 page).map fun tasks => (tasks, total)

/-! ## The placeholders -/

/-- The argument that a condition is meant to be compared with. -/
def TaskListFilter.Means (filter : TaskListFilter) (args : List Argument) :
    Clause → Prop
  | .statusEq placeholder =>
      parameter args placeholder = some (.text filter.status)
  | .typeEq placeholder =>
      parameter args placeholder = some (.text filter.type)
  | .pending => True
  | .attempted => True

/-- Every placeholder of both queries is bound to its own argument. -/
structure TaskListFilter.Bound (filter : TaskListFilter) : Prop where
  counts :
    ∀ clause ∈ filter.countQuery.whereClauses,
      filter.Means filter.countQuery.args clause
  selects :
    ∀ clause ∈ filter.selectQuery.whereClauses,
      filter.Means filter.selectQuery.args clause
  limit :
    parameter filter.selectQuery.args filter.selectQuery.limit =
      some (.int filter.limit)
  offset :
    parameter filter.selectQuery.args filter.selectQuery.offset =
      some (.int filter.offset)

variable {args : List Argument}

theorem parameter_append
    {placeholder : Nat} {argument : Argument}
    (bound : parameter args placeholder = some argument)
    (more : List Argument) :
    parameter (args ++ more) placeholder = some argument := by
  cases placeholder with
  | zero => cases bound
  | succ position =>
      simp only [parameter] at bound ⊢
      rw [List.getElem?_append_left (List.getElem?_eq_some_iff.mp bound).1]
      exact bound

theorem parameter_last (args : List Argument) (argument : Argument) :
    parameter (args ++ [argument]) (args.length + 1) = some argument := by
  simp [parameter]

theorem TaskListFilter.Means.append
    {filter : TaskListFilter} {clause : Clause}
    (means : filter.Means args clause) (more : List Argument) :
    filter.Means (args ++ more) clause := by
  cases clause with
  | statusEq placeholder => exact parameter_append means more
  | typeEq placeholder => exact parameter_append means more
  | pending => exact True.intro
  | attempted => exact True.intro

/-- What the assembly keeps: its placeholders name its arguments. -/
structure Assembly.Sound (filter : TaskListFilter)
    (assembly : Assembly) : Prop where
  next : assembly.argIdx = assembly.args.length + 1
  means : ∀ clause ∈ assembly.whereClauses, filter.Means assembly.args clause
  counted :
    (assembly.whereClauses.flatMap Clause.placeholders).foldl max 0 =
      assembly.args.length

section Assemblies

variable {filter : TaskListFilter} {assembly : Assembly}

theorem Assembly.Sound.compareIfSet (sound : assembly.Sound filter)
    (clause : Nat → Clause) (value : GoString)
    (numbered :
      ∀ placeholder, (clause placeholder).placeholders = [placeholder])
    (meant :
      ∀ args placeholder,
        parameter args placeholder = some (.text value) →
          filter.Means args (clause placeholder)) :
    (assembly.compareIfSet clause value).Sound filter := by
  rw [Assembly.compareIfSet]
  split_ifs with set
  · constructor
    · simp [Assembly.compare, sound.next]
    · intro other member
      rcases List.mem_append.mp member with earlier | last
      · exact (sound.means other earlier).append _
      · rw [List.mem_singleton.mp last, sound.next]
        exact meant _ _ (parameter_last _ _)
    · simp only [Assembly.compare, List.flatMap_append,
        List.flatMap_cons, List.flatMap_nil, List.append_nil, numbered,
        List.foldl_append, sound.counted, List.foldl_cons,
        List.foldl_nil, sound.next, List.length_append,
        List.length_singleton]
      exact max_eq_right (Nat.le_succ _)
  · exact sound

theorem TaskListFilter.assemble_sound (filter : TaskListFilter) :
    filter.assemble.Sound filter := by
  have start : (⟨[], [], 1⟩ : Assembly).Sound filter :=
    ⟨rfl, fun _ member => absurd member List.not_mem_nil, rfl⟩
  have status :=
    start.compareIfSet .statusEq filter.status (fun _ => rfl)
      fun _ _ bound => bound
  have type :=
    status.compareIfSet .typeEq filter.type (fun _ => rfl)
      fun _ _ bound => bound
  rw [TaskListFilter.assemble]
  split_ifs with retrying
  · constructor
    · exact type.next
    · intro clause member
      rcases List.mem_append.mp member with earlier | added
      · exact type.means clause earlier
      · simp only [List.mem_cons, List.not_mem_nil, or_false] at added
        rcases added with same | same
        · rw [same]
          exact True.intro
        · rw [same]
          exact True.intro
    · simp only [List.flatMap_append, List.flatMap_cons,
        List.flatMap_nil, Clause.placeholders, List.append_nil]
      exact type.counted
  · exact type

/-- Every placeholder is bound to the argument that it is meant for. -/
theorem TaskListFilter.bound (filter : TaskListFilter) :
    filter.Bound := by
  have sound := filter.assemble_sound
  constructor
  · exact sound.means
  · intro clause member
    exact (sound.means clause member).append _
  · have first := parameter_last filter.assemble.args (.int filter.limit)
    rw [← sound.next] at first
    have both := parameter_append first [.int filter.offset]
    rw [List.append_assoc] at both
    exact both
  · have last :=
      parameter_last (filter.assemble.args ++ [.int filter.limit])
        (.int filter.offset)
    rw [List.length_append, List.length_singleton, ← sound.next,
      List.append_assoc] at last
    exact last

/-! ## The meaning of the queries -/

/-- What a condition says about a row. -/
def TaskListFilter.requires (filter : TaskListFilter) (row : TaskRecord) :
    Clause → Bool
  | .statusEq _ => statusText row.status = filter.status
  | .typeEq _ => row.type.bytes = filter.type
  | .pending => row.status = .pending
  | .attempted => 0 < row.attempts

theorem Clause.holds_eq_requires
    {clause : Clause} (row : TaskRecord) (means : filter.Means args clause) :
    clause.holds args row = filter.requires row clause := by
  cases clause with
  | statusEq placeholder =>
      simp only [TaskListFilter.Means] at means
      simp [Clause.holds, TaskListFilter.requires, means, eq_comm]
  | typeEq placeholder =>
      simp only [TaskListFilter.Means] at means
      simp [Clause.holds, TaskListFilter.requires, means, eq_comm]
  | pending => rfl
  | attempted => rfl

/-- The conditions together are those of the filter. -/
theorem TaskListFilter.all_requires (filter : TaskListFilter)
    (row : TaskRecord) :
    filter.assemble.whereClauses.all (filter.requires row) =
      filter.accepts row := by
  simp only [TaskListFilter.assemble, Assembly.compareIfSet,
    Assembly.compare, TaskListFilter.accepts]
  by_cases status : filter.status = [] <;>
    by_cases type : filter.type = [] <;>
      by_cases retrying : filter.retrying = some true <;>
        simp [status, type, retrying, TaskListFilter.requires]

theorem CountQuery.matching_eq {query : CountQuery}
    (clauses : query.whereClauses = filter.assemble.whereClauses)
    (means : ∀ clause ∈ query.whereClauses, filter.Means query.args clause)
    (rows : List TaskRecord) :
    query.matching rows = rows.filter filter.accepts := by
  rw [CountQuery.matching]
  apply List.filter_congr
  intro row _
  rw [← filter.all_requires row, ← clauses]
  rw [Bool.eq_iff_iff, List.all_eq_true, List.all_eq_true]
  apply forall₂_congr
  intro clause member
  rw [Clause.holds_eq_requires row (means clause member)]

/-- The texts of the filter can be sent to the server. -/
def TaskListFilter.Readable (filter : TaskListFilter) : Prop :=
  isText filter.status = true ∧ isText filter.type = true

theorem TaskListFilter.all_valid_iff (filter : TaskListFilter) :
    filter.assemble.args.all Argument.valid = true ↔
      filter.Readable := by
  have empty : isText [] = true := rfl
  simp only [TaskListFilter.assemble, Assembly.compareIfSet,
    Assembly.compare, TaskListFilter.Readable]
  by_cases status : filter.status = [] <;>
    by_cases type : filter.type = [] <;>
      by_cases retrying : filter.retrying = some true <;>
        simp [status, type, retrying, Argument.valid, empty]

/-- The arguments are bound if they can be read. -/
theorem bindArgs_eq_ok_iff {placeholders : List Nat}
    (counted : placeholders.foldl max 0 = args.length) :
    bindArgs placeholders args = .ok () ↔ args.all Argument.valid = true := by
  rw [bindArgs, if_neg (not_not.mpr counted.symm)]
  split_ifs with valid
  · exact ⟨fun _ => valid, fun _ => rfl⟩
  · constructor
    · intro bound
      cases bound
    · exact fun read => absurd read valid

theorem TaskListFilter.countQuery_bindArgs (filter : TaskListFilter) :
    bindArgs
        (filter.countQuery.whereClauses.flatMap Clause.placeholders)
        filter.countQuery.args = .ok () ↔ filter.Readable :=
  (bindArgs_eq_ok_iff filter.assemble_sound.counted).trans
    filter.all_valid_iff

theorem TaskListFilter.selectQuery_bindArgs (filter : TaskListFilter) :
    bindArgs
        (filter.selectQuery.whereClauses.flatMap Clause.placeholders ++
          [filter.selectQuery.limit, filter.selectQuery.offset])
        filter.selectQuery.args = .ok () ↔ filter.Readable := by
  have sound := filter.assemble_sound
  rw [bindArgs_eq_ok_iff]
  · rw [← filter.all_valid_iff]
    simp [TaskListFilter.selectQuery, Argument.valid]
  · simp only [TaskListFilter.selectQuery, List.foldl_append,
      sound.counted, sound.next, List.foldl_cons, List.foldl_nil,
      List.length_append, List.length_cons, List.length_nil]
    omega

/-- The count query counts the matching rows. -/
theorem TaskListFilter.countQuery_run (readable : filter.Readable)
    (rows : List TaskRecord) :
    filter.countQuery.run rows = .ok (rows.filter filter.accepts).length := by
  rw [CountQuery.run, filter.countQuery_bindArgs.mpr readable,
    CountQuery.matching_eq rfl filter.bound.counts]
  rfl

theorem TaskListFilter.countQuery_run_unreadable
    (unreadable : ¬ filter.Readable) (rows : List TaskRecord) :
    ∃ fault, filter.countQuery.run rows = .error fault := by
  rw [CountQuery.run]
  cases failed : bindArgs (filter.countQuery.whereClauses.flatMap
      Clause.placeholders) filter.countQuery.args with
  | error fault => exact ⟨fault, rfl⟩
  | ok =>
      exact absurd (filter.countQuery_bindArgs.mp failed) unreadable

/-- The select query returns a block of the matching rows. -/
theorem TaskListFilter.selectQuery_run (readable : filter.Readable)
    (limited : 0 ≤ filter.limit) (skips : 0 ≤ filter.offset)
    (arrangement : Arrangement) (rows : List TaskRecord) :
    filter.selectQuery.run arrangement rows =
      .ok
        (((arrangement.arrange (rows.filter filter.accepts)).drop
          filter.offset.toNat).take filter.limit.toNat) := by
  rw [SelectQuery.run, filter.selectQuery_bindArgs.mpr readable,
    filter.bound.limit, filter.bound.offset,
    CountQuery.matching_eq rfl filter.bound.selects]
  simp only [Except.bind, if_neg (not_lt.mpr skips),
    if_neg (not_lt.mpr limited)]

theorem scanListed_calm {faults : Nat → Option Fault} {position : Nat}
    (calm : ∀ later, position ≤ later → faults later = none)
    (rows : List TaskRecord) :
    scanListed faults position rows = .ok (rows.map scanSummary) := by
  induction rows generalizing position with
  | nil =>
      rw [scanListed, calm position le_rfl]
      rfl
  | cons row rest induction =>
      rw [scanListed, calm position le_rfl,
        induction fun later reached => calm later (by omega)]
      rfl

/-- What `List` returns if its queries are answered. -/
theorem list_calm (readable : filter.Readable)
    (limited : 0 ≤ filter.limit) (skips : 0 ≤ filter.offset)
    (arrangement : Arrangement) (rows : List TaskRecord) :
    list (fun _ => none) arrangement filter rows =
      .ok
        ((((arrangement.arrange (rows.filter filter.accepts)).drop
            filter.offset.toNat).take filter.limit.toNat).map scanSummary,
          (rows.filter filter.accepts).length) := by
  rw [list, TaskListFilter.countQuery_run readable,
    TaskListFilter.selectQuery_run readable limited skips arrangement]
  simp only [roundTrip, Except.mapError, Except.bind]
  rw [scanListed_calm fun _ _ => rfl]
  rfl

/-- `List` fails if the server cannot read the filter. -/
theorem list_unreadable (unreadable : ¬ filter.Readable)
    (faults : Nat → Option Fault) (arrangement : Arrangement)
    (rows : List TaskRecord) :
    ∃ error, list faults arrangement filter rows = .error error := by
  rcases TaskListFilter.countQuery_run_unreadable unreadable rows with
    ⟨fault, failed⟩
  rw [list, failed]
  cases faults 0 with
  | none => exact ⟨_, rfl⟩
  | some fault => exact ⟨_, rfl⟩

end Assemblies

/-! ## Orders of the server -/

/-- The first row was not created before the second. -/
def NotOlder (first second : TaskRecord) : Prop :=
  second.createdAt ≤ first.createdAt

instance : DecidableRel NotOlder := fun first second =>
  inferInstanceAs (Decidable (second.createdAt ≤ first.createdAt))

instance : Std.Total NotOlder :=
  ⟨fun first second => le_total second.createdAt first.createdAt⟩

instance : IsTrans TaskRecord NotOlder :=
  ⟨fun _ _ _ newer newest => le_trans newest newer⟩

/-- The order of the table among rows of one time. -/
def byCreatedAt : Arrangement where
  arrange rows := rows.insertionSort NotOlder
  perm rows := List.perm_insertionSort NotOlder rows
  descending rows := List.pairwise_insertionSort NotOlder rows

/-- An order that is the given one on the given rows. -/
def Arrangement.choose (arrangement : Arrangement)
    {rows order : List TaskRecord} (perm : order.Perm rows)
    (descending : Descending TaskRecord.createdAt order) :
    Arrangement where
  arrange given := if given = rows then order else arrangement.arrange given
  perm given := by
    split_ifs with same
    · rw [same]
      exact perm
    · exact arrangement.perm given
  descending given := by
    split_ifs with same
    · exact descending
    · exact arrangement.descending given

theorem Arrangement.arrange_choose (arrangement : Arrangement)
    {rows order : List TaskRecord} (perm : order.Perm rows)
    (descending : Descending TaskRecord.createdAt order) :
    (arrangement.choose perm descending).arrange rows = order :=
  if_pos rfl

end Dhara.Store
