import Dhara.Playground.Http
import Mathlib.Data.List.Infix

/-!
# No leak between sessions

A viewer may know the payloads, errors, logs and keys of the own tasks, and
of the other tasks only the rest of the row.  `masked` removes what the
viewer may not know.  Every reply is the same for the rows and for the masked
rows, so two states with the same masked rows cannot be told apart.
-/

namespace Dhara.Playground.Http

open Dhara.Environment (trimSpace)
open Dhara.JsonText (hexLetter)
open Dhara.Store

variable {id : TaskId} {byte : UInt8}

/-! ## States that differ in secrets -/

/-- The task belongs to the session. -/
def belongs (session : GoString) (row : TaskRecord) : Bool :=
  keyBelongsToSession (row.idempotencyKey.map Text.bytes) session

/--
Two rows of one task.  They differ only if the task belongs to the viewer in
neither state, and then only in the key, the payload and the last error.
-/
def AlikeRows (session : GoString) (first second : TaskRecord) : Prop :=
  first = second ∨
    (belongs session first = false ∧ belongs session second = false ∧
      ∃ idempotencyKey payload payloadHash lastError,
        second =
          { first with idempotencyKey, payload, payloadHash, lastError })

/-- Two states that differ only in secrets of tasks of other sessions. -/
structure Alike (session : GoString) (first second : Database) : Prop where
  rows : List.Forall₂ (AlikeRows session) first.tasks.rows second.tasks.rows
  logs :
    ∀ row ∈ first.tasks.rows, belongs session row = true →
      first.logsOf row.id = second.logsOf row.id

/-- The row without what the viewer may not know. -/
def masked (session : GoString) (row : TaskRecord) : TaskRecord :=
  if belongs session row then row
  else
    { row with
      idempotencyKey := none
      payload := []
      payloadHash := []
      lastError := none }

section Masks

variable {session : GoString} {row first second : TaskRecord}

theorem masked_of_belongs (own : belongs session row = true) :
    masked session row = row :=
  if_pos own

theorem masked_of_foreign (foreign : belongs session row = false) :
    masked session row =
      { row with
        idempotencyKey := none
        payload := []
        payloadHash := []
        lastError := none } := by
  rw [masked, foreign]
  rfl

theorem belongs_masked :
    belongs session (masked session row) = belongs session row := by
  cases own : belongs session row with
  | true => rw [masked_of_belongs own, own]
  | false =>
      rw [masked_of_foreign own]
      rfl

theorem masked_masked :
    masked session (masked session row) = masked session row := by
  cases own : belongs session row with
  | true => rw [masked_of_belongs own, masked_of_belongs own]
  | false =>
      have still : belongs session (masked session row) = false := by
        rw [belongs_masked, own]
      rw [masked_of_foreign still, masked_of_foreign own]

theorem AlikeRows.masked (alike : AlikeRows session first second) :
    masked session first = masked session second := by
  rcases alike with same | ⟨foreign, foreign', _, _, _, _, same⟩
  · rw [same]
  · rw [masked_of_foreign foreign, masked_of_foreign foreign', same]

theorem map_masked {rows others : List TaskRecord}
    (alike : List.Forall₂ (AlikeRows session) rows others) :
    rows.map (masked session) = others.map (masked session) := by
  induction alike with
  | nil => rfl
  | cons row rest induction =>
      rw [List.map_cons, List.map_cons, row.masked, induction]

/-- What is left of a masked row besides its secrets. -/
theorem masked_public :
    (masked session row).id = row.id ∧
      (masked session row).type = row.type ∧
      (masked session row).status = row.status ∧
      (masked session row).priority = row.priority ∧
      (masked session row).attempts = row.attempts ∧
      (masked session row).maxRetries = row.maxRetries ∧
      (masked session row).runAt = row.runAt ∧
      (masked session row).startedAt = row.startedAt ∧
      (masked session row).completedAt = row.completedAt ∧
      (masked session row).lockedBy = row.lockedBy ∧
      (masked session row).lockedAt = row.lockedAt ∧
      (masked session row).createdAt = row.createdAt ∧
      (masked session row).updatedAt = row.updatedAt := by
  cases own : belongs session row with
  | true => simp [masked_of_belongs own]
  | false => simp [masked_of_foreign own]

end Masks

/-! ## Queries on masked rows -/

section Queries

variable
    {session : GoString} {surroundings : Surroundings}
    {rows : List TaskRecord}

theorem filter_masked {accepts : TaskRecord → Bool}
    (blind : ∀ row, accepts (masked session row) = accepts row) :
    (rows.map (masked session)).filter accepts =
      (rows.filter accepts).map (masked session) := by
  rw [List.filter_map]
  congr 2
  ext row
  exact blind row

theorem countP_masked {accepts : TaskRecord → Bool}
    (blind : ∀ row, accepts (masked session row) = accepts row) :
    (rows.map (masked session)).countP accepts = rows.countP accepts := by
  rw [List.countP_map]
  congr 1
  ext row
  exact blind row

theorem orderByCreatedAt_masked {ties : TaskId → Nat} :
    orderByCreatedAt ties (rows.map (masked session)) =
      (orderByCreatedAt ties rows).map (masked session) := by
  apply (List.map_mergeSort _).symm
  intro first _ second _
  simp [newerFirst, masked_public]

theorem orderByLockedAt_masked {ties : TaskId → Nat} :
    orderByLockedAt ties (rows.map (masked session)) =
      (orderByLockedAt ties rows).map (masked session) := by
  apply (List.map_mergeSort _).symm
  intro first _ second _
  simp [newerFirst, masked_public]

theorem accepts_masked (filter : TaskListFilter) (row : TaskRecord) :
    filter.accepts (masked session row) = filter.accepts row := by
  simp [TaskListFilter.accepts, masked_public]

theorem listedRows_masked (filter : TaskListFilter) :
    listedRows surroundings filter (rows.map (masked session)) =
      (listedRows surroundings filter rows).map (masked session) := by
  rw [listedRows, filter_masked (accepts_masked filter),
    orderByCreatedAt_masked, ← List.map_drop, ← List.map_take]
  rfl

theorem recentAccepts_masked (status : GoString) (row : TaskRecord) :
    recentAccepts [] status (masked session row) =
      recentAccepts [] status row := by
  simp [recentAccepts, masked_public]

theorem recentRows_masked (status : GoString) (limit : Int) :
    recentRows surroundings [] status limit
        (rows.map (masked session)) =
      (recentRows surroundings [] status limit rows).map
        (masked session) := by
  rw [recentRows, filter_masked (recentAccepts_masked status),
    orderByCreatedAt_masked, ← List.map_take]
  rfl

theorem getQueueDBMetrics_masked (position : Nat) :
    getQueueDBMetrics surroundings position
        (rows.map (masked session)) =
      getQueueDBMetrics surroundings position rows := by
  simp only [getQueueDBMetrics]
  congr 1
  ext
  simp only [List.countP_map, Function.comp_def, masked_public]

theorem throughput_masked (position : Nat) :
    throughput surroundings position (rows.map (masked session)) =
      throughput surroundings position rows := by
  simp only [throughput, List.countP_map, Function.comp_def, masked_public]

theorem listRunning_masked (position : Nat) (limit : Int) :
    listRunning surroundings position limit
        (rows.map (masked session)) =
      listRunning surroundings position limit rows := by
  have blind : ∀ row : TaskRecord,
      (decide ((masked session row).status = .running ∧
          (masked session row).lockedBy.isSome = true)) =
        decide (row.status = .running ∧ row.lockedBy.isSome = true) := by
    simp [masked_public]
  have leases : scanLease ∘ masked session = scanLease := by
    ext row
    simp [scanLease, masked_public]
  simp only [listRunning]
  rw [filter_masked blind, orderByLockedAt_masked, ← List.map_take,
    List.filterMap_map, leases]

end Queries

/-! ## The pattern of a session -/

/-- The byte is no wildcard and no escape of `LIKE`. -/
def isLiteral (byte : UInt8) : Bool :=
  byte ≠ 37 ∧ byte ≠ 95 ∧ byte ≠ 92

theorem like_cons_literal (literal : isLiteral byte = true)
    (pattern text : GoString) :
    like (byte :: pattern) text =
      match text with
      | [] => false
      | first :: rest => decide (first = byte) && like pattern rest := by
  simp only [isLiteral, decide_eq_true_eq] at literal
  cases text with
  | nil => simp [like, literal]
  | cons first rest => simp [like, literal]

/-- A literal with a final wildcard matches the texts it begins. -/
theorem like_literal {literal : GoString}
    (plain : ∀ byte ∈ literal, isLiteral byte = true) (text : GoString) :
    like (literal ++ [37]) text = decide (literal <+: text) := by
  induction literal generalizing text with
  | nil =>
      have matched : like [37] text = true := by
        rw [like, List.any_eq_true]
        exact ⟨[], (List.mem_tails _ _).mpr List.nil_suffix, rfl⟩
      simp [matched]
  | cons byte literal induction =>
      have first := plain byte List.mem_cons_self
      have rest :=
        induction fun later member =>
          plain later (List.mem_cons_of_mem byte member)
      rw [List.cons_append, like_cons_literal first]
      cases text with
      | nil => simp
      | cons head text => simp [rest, List.cons_prefix_cons, eq_comm]

theorem mem_hexDigits {start count : Nat}
    (member : byte ∈ hexDigits id start count) :
    ∃ digit < 16, hexLetter digit = byte := by
  rw [hexDigits, List.mem_map] at member
  rcases member with ⟨offset, _, equal⟩
  exact ⟨_, Nat.mod_lt _ (by decide), equal⟩

/-- A UUID is written with digits and dashes. -/
theorem mem_uuidString (member : byte ∈ uuidString id) :
    byte = 45 ∨ ∃ digit < 16, hexLetter digit = byte := by
  have dash : ∀ byte ∈ ascii "-", byte = 45 := by
    simp [ascii]
  simp only [uuidString, List.mem_append] at member
  rcases member with
    (((((((digits | sign) | digits) | sign) | digits) | sign) | digits) |
      sign) | digits
  all_goals
    first
    | exact Or.inr (mem_hexDigits digits)
    | exact Or.inl (dash byte sign)

theorem isLiteral_hexLetter :
    ∀ digit < 16, isLiteral (hexLetter digit) = true := by
  decide

theorem isLiteral_uuidString (id : TaskId) :
    ∀ byte ∈ uuidString id, isLiteral byte = true := by
  intro byte member
  rcases mem_uuidString member with dash | ⟨digit, small, equal⟩
  · subst byte
    rfl
  · subst byte
    exact isLiteral_hexLetter digit small

theorem hexLetter_inj :
    ∀ first < 16, ∀ second < 16,
      hexLetter first = hexLetter second → first = second := by
  decide

/-- The digit of a UUID at a position. -/
def nibble (id : TaskId) (position : Nat) : Nat :=
  (id.toNat >>> (4 * (31 - position))) % 16

theorem nibble_of_hexDigits {other : TaskId} {start count : Nat}
    (equal : hexDigits id start count = hexDigits other start count)
    {position : Nat} (low : start ≤ position)
    (high : position < start + count) :
    nibble id position = nibble other position := by
  rw [hexDigits, hexDigits, List.map_inj_left] at equal
  have digit := equal (position - start) (List.mem_range.mpr (by omega))
  rw [Nat.add_sub_of_le low] at digit
  exact hexLetter_inj _ (Nat.mod_lt _ (by decide)) _
    (Nat.mod_lt _ (by decide)) digit

/-- The digits of a UUID determine it. -/
theorem eq_of_nibbles {other : TaskId}
    (same : ∀ position < 32, nibble id position = nibble other position) :
    id = other := by
  have bits :
      ∀ value bit : Nat,
        ((value >>> (4 * (bit / 4))) % 16).testBit (bit % 4) =
          value.testBit bit := by
    intro value bit
    have small : bit % 4 < 4 := Nat.mod_lt _ (by decide)
    rw [show 16 = 2 ^ 4 from rfl, Nat.testBit_mod_two_pow,
      Nat.testBit_shiftRight, Nat.div_add_mod]
    simp [small]
  apply BitVec.eq_of_getLsbD_eq
  intro bit inside
  have digit := same (31 - bit / 4) (by omega)
  have shift : 4 * (31 - (31 - bit / 4)) = 4 * (bit / 4) := by omega
  simp only [nibble, shift] at digit
  rw [BitVec.getLsbD, BitVec.getLsbD, ← bits id.toNat,
    ← bits other.toNat, digit]

theorem uuidString_injective : Function.Injective uuidString := by
  have length :
      ∀ (id : TaskId) (start count : Nat),
        (hexDigits id start count).length = count := by
    intro id start count
    simp [hexDigits]
  intro id other equal
  simp only [uuidString] at equal
  rcases List.append_inj' equal (by simp only [length]) with
    ⟨equal, last⟩
  rcases List.append_inj' equal rfl with ⟨equal, -⟩
  rcases List.append_inj' equal (by simp only [length]) with
    ⟨equal, fourth⟩
  rcases List.append_inj' equal rfl with ⟨equal, -⟩
  rcases List.append_inj' equal (by simp only [length]) with
    ⟨equal, third⟩
  rcases List.append_inj' equal rfl with ⟨equal, -⟩
  rcases List.append_inj' equal (by simp only [length]) with
    ⟨equal, second⟩
  rcases List.append_inj' equal rfl with ⟨first, -⟩
  apply eq_of_nibbles
  intro position inside
  by_cases inFirst : position < 8
  · exact nibble_of_hexDigits first (Nat.zero_le _) (by omega)
  by_cases inSecond : position < 12
  · exact nibble_of_hexDigits second (by omega) (by omega)
  by_cases inThird : position < 16
  · exact nibble_of_hexDigits third (by omega) (by omega)
  by_cases inFourth : position < 20
  · exact nibble_of_hexDigits fourth (by omega) (by omega)
  · exact nibble_of_hexDigits last (by omega) (by omega)

/-- The pattern of `ListRecent` selects the tasks of the session. -/
theorem recentAccepts_uuidString
    (id : TaskId) (status : GoString) (row : TaskRecord) :
    recentAccepts (uuidString id) status row =
      (belongs (uuidString id) row &&
        decide (status = [] ∨ statusText row.status = status)) := by
  have literal :
      ∀ byte ∈ keyPrefix ++ uuidString id ++ ascii ":",
        isLiteral byte = true := by
    have ends : ∀ byte ∈ keyPrefix ++ ascii ":", isLiteral byte = true := by
      simp [keyPrefix, ascii, isLiteral]
    intro byte member
    simp only [List.mem_append] at member ends
    rcases member with (start | session) | stop
    · exact ends byte (Or.inl start)
    · exact isLiteral_uuidString id byte session
    · exact ends byte (Or.inr stop)
  have pattern :
      ascii "demo:" ++ uuidString id ++ ascii ":%" =
        keyPrefix ++ uuidString id ++ ascii ":" ++ [37] := by
    simp [keyPrefix, ascii]
  cases keyed : row.idempotencyKey with
  | none =>
      simp [recentAccepts, belongs, keyBelongsToSession, keyed,
        uuidString_ne_nil]
  | some key =>
      simp only [recentAccepts, belongs, keyBelongsToSession, keyed,
        pattern, uuidString_ne_nil, Option.any_some, Option.map_some,
        like_literal literal, false_or, Bool.decide_and, ne_eq,
        not_false_eq_true, true_and, decide_eq_true_eq]

/-! ## Replies on masked rows -/

section Replies

variable {session : GoString} {runtime : Runtime} {parsers : Parsers}
  {surroundings : Surroundings} {rows : List TaskRecord} {scope : GoString}

theorem sanitizeTask_masked (row : TaskRecord) :
    sanitizeTask (newTask (scanSummary (masked session row))) =
      sanitizeTask (newTask (scanSummary row)) := by
  simp [sanitizeTask, newTask, scanSummary, masked_public]

/-- What a listing shows of the rows it returns. -/
def listed (result : List TaskRow × Nat) : List Task × Nat :=
  (result.1.map fun task => sanitizeTask (newTask task), result.2)

theorem listed_masked (filter : TaskListFilter) :
    (list surroundings filter (rows.map (masked session))).map listed =
      (list surroundings filter rows).map listed := by
  have shown :
      (((listedRows surroundings filter rows).map
            (masked session)).map scanSummary).map
          (fun task => sanitizeTask (newTask task)) =
        ((listedRows surroundings filter rows).map scanSummary).map
          fun task => sanitizeTask (newTask task) := by
    simp only [List.map_map]
    exact List.map_congr_left fun row _ => sanitizeTask_masked row
  simp only [list, listedRows_masked, countP_masked (accepts_masked filter)]
  cases toText filter.type with
  | error fault => rfl
  | ok type =>
      cases answered surroundings 0 "count tasks" with
      | error error => rfl
      | ok counted =>
          cases answered surroundings 1 "list tasks" with
          | error error => rfl
          | ok reached => exact congrArg Except.ok (Prod.ext shown rfl)

theorem encodeTaskView_masked
    (session : GoString) (row : TaskRecord) (now : Time) :
    encodeTaskView
        { toTaskView (scanRecent (masked session row)) now with
          lastError := none } =
      encodeTaskView
        { toTaskView (scanRecent row) now with lastError := none } := by
  simp [encodeTaskView, toTaskView, shownDuration, scanRecent, masked_public]

theorem recentRows_own (status : GoString) (limit : Int) :
    recentRows surroundings (uuidString id) status limit
        (rows.map (masked (uuidString id))) =
      recentRows surroundings (uuidString id) status limit rows := by
  have blind : ∀ row : TaskRecord,
      recentAccepts (uuidString id) status
          (masked (uuidString id) row) =
        recentAccepts (uuidString id) status row := by
    intro row
    rw [recentAccepts_uuidString, recentAccepts_uuidString,
      belongs_masked, masked_public.2.2.1]
  have own :
      (rows.filter (recentAccepts (uuidString id) status)).map
          (masked (uuidString id)) =
        rows.filter (recentAccepts (uuidString id) status) := by
    nth_rewrite 2 [← List.map_id (rows.filter _)]
    apply List.map_congr_left
    intro row member
    have accepted := (List.mem_filter.mp member).2
    rw [recentAccepts_uuidString, Bool.and_eq_true] at accepted
    exact masked_of_belongs accepted.1
  rw [recentRows, filter_masked blind, own]
  rfl

theorem length_recentViews (rows : List TaskRecord) :
    (recentViews surroundings rows).length = rows.length :=
  List.length_mapIdx

theorem encode_recentViews_masked
    (session : GoString) (surroundings : Surroundings)
    (rows : List TaskRecord) :
    (shownTasks (ascii "all")
          (recentViews surroundings (rows.map (masked session)))).map
        encodeTaskView =
      (shownTasks (ascii "all")
          (recentViews surroundings rows)).map encodeTaskView := by
  apply List.ext_getElem?
  intro index
  have scope : ascii "all" ≠ ascii "mine" := by decide
  simp only [shownTasks, recentViews, scope, ne_eq, not_false_eq_true,
    if_true, List.getElem?_map, List.getElem?_mapIdx, Option.map_map]
  cases rows[index]? with
  | none => simp only [Option.map_none]
  | some row =>
      exact congrArg some
        (encodeTaskView_masked session row (surroundings.clock index))

theorem readSnapshot_own (mine : scope = ascii "mine") (status : GoString)
    (limit : Int) :
    readSnapshot surroundings (uuidString id) scope status limit
        (rows.map (masked (uuidString id))) =
      readSnapshot surroundings (uuidString id) scope status limit
        rows := by
  simp only [readSnapshot, listRecent, getQueueDBMetrics_masked,
    throughput_masked, listRunning_masked, if_pos mine, recentRows_own]

theorem encode_readSnapshot_masked {viewed : GoString}
    (all : scope = ascii "all") (status : GoString) (limit : Int) :
    (readSnapshot surroundings session scope status limit
          (rows.map (masked viewed))).map encodeSnapshot =
      (readSnapshot surroundings session scope status limit rows).map
        encodeSnapshot := by
  subst all
  have other : ascii "all" ≠ ascii "mine" := by decide
  simp only [readSnapshot, listRecent, getQueueDBMetrics_masked,
    throughput_masked, listRunning_masked, if_neg other,
    recentRows_masked]
  cases getQueueDBMetrics surroundings 0 rows with
  | error error => rfl
  | ok queue =>
      cases throughput surroundings 1 rows with
      | error error => rfl
      | ok throughput =>
          cases answered surroundings 2 "list recent tasks" with
          | error error => rfl
          | ok reached =>
              cases listRunning surroundings 3 32 rows with
              | error error => rfl
              | ok leases =>
                  have shown :=
                    encode_recentViews_masked viewed surroundings
                      (recentRows surroundings [] status limit rows)
                  refine congrArg Except.ok ?_
                  simp only [encodeSnapshot, encodeOverview, shown,
                    length_recentViews, List.length_map]

theorem snapshotScope_cases {result : GoString}
    (checked : snapshotScope runtime session scope = .ok result) :
    result = ascii "all" ∨ result = ascii "mine" ∧ session ≠ [] := by
  simp only [snapshotScope] at checked
  split_ifs at checked with empty unknown unsigned unknown unsigned
  all_goals
    cases checked
    by_contra wrong
    simp_all

/-- A snapshot shows the same for the rows and for the masked rows. -/
theorem encode_snapshot_masked {viewed : GoString}
    (reads : session = [] ∨ ∃ id, session = uuidString id ∧ viewed = session)
    (scope status : GoString) (limit : Int) :
    (snapshot runtime surroundings session scope status limit
          (rows.map (masked viewed))).map encodeSnapshot =
      (snapshot runtime surroundings session scope status limit
          rows).map encodeSnapshot := by
  have encoded :
      ∀ result : Except StoreError Snapshot,
        (serviceResult result).map encodeSnapshot =
          serviceResult (result.map encodeSnapshot) := by
    intro result
    cases result <;> rfl
  simp only [snapshot]
  cases checked : snapshotScope runtime session scope with
  | error error => rfl
  | ok scope =>
      cases snapshotStatus runtime status with
      | error error => rfl
      | ok status =>
          change
            (serviceResult
                (readSnapshot surroundings session scope status limit
                  (rows.map (masked viewed)))).map encodeSnapshot =
              (serviceResult
                (readSnapshot surroundings session scope status limit
                  rows)).map encodeSnapshot
          rcases snapshotScope_cases checked with all | ⟨mine, signed⟩
          · rw [encoded, encoded, encode_readSnapshot_masked all]
          · rcases reads with unsigned | ⟨id, own, same⟩
            · exact absurd unsigned signed
            · subst own same
              rw [readSnapshot_own mine]

end Replies

/-! ## Alike states have the same replies -/

theorem except_map_cases {Error Result Shown : Type}
    {first second : Except Error Result} {shown : Result → Shown}
    (same : first.map shown = second.map shown) :
    (∃ error, first = .error error ∧ second = .error error) ∨
      ∃ result other,
        first = .ok result ∧ second = .ok other ∧
          shown result = shown other := by
  cases first with
  | error error =>
      cases second with
      | error other =>
          cases same
          exact Or.inl ⟨error, rfl, rfl⟩
      | ok other => cases same
  | ok result =>
      cases second with
      | error other => cases same
      | ok other =>
          exact Or.inr ⟨result, other, rfl, rfl, Except.ok.inj same⟩

section Alike

variable
    {runtime : Runtime} {parsers : Parsers} {surroundings : Surroundings}
    {viewed : GoString} {first second : Database}

/-- A query that masked rows answer alike has one answer in alike states. -/
theorem Alike.same {Result : Type} (alike : Alike viewed first second)
    (query : List TaskRecord → Result)
    (blind : ∀ rows, query (rows.map (masked viewed)) = query rows) :
    query first.tasks.rows = query second.tasks.rows := by
  rw [← blind first.tasks.rows, map_masked alike.rows, blind]

/-- One task is found in both states, or in none of them. -/
theorem Alike.find (alike : Alike viewed first second) (id : TaskId) :
    ((first.tasks.rows.find? fun row => row.id = id) = none ∧
        (second.tasks.rows.find? fun row => row.id = id) = none) ∨
      ∃ row other,
        (first.tasks.rows.find? fun row => row.id = id) = some row ∧
          (second.tasks.rows.find? fun row => row.id = id) = some other ∧
          masked viewed row = masked viewed other := by
  have same :=
    alike.same
      (fun rows =>
        (rows.find? fun row => row.id = id).map (masked viewed))
      fun rows => by
        have twice : masked viewed ∘ masked viewed = masked viewed :=
          funext fun row => masked_masked
        rw [List.find?_map, Option.map_map, twice]
        congr 2
        ext row
        simp [masked_public]
  cases before : first.tasks.rows.find? fun row => row.id = id with
  | none =>
      cases after : second.tasks.rows.find? fun row => row.id = id with
      | none => exact Or.inl ⟨rfl, rfl⟩
      | some other => simp [before, after] at same
  | some row =>
      cases after : second.tasks.rows.find? fun row => row.id = id with
      | none => simp [before, after] at same
      | some other =>
          simp only [before, after, Option.map_some,
            Option.some.injEq] at same
          exact Or.inr ⟨row, other, rfl, rfl, same⟩

theorem handleListTasks_alike (alike : Alike viewed first second)
    (query : Query) :
    handleListTasks runtime parsers surroundings query first =
      handleListTasks runtime parsers surroundings query second := by
  simp only [handleListTasks]
  cases listFilter runtime parsers query with
  | error reply => rfl
  | ok filter =>
      have same :=
        alike.same
          (fun rows => (list surroundings filter rows).map listed)
          fun rows => listed_masked filter
      rcases except_map_cases same with
        ⟨error, before, after⟩ | ⟨result, other, before, after, shown⟩
      · simp only [before, after]
      · simp only [listed, Prod.mk.injEq] at shown
        simp only [before, after, shown]

theorem handleGetTask_alike (alike : Alike viewed first second)
    (pathId : GoString) :
    handleGetTask parsers surroundings pathId first =
      handleGetTask parsers surroundings pathId second := by
  have shown :
      ∀ row : TaskRecord,
        sanitizeTask (newTask (scanTask (masked viewed row))) =
          sanitizeTask (newTask (scanTask row)) := by
    intro row
    simp [sanitizeTask, newTask, scanTask, scanSummary, masked_public]
  simp only [handleGetTask, getById]
  cases parsers.parseUUID pathId with
  | none => rfl
  | some id =>
      cases surroundings.faults 0 with
      | some fault => rfl
      | none =>
          rcases alike.find id with
            ⟨before, after⟩ | ⟨row, other, before, after, same⟩
          · simp only [before, after]
          · simp only [before, after, Option.map_some]
            rw [← shown row, same, shown]

theorem handleSnapshot_alike {header : GoString}
    (alike : Alike (viewer parsers header) first second)
    (query : Query) :
    handleSnapshot runtime parsers surroundings header query first =
      handleSnapshot runtime parsers surroundings header query
        second := by
  simp only [handleSnapshot]
  cases signed : snapshotSession parsers header (query "scope") with
  | error error => rfl
  | ok session =>
      have reads :
          session = [] ∨
            ∃ id,
              session = uuidString id ∧ viewer parsers header = session := by
        rw [snapshotSession] at signed
        split_ifs at signed
        · right
          rw [viewer, signed]
          simp only [sessionFromRequest] at signed
          split_ifs at signed
          cases parsed : parsers.parseUUID (trimSpace header) with
          | none => simp [parsed] at signed
          | some id =>
              simp only [parsed, Except.ok.injEq] at signed
              exact ⟨id, signed.symm, rfl⟩
        · cases signed
          exact Or.inl rfl
      cases numberParameter parsers query "limit" 100
          (fun number => 1 ≤ number ∧ number ≤ 200)
          (ascii "limit must be between 1 and 200") with
      | error reply => rfl
      | ok limit =>
          have same :=
            alike.same
              (fun rows =>
                (snapshot runtime surroundings session (query "scope")
                  (query "status") limit rows).map encodeSnapshot)
              fun rows => encode_snapshot_masked reads _ _ _
          rcases except_map_cases same with
            ⟨error, before, after⟩ | ⟨result, other, before, after, shown⟩
          · simp only [before, after]
          · simp only [before, after, shown]

/-- The detail of a task of another session. -/
theorem detailOf_foreign {row : TaskRecord} {db : Database}
    (foreign : belongs viewed row = false) :
    detailOf surroundings viewed (scanStored row) db =
      .ok
        { task :=
            { toTaskView (scanStored row) (surroundings.clock 0) with
              lastError := none }
          owned := false } := by
  have unowned :
      keyBelongsToSession (scanStored row).idempotencyKey viewed = false :=
    foreign
  simp only [detailOf, unowned, Bool.not_false, if_true]

/-- Two rows that look alike to their viewer show the same detail. -/
theorem detailOf_alike
    (surroundings : Surroundings) {row other : TaskRecord}
    (alike : Alike viewed first second)
    (member : row ∈ first.tasks.rows)
    (same : masked viewed row = masked viewed other) :
    (detailOf surroundings viewed (scanStored row) first).map
        encodeDetail =
      (detailOf surroundings viewed (scanStored other) second).map
        encodeDetail := by
  have owner : belongs viewed row = belongs viewed other := by
    rw [← belongs_masked, same, belongs_masked]
  cases own : belongs viewed row with
  | true =>
      rw [masked_of_belongs own,
        masked_of_belongs (owner.symm.trans own)] at same
      subst other
      have logs :
          first.logsOf (scanStored row).id =
            second.logsOf (scanStored row).id :=
        alike.logs row member own
      simp only [detailOf, taskLogs, logs]
  | false =>
      have foreign : belongs viewed other = false := owner.symm.trans own
      have view :
          encodeTaskView
              { toTaskView (scanStored row) (surroundings.clock 0) with
                lastError := none } =
            encodeTaskView
              { toTaskView (scanStored other) (surroundings.clock 0) with
                lastError := none } := by
        have hidden := encodeTaskView_masked viewed row (surroundings.clock 0)
        rw [same, encodeTaskView_masked] at hidden
        exact hidden.symm
      rw [detailOf_foreign own, detailOf_foreign foreign]
      simp only [Except.map, encodeDetail, view]

theorem handleTaskDetail_alike {header : GoString}
    (alike : Alike (viewer parsers header) first second)
    (pathId : GoString) :
    handleTaskDetail parsers surroundings header pathId first =
      handleTaskDetail parsers surroundings header pathId
        second := by
  simp only [handleTaskDetail, taskDetail, getStoredTask]
  cases parsers.parseUUID pathId with
  | none => rfl
  | some id =>
      cases surroundings.faults 0 with
      | some fault => rfl
      | none =>
          rcases alike.find id with
            ⟨before, after⟩ | ⟨row, other, before, after, same⟩
          · simp only [before, after, Option.map_none]
          · have shown :=
              detailOf_alike surroundings alike
                (List.mem_of_find?_eq_some before) same
            simp only [before, after, Option.map_some]
            rcases except_map_cases shown with
              ⟨error, failed, failed'⟩ | ⟨result, result', done, done', equal⟩
            · simp only [failed, failed', serviceResult]
            · simp only [done, done', serviceResult, equal]

end Alike

/--
To any viewer, the replies in two states that differ only in secrets of tasks
of other sessions are identical.
-/
theorem no_leak_between_sessions
    (runtime : Runtime) (parsers : Parsers)
    (surroundings : Surroundings) (header : GoString)
    (first second : Database)
    (alike : Alike (viewer parsers header) first second)
    (request : Read) :
    respond runtime parsers surroundings header request first =
      respond runtime parsers surroundings header request second := by
  simp only [respond]
  cases surroundings.wait with
  | some wait => rfl
  | none =>
      cases request with
      | listTasks query => exact handleListTasks_alike alike query
      | getTask pathId => exact handleGetTask_alike alike pathId
      | snapshot query => exact handleSnapshot_alike alike query
      | taskDetail pathId => exact handleTaskDetail_alike alike pathId

/-! ## Two states that look alike -/

/-- A dead task of another session, with a payload and an error. -/
def secretRow (payload : GoString) (lastError : Text) : TaskRecord where
  id := 7
  idempotencyKey := some ⟨ascii "demo:other:1", by decide +kernel⟩
  type := ⟨ascii "echo", by decide +kernel⟩
  payload := payload
  payloadHash := payload
  status := .dead
  priority := 0
  attempts := 1
  maxRetries := 0
  runAt := 0
  startedAt := some 0
  completedAt := none
  lockedBy := none
  lockedAt := none
  lastError := some lastError
  createdAt := 0
  updatedAt := 0

/-- The state with this task only. -/
def secretState (payload : GoString) (lastError : Text) : Database where
  tasks := ⟨[secretRow payload lastError], List.pairwise_singleton _ _⟩
  taskLogs := []
  deadLetters := []

theorem secretRow_foreign (payload : GoString) (lastError : Text) :
    belongs (uuidString 1) (secretRow payload lastError) = false := by
  have apart :
      ¬ (keyPrefix ++ uuidString 1 ++ ascii ":") <+:
        ascii "demo:other:1" := by
    decide +kernel
  rw [belongs, keyBelongsToSession.eq_def]
  exact decide_eq_false fun both => apart both.2

theorem secretState_alike (payload payload' : GoString)
    (lastError lastError' : Text) :
    Alike (uuidString 1) (secretState payload lastError)
      (secretState payload' lastError') := by
  constructor
  · refine .cons (Or.inr ⟨?_, ?_, ?_⟩) .nil
    · exact secretRow_foreign payload lastError
    · exact secretRow_foreign payload' lastError'
    · exact ⟨_, payload', payload', some lastError', rfl⟩
  · intro row _ _
    rfl

/-- The parsers on the ids of the first session and of the task. -/
def oneSession : Parsers where
  atoi := Environment.atoi
  parseUUID := fun text => [1, 7].find? fun id => uuidString id = text

theorem secrets_not_shown :
    respond plainRuntime oneSession {} (uuidString 1)
        (.taskDetail (uuidString 7))
        (secretState (ascii "pin 1") staleDeadError) =
      respond plainRuntime oneSession {} (uuidString 1)
        (.taskDetail (uuidString 7))
        (secretState (ascii "pin 2") stalePendingError) := by
  have session : viewer oneSession (uuidString 1) = uuidString 1 := by
    decide +kernel
  have alike :
      Alike (viewer oneSession (uuidString 1))
        (secretState (ascii "pin 1") staleDeadError)
        (secretState (ascii "pin 2") stalePendingError) := by
    rw [session]
    exact secretState_alike _ _ _ _
  exact no_leak_between_sessions plainRuntime oneSession {} (uuidString 1)
    _ _ alike (.taskDetail (uuidString 7))

end Dhara.Playground.Http
