import Dhara.Playground.Config
import Dhara.Playground.Scenarios

/-!
# The sizes of bursts

A scenario inserts no more tasks than its plan has, and only at positions
whose payload passes the checks.  The default size of a burst is not compared
with `MaxBatch`, so a burst without a size can be larger than the
configuration allows.  It is so in some run unless the queue or the bound on
payloads stops the burst before.
-/

namespace Dhara.Playground

open Dhara.JsonText (storable)
open Dhara.Store Dhara.Transaction

/-! ## The rows of a scenario -/

section Loops

variable
    {platform : Platform} {runtime : Runtime} {config : Config}
    {made : Except ServiceError Plan}

/-- Some insertion at this position passes the checks. -/
def Plan.Possible (plan : Plan) (position : Nat) : Prop :=
  ∃ now uuid params, plan.insertion position now uuid = .ok params

/-- A scenario inserts no more than it has planned and can check. -/
structure Plan.Bounds (config : Config) (plan : Plan)
    (rows : List TaskRecord) : Prop where
  room : (plan.count : Int) ≤ config.maxPending
  count : rows.length ≤ plan.count
  possible : ∀ position < rows.length, plan.Possible position

/-- The ids and the rows in the loop of a scenario. -/
def Plan.Bounding (plan : Plan) (taskIDs : List TaskId)
    (rows : List TaskRecord) : Prop :=
  taskIDs.length ≤ plan.count ∧ rows.length ≤ taskIDs.length ∧
    ∀ position < taskIDs.length, plan.Possible position

/-- Nothing was inserted, or the rows are within the bounds of the plan. -/
def Bounded (config : Config) (made : Except ServiceError Plan)
    (rows : List TaskRecord) : Prop :=
  rows = [] ∨ ∃ plan, made = .ok plan ∧ plan.Bounds config rows

/-- The rows a request has inserted are within the bounds of its plan. -/
theorem loopRule_bounds
    (platform : Platform) (runtime : Runtime) (config : Config)
    (named : ∀ plan, made = .ok plan → plan.scenario.isSome = true)
    (index : Nat) :
    LoopRule platform runtime config made Plan.Bounding
      (fun _ rows => Bounded config made rows) index
      (fun _ _ => True) where
  refused := fun _ => Or.inl rfl
  starts := fun _ _ => ⟨Nat.zero_le _, le_rfl, nofun⟩
  continues := by
    rintro plan taskIDs rows state now uuid answers equal room
      ⟨counted, fewer, possible⟩ -
    rcases plan.next_cases platform (named plan equal) taskIDs now uuid
        answers state.db with
      ⟨_, ends⟩ | ⟨error, ends⟩ | ⟨params, more, built, called⟩
    · rw [ends, arrivals_self, List.append_nil]
      exact Or.inr ⟨plan, equal, room, by omega,
        fun position small => possible position (by omega)⟩
    · rw [ends, arrivals_self, List.append_nil]
      exact Or.inr ⟨plan, equal, room, by omega,
        fun position small => possible position (by omega)⟩
    · have single :=
        length_arrivals_insert_call platform now params answers state.db
      have also :
          ∀ position < taskIDs.length + 1, plan.Possible position := by
        intro position small
        rcases Nat.lt_succ_iff_lt_or_eq.mp small with early | last
        · exact possible position early
        · exact ⟨now, uuid, params, by rw [last, built]⟩
      rcases called with ⟨error, ends⟩ | ⟨result, _, goes⟩
      · rw [ends]
        dsimp only
        refine Or.inr ⟨plan, equal, room, ?_, ?_⟩
        · rw [List.length_append]
          omega
        · intro position small
          rw [List.length_append] at small
          exact also position (by omega)
      · rw [goes]
        dsimp only
        refine ⟨plan, rfl, equal, room, ?_, ?_, ?_⟩
        · rw [List.length_append, List.length_singleton]
          omega
        · rw [List.length_append, List.length_append,
            List.length_singleton]
          omega
        · rw [List.length_append, List.length_singleton]
          exact also

theorem Stage.Tracks.bounded
    {stage : Stage} {rows : List TaskRecord}
    (tracks :
      stage.Tracks runtime config made Plan.Bounding
        (fun _ rows => Bounded config made rows) rows) :
    Bounded config made rows := by
  cases stage with
  | arrived request => exact Or.inl tracks.2
  | ready work | holding work =>
      rcases tracks with ⟨_, _, _, none⟩
      exact Or.inl none
  | admitted work taskIDs =>
      rcases tracks with
        ⟨plan, _, equal, room, counted, fewer, possible⟩
      exact Or.inr ⟨plan, equal, room, by omega,
        fun position small => possible position (by omega)⟩
  | returned outcome => exact tracks

theorem State.allows_true (state : State) (run : List Step) :
    state.Allows platform runtime config (fun _ _ => True) run := by
  induction run generalizing state with
  | nil => exact True.intro
  | cons step rest induction =>
      exact ⟨True.intro, fun next _ => induction next⟩

/-- In every run a scenario stays within the bounds of its plan. -/
theorem scenario_bounded
    {request : Request}
    (requests : request.scenario runtime config = some made)
    {state final : State} {index : Nat} {run : List Step}
    (arrived : state.requests[index]? = some (.arrived request))
    (followed : state.follow platform runtime config run = some final) :
    Bounded config made
      (state.inserted platform runtime config index run) := by
  have named : ∀ plan, made = .ok plan → plan.scenario.isSome = true := by
    intro plan equal
    rw [equal] at requests
    exact (Request.scenario_serves requests).named
  rcases Stage.Tracks.follow
      (loopRule_bounds platform runtime config named index) arrived
      (show Stage.Tracks runtime config made _ _ [] (.arrived request)
        from ⟨requests, rfl⟩)
      (state.allows_true run) followed with
    ⟨last, _, tracks⟩
  exact tracks.bounded

end Loops

/-! ## The size of a burst -/

/-- In every run the burst inserts at most `MaxBatch` tasks. -/
def BurstBounded (platform : Platform) (runtime : Runtime)
    (config : Config) (size : Int) : Prop :=
  ∀ (session : GoString) (state final : State) (index : Nat)
    (run : List Step),
    state.requests[index]? = some (.arrived (.enqueueBurst session size)) →
    state.follow platform runtime config run = some final →
      ((state.inserted platform runtime config index run).length : Int) ≤
        config.maxBatch

/--
The request has a size, or the default size is within the limit, or it never
fits the queue, or the payloads of the jobs beyond the limit are too large.
-/
def DefaultFits (config : Config) (size : Int) : Prop :=
  size ≠ 0 ∨ 25 ≤ config.maxBatch ∨ config.maxPending < 25 ∨
    config.maxPayloadBytes < 31 ∨
    (config.maxPayloadBytes < 32 ∧ 9 ≤ config.maxBatch)

section Bursts

variable
    {platform : Platform} {runtime : Runtime} {config : Config}

theorem length_burstPayload :
    ∀ position < 25,
      (burstPayload position 25).length =
        if position < 9 then 31 else 32 := by
  decide

theorem insertion_fits
    {session taskType payload uuid : GoString} {maxRetries : Int}
    {now : Time} {params : InsertParams} (present : payload ≠ [])
    (built :
      insertion runtime config session taskType payload maxRetries now
        uuid = .ok params) :
    (payload.length : Int) ≤ config.maxPayloadBytes := by
  unfold insertion normalizePayload at built
  simp only [if_neg present] at built
  by_contra large
  rw [if_pos (by omega)] at built
  cases built

/-- The jobs of a default burst have payloads within the limit. -/
theorem burst_possible
    {session : GoString} {plan : Plan}
    (planned : enqueueBurst runtime config session 0 = .ok plan)
    {position : Nat} (small : position < 25)
    (possible : plan.Possible position) :
    (if position < 9 then (31 : Int) else 32) ≤
      config.maxPayloadBytes := by
  rcases possible with ⟨now, uuid, params, built⟩
  cases planned
  have length := length_burstPayload position small
  have present : burstPayload position 25 ≠ [] := by
    intro empty
    rw [empty] at length
    split_ifs at length
  have fits := insertion_fits present built
  rw [length] at fits
  split_ifs at fits ⊢
  all_goals exact fits

theorem burstBounded_of_defaultFits
    {size : Int} (positive : 1 ≤ config.maxBatch)
    (fits : DefaultFits config size) :
    BurstBounded platform runtime config size := by
  intro session state final index run arrived followed
  have requests :
      (Request.enqueueBurst session size).scenario runtime config =
        some (enqueueBurst runtime config session size) :=
    rfl
  rcases scenario_bounded requests arrived followed with
    none | ⟨plan, planned, bounds⟩
  · rw [none]
    change (0 : Int) ≤ config.maxBatch
    omega
  · have count := bounds.count
    have room := bounds.room
    have sized : (plan.count : Int) = if size = 0 then 25 else size :=
      (Request.scenario_serves (planned ▸ requests)).sized
    by_cases default : size = 0
    · subst size
      rw [if_pos rfl] at sized
      have possible :
          ∀ position < (state.inserted platform runtime config index
              run).length,
            (if position < 9 then (31 : Int) else 32) ≤
              config.maxPayloadBytes := by
        intro position small
        exact burst_possible planned (by omega)
          (bounds.possible position small)
      generalize (state.inserted platform runtime config index
        run).length = inserted at count possible ⊢
      rcases fits with given | large | full | tiny | ⟨short, enough⟩
      · exact (given rfl).elim
      · omega
      · omega
      · by_contra many
        have first := possible 0 (by omega)
        rw [if_pos (by omega)] at first
        omega
      · by_contra many
        have tenth := possible 9 (by omega)
        rw [if_neg (by omega)] at tenth
        omega
    · rw [if_neg default] at sized
      have limited : size ≤ config.maxBatch := by
        simp only [enqueueBurst] at planned
        split at planned
        · cases planned
        · rename_i accepted
          exact ((validateCount_ok accepted).2 default).2
      omega

end Bursts

/-! ## A burst without a size -/

theorem checkFields_burstPayload (runtime : Runtime) {position : Nat}
    (small : position < 25) :
    checkFields runtime typeEcho (burstPayload position 25) 0 = .ok () := by
  have checked :
      ∀ position < 25,
        checkFields plainRuntime typeEcho (burstPayload position 25) 0 =
          .ok () := by
    decide +kernel
  have passes := checked position small
  simp only [checkFields, if_true] at passes ⊢
  exact passes

/-- The payloads are objects, for the decoder and for the handler. -/
theorem decode_burstPayload :
    ∀ position < 25,
      (JsonText.decode (burstPayload position 25)).isNone = false ∧
        (Environment.trimSpace (burstPayload position 25)).head? =
          some 123 := by
  decide +kernel

theorem storable_burstPayload :
    ∀ position < 25, storable (burstPayload position 25) = true := by
  decide +kernel

/-- An object was decoded. -/
def isObject : Option Json → Bool
  | some (.object _) => true
  | _ => false

theorem hashPayload_burstPayload
    {platform : Platform} (documented : platform.Documented)
    {position : Nat} (small : position < 25) :
    ∃ payloadHash,
      hashPayload platform (burstPayload position 25) = some payloadHash := by
  have objects :
      ∀ position < 25,
        isObject (Store.unmarshal (burstPayload position 25)) = true := by
    decide +kernel
  have object := objects position small
  unfold isObject at object
  split at object
  · rename_i members read
    rw [hashPayload, canonicalizeJSON, documented.unmarshal, read]
    exact ⟨_, rfl⟩
  · cases object

/-- The nonce and the id of the job at a position. -/
def jobId (position : Nat) : TaskId := BitVec.ofNat 128 position

/-- The session of the burst. -/
def burstSession : GoString := Http.uuidString 1

/-- The key of the job at a position. -/
def jobKey (position : Nat) : GoString :=
  ownedKey burstSession (Http.uuidString (jobId position))

/-- The parameters of the job at a position. -/
def jobParams (position : Nat) : InsertParams where
  type := typeEcho
  payload := some (burstPayload position 25)
  idempotencyKey := some (jobKey position)
  priority := some 0
  maxRetries := some defaultMaxRetries

/-- The calls of the burst from a position on. -/
def burstCalls : Nat → Nat → List Step
  | _, 0 => []
  | position, count + 1 =>
      .call 0 0 (Http.uuidString (jobId position))
          (calm (jobId position) 0) ::
        burstCalls (position + 1) count

theorem jobParams_valid :
    ∀ position < 25,
      ((jobParams position).normalize 0).validate 0 = .ok () := by
  decide +kernel

theorem jobKey_isText :
    ∀ position < 25, isText (jobKey position) = true := by
  decide +kernel

theorem jobId_inj {first second : Nat} (small : first < 25)
    (small' : second < 25) (equal : jobId first = jobId second) :
    first = second := by
  have numbers := congrArg BitVec.toNat equal
  simp only [jobId, BitVec.toNat_ofNat] at numbers
  omega

theorem jobKey_inj {first second : Nat} (small : first < 25)
    (small' : second < 25) (equal : jobKey first = jobKey second) :
    first = second := by
  apply jobId_inj small small'
  apply Http.uuidString_injective
  simpa only [jobKey, ownedKey, sessionKey, List.append_cancel_left_eq]
    using equal

section Jobs

variable
    {platform : Platform} {runtime : Runtime} {config : Config}
    {plan : Plan} {position : Nat} {state : State}

/-- The burst has inserted the jobs before the position. -/
structure BurstAt (plan : Plan) (position : Nat) (state : State) :
    Prop where
  stage :
    ∃ taskIDs,
      taskIDs.length = position ∧
        state.requests = [.admitted (.inserts plan) taskIDs]
  rows :
    ∀ row ∈ state.db.tasks.rows,
      ∃ earlier < position,
        row.id = jobId earlier ∧
          row.idempotencyKey.map Text.bytes = some (jobKey earlier)

theorem job_insertion
    (planned : enqueueBurst runtime config burstSession 0 = .ok plan)
    (small : position < 25)
    (fits :
      ((burstPayload position 25).length : Int) ≤ config.maxPayloadBytes) :
    plan.insertion position 0 (Http.uuidString (jobId position)) =
      .ok (jobParams position) := by
  have length := length_burstPayload position small
  have present : burstPayload position 25 ≠ [] := by
    intro empty
    rw [empty] at length
    split_ifs at length
  rcases decode_burstPayload position small with ⟨decoded, object⟩
  cases planned
  simp only [insertion, normalizePayload, if_neg present, decoded, object,
    checkFields_burstPayload runtime small, if_neg (not_lt.mpr fits)]
  rfl

/-- One more job is inserted. -/
theorem job_inserts
    (documented : platform.Documented) (small : position < 25)
    (before : BurstAt plan position state) :
    ∃ row result,
      insert platform 0 (jobParams position) (calm (jobId position) 0)
          state.db =
        (.ok result,
          (postgres platform).applyAll [.insertTask row] state.db) ∧
        state.db.Free row ∧ row.id = jobId position ∧
        row.idempotencyKey.map Text.bytes = some (jobKey position) := by
  have checked := jobParams_valid position small
  have valid := validated_of_validate checked
  rcases hashPayload_burstPayload documented small with
    ⟨payloadHash, hashed⟩
  have admissible : Admissible ((jobParams position).normalize 0) := by
    refine ⟨?_, ?_, storable_burstPayload position small, ?_⟩
    · exact isText_ascii (by simp)
    · intro key equal
      cases equal
      exact jobKey_isText position small
    · show IsTimestamp (sentTime 0)
      decide
  rcases (valid.fitsSchema_iff documented hashed).mpr admissible with
    ⟨encoded, bound⟩
  have requests := requests_record valid.fits bound (jobId position) 0
  have keyed :
      encoded.idempotencyKey.map Text.bytes = some (jobKey position) :=
    requests.2
  have apart :
      ∀ row ∈ state.db.tasks.rows,
        row.id ≠ jobId position ∧
          row.idempotencyKey.map Text.bytes ≠ some (jobKey position) := by
    intro row member
    rcases before.rows row member with ⟨earlier, less, sameId, sameKey⟩
    constructor
    · intro equal
      have same := jobId_inj (by omega) small (sameId.symm.trans equal)
      omega
    · intro equal
      have same :=
        jobKey_inj (by omega) small
          (Option.some.inj (sameKey.symm.trans equal))
      omega
  have fresh : state.db.find (jobId position) = none := by
    rw [Database.find_eq_none_iff]
    exact fun row member => (apart row member).1
  have unused : encoded.conflicts state.db = false := by
    rcases Option.map_eq_some_iff.mp keyed with ⟨key, present, bytes⟩
    have absent : state.db.findKey encoded.type key = none := by
      rw [Database.findKey_eq_none_iff]
      intro row member _ equal
      apply (apart row member).2
      rw [equal, Option.map_some, bytes]
    simp [EncodedTask.conflicts, present, absent]
  have quiet : ∀ trip, (calm (jobId position) 0 trip).fault = none :=
    fun _ => rfl
  rcases create_inserts quiet fresh hashed bound unused with
    ⟨result, stored⟩
  refine ⟨encoded.record (jobId position) 0,
    { task :=
        newTask
          (scanInserted ((jobParams position).normalize 0).toStoreTask
            (encoded.record (jobId position) 0))
      duplicate := false },
    ?_, free_record unused fresh, rfl, keyed⟩
  rw [insert_of_valid checked, result, stored]
  rfl

/-- The call of one more job. -/
theorem job_step
    (documented : platform.Documented)
    (planned : enqueueBurst runtime config burstSession 0 = .ok plan)
    (small : position < 25)
    (fits :
      ((burstPayload position 25).length : Int) ≤ config.maxPayloadBytes)
    (before : BurstAt plan position state) :
    ∃ next,
      state.step platform runtime config
          (.call 0 0 (Http.uuidString (jobId position))
            (calm (jobId position) 0)) = some next ∧
        BurstAt plan (position + 1) next ∧
        (arrivals state.db next.db).length = 1 := by
  have built := job_insertion planned small fits
  rcases job_inserts documented small before with
    ⟨row, result, inserted, free, sameId, sameKey⟩
  rcases before.stage with ⟨taskIDs, length, requests⟩
  have called :
      plan.next platform taskIDs 0 (Http.uuidString (jobId position))
          (calm (jobId position) 0) state.db =
        (.admitted (.inserts plan) (taskIDs ++ [result.task.id]),
          (postgres platform).applyAll [.insertTask row] state.db) := by
    cases planned
    rw [Plan.next, if_pos (by rw [length]; exact small), length, built]
    simp only [inserted]
  refine ⟨state.proceed 0 (plan.next platform taskIDs 0
    (Http.uuidString (jobId position)) (calm (jobId position) 0)
    state.db), ?_, ?_, ?_⟩
  · simp only [State.step, requests, List.getElem?_cons_zero]
    rfl
  · rw [called]
    constructor
    · refine ⟨taskIDs ++ [result.task.id], ?_, ?_⟩
      · rw [List.length_append, length, List.length_singleton]
      · rw [State.proceed_requests, requests]
        rfl
    · intro other member
      have stored :
          ((postgres platform).applyAll [.insertTask row]
              state.db).tasks.rows = state.db.tasks.rows ++ [row] :=
        Write.rows_insertTask free
      change other ∈ ((postgres platform).applyAll [.insertTask row]
        state.db).tasks.rows at member
      rw [stored, List.mem_append, List.mem_singleton] at member
      rcases member with old | new
      · rcases before.rows other old with ⟨earlier, less, rest⟩
        exact ⟨earlier, by omega, rest⟩
      · rw [new]
        exact ⟨position, by omega, sameId, sameKey⟩
  · rw [called]
    change (arrivals state.db
      ((postgres platform).applyAll [.insertTask row] state.db)).length = 1
    rw [arrivals_insert free]
    rfl

/-- The calls of a default burst insert one job each. -/
theorem jobs_run
    (documented : platform.Documented)
    (planned : enqueueBurst runtime config burstSession 0 = .ok plan)
    {count : Nat} (small : position + count ≤ 25)
    (fits :
      ∀ later < position + count,
        ((burstPayload later 25).length : Int) ≤ config.maxPayloadBytes)
    (before : BurstAt plan position state) :
    ∃ final,
      state.follow platform runtime config (burstCalls position count) =
          some final ∧
        (state.inserted platform runtime config 0
          (burstCalls position count)).length = count := by
  induction count generalizing position state with
  | zero => exact ⟨state, rfl, rfl⟩
  | succ count induction =>
      rcases job_step documented planned (by omega)
          (fits position (by omega)) before with
        ⟨next, stepped, after, single⟩
      rcases induction (by omega)
          (fun later less => fits later (by omega)) after with
        ⟨final, followed, inserted⟩
      refine ⟨final, ?_, ?_⟩
      · simp only [burstCalls, State.follow, stepped, Option.bind_some]
        exact followed
      · simp only [burstCalls, State.inserted, stepped, Step.brings,
          Step.caller, if_true, List.length_append, single, inserted]
        omega

/-- The default size passes the limit of the configuration. -/
theorem defaultFits_of_burstBounded
    (documented : platform.Documented) {size : Int}
    (positive : 1 ≤ config.maxBatch)
    (bounded : BurstBounded platform runtime config size) :
    DefaultFits config size := by
  by_contra passes
  simp only [DefaultFits, not_or, not_and, not_not] at passes
  rcases passes with ⟨default, small, room, fits, tenth⟩
  subst size
  let plan : Plan :=
    { count := 25
      scenario := some (ascii "burst")
      insertion := fun index now uuid =>
        insertion runtime config burstSession typeEcho
          (burstPayload index 25) defaultMaxRetries now uuid }
  have planned : enqueueBurst runtime config burstSession 0 = .ok plan := rfl
  let start : State :=
    { db := .empty
      requests := [.arrived (.enqueueBurst burstSession 0)] }
  let admitted : State :=
    { db := .empty
      requests := [.admitted (.inserts plan) []]
      holder := some 0 }
  have checked : (Work.inserts plan).check config none .empty = .ok () := by
    change (if config.maxPending < queueDepth .empty + (25 : Nat) then
      Except.error ServiceError.queueFull else .ok ()) = .ok ()
    have empty : queueDepth .empty = 0 := rfl
    rw [empty, if_neg (by omega)]
  have begins : BurstAt plan 0 admitted :=
    ⟨⟨[], rfl, rfl⟩, fun row member => nomatch member⟩
  have lengths :
      ∀ later < 0 + (config.maxBatch.toNat + 1),
        ((burstPayload later 25).length : Int) ≤
          config.maxPayloadBytes := by
    intro later less
    rw [length_burstPayload later (by omega)]
    split_ifs with early
    · omega
    · by_contra large
      exact tenth (by omega) (by omega)
  rcases jobs_run documented planned (by omega) lengths begins with
    ⟨final, followed, inserted⟩
  have steps :
      start.follow platform runtime config
          (.prepare 0 0 [] none :: .lock 0 :: .check 0 none ::
            burstCalls 0 (config.maxBatch.toNat + 1)) = some final ∧
        (start.inserted platform runtime config 0
          (.prepare 0 0 [] none :: .lock 0 :: .check 0 none ::
            burstCalls 0 (config.maxBatch.toNat + 1))).length =
          config.maxBatch.toNat + 1 := by
    have prepared :
        start.step platform runtime config (.prepare 0 0 [] none) =
          some { db := .empty, requests := [.ready (.inserts plan)] } :=
      rfl
    have locked :
        State.step platform runtime config
            { db := .empty, requests := [.ready (.inserts plan)] }
            (.lock 0) =
          some
            { db := .empty
              requests := [.holding (.inserts plan)]
              holder := some 0 } :=
      rfl
    have admits :
        State.step platform runtime config
            { db := .empty
              requests := [.holding (.inserts plan)]
              holder := some 0 } (.check 0 none) =
          some admitted := by
      simp only [State.step, List.getElem?_cons_zero, checked]
      rfl
    simp only [State.follow, State.inserted, prepared, locked, admits,
      Option.bind_some, Step.brings, Step.caller, reduceCtorEq, if_false,
      List.nil_append]
    exact ⟨followed, inserted⟩
  have limit := bounded burstSession start final 0 _ rfl steps.1
  rw [steps.2] at limit
  omega

end Jobs

/-! ## Scenarios and their sizes -/

/--
A burst stays within `MaxBatch` if and only if it is given a size or its
default size fits the configuration.  A scenario that returns without an error
has inserted what it reports.
-/
theorem scenario_sizes_iff_default_fits
    (platform : Platform) (runtime : Runtime)
    (documented : platform.Documented) :
    (∀ settings : Settings, settings.validate runtime = .ok () →
      ∀ size,
        BurstBounded platform runtime settings.toConfig size ↔
          DefaultFits settings.toConfig size) ∧
      ∀ (config : Config) (request : Request)
        (made : Except ServiceError Plan),
        request.scenario runtime config = some made →
        request.session ≠ [] →
        ∀ (state final : State) (index : Nat) (run : List Step),
          state.requests[index]? = some (.arrived request) →
          state.follow platform runtime config run = some final →
          state.freshNonces platform runtime config request.session
              index run = true →
          SteadyRun run →
          ∀ name count taskIDs,
            final.requests[index]? =
                some (.returned (.scenario name count taskIDs none)) →
              Delivers request
                (state.inserted platform runtime config index run) count
                taskIDs := by
  constructor
  · intro settings valid size
    have positive := (settings.validate_maxBatch valid).1
    exact ⟨defaultFits_of_burstBounded documented positive,
      burstBounded_of_defaultFits positive⟩
  · intro config request made requests named state final index run
      arrived followed fresh steady name count taskIDs returned
    exact scenario_delivers requests named arrived followed fresh steady
      returned

/-- A request has arrived at an empty queue. -/
def arrivedAt (request : Request) : State :=
  { db := .empty, requests := [.arrived request] }

/-- The request is admitted and makes its calls. -/
def scenarioRun (calls : Nat) : List Step :=
  [.prepare 0 0 [] none, .lock 0, .check 0 none] ++ burstCalls 0 calls

/-- The configuration allows one task, and the burst has inserted two. -/
theorem default_burst_exceeds_limit :
    ({ databaseURL := ascii "postgres:", maxBatch := 1 } :
        Settings).validate plainRuntime = .ok () ∧
      (State.follow plainPlatform plainRuntime { maxBatch := 1 }
        (arrivedAt (.enqueueBurst burstSession 0))
        (scenarioRun 2)).isSome = true ∧
      (State.inserted plainPlatform plainRuntime { maxBatch := 1 } 0
        (arrivedAt (.enqueueBurst burstSession 0))
        (scenarioRun 2)).length = 2 := by
  decide +kernel

theorem burstCalls_steady (position count : Nat) :
    SteadyRun (burstCalls position count) := by
  induction count generalizing position with
  | zero =>
      intro index now uuid answers member
      cases member
  | succ count induction =>
      intro index now uuid answers member
      rw [burstCalls, List.mem_cons] at member
      rcases member with first | later
      · cases first
        exact ⟨nofun, nofun⟩
      · exact induction (position + 1) index now uuid answers later

/-- What the first request has returned without an error. -/
def reported (state : State) : Option (Nat × List TaskId) :=
  match state.requests with
  | .returned (.scenario _ count taskIDs none) :: _ =>
      some (count, taskIDs)
  | _ => none

theorem reported_eq_some {state : State} {count : Nat}
    {taskIDs : List TaskId}
    (reports : reported state = some (count, taskIDs)) :
    ∃ name,
      state.requests[0]? =
        some (.returned (.scenario name count taskIDs none)) := by
  unfold reported at reports
  split at reports
  · rename_i name number ids rest located
    cases reports
    exact ⟨name, by rw [located]; rfl⟩
  · cases reports

/-- The stock configuration bounds bursts, and two tasks are delivered. -/
theorem stock_burst_bounded :
    BurstBounded plainPlatform plainRuntime {} 0 ∧
      Delivers (.enqueueSlow burstSession 2)
        (State.inserted plainPlatform plainRuntime {} 0
          (arrivedAt (.enqueueSlow burstSession 2)) (scenarioRun 3))
        2 [0, 1] := by
  have sizes :=
    scenario_sizes_iff_default_fits plainPlatform plainRuntime
      plainPlatform_documented
  constructor
  · exact (sizes.1 { databaseURL := ascii "postgres:" }
      (by decide +kernel) 0).mpr (Or.inr (Or.inl (by decide)))
  · have outcome :
        (State.follow plainPlatform plainRuntime {}
            (arrivedAt (.enqueueSlow burstSession 2))
            (scenarioRun 3)).map reported = some (some (2, [0, 1])) ∧
          State.freshNonces plainPlatform plainRuntime {} burstSession 0
            (arrivedAt (.enqueueSlow burstSession 2))
            (scenarioRun 3) = true := by
      decide +kernel
    rcases Option.map_eq_some_iff.mp outcome.1 with
      ⟨final, followed, reports⟩
    rcases reported_eq_some reports with ⟨name, returned⟩
    have steady : SteadyRun (scenarioRun 3) := by
      intro index now uuid answers member
      rw [scenarioRun, List.mem_append] at member
      rcases member with early | call
      · simp at early
      · exact burstCalls_steady 0 3 index now uuid answers call
    have named : (Request.enqueueSlow burstSession 2).session ≠ [] :=
      Http.uuidString_ne_nil 1
    have requests :
        (Request.enqueueSlow burstSession 2).scenario plainRuntime {} =
          some (enqueueSlow plainRuntime {} burstSession 2) :=
      rfl
    exact sizes.2 {} (.enqueueSlow burstSession 2) _ requests named
      (arrivedAt (.enqueueSlow burstSession 2)) final 0 (scenarioRun 3)
      rfl followed outcome.2 steady name 2 [0, 1] returned

end Dhara.Playground
