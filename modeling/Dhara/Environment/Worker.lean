import Dhara.Environment.Parsers

/-!
# The configuration of the worker process

The sections of `internal/config` that the worker binary loads, each with its
reading of the environment and its `Validate`.  Durations are nanoseconds in
64 bits.  The sizes of the connection pool are narrowed to 32 bits after they
were validated.
-/

namespace Dhara.Environment

variable {text : GoString} {count : Int}

/-- `os.Getenv`: a variable that is not set is empty. -/
abbrev Variables := String → GoString

/-! ## Helpers -/

section Helpers

variable (fraction : GoString → Nat → Nat) (env : Variables)

/-- `getEnvString`. -/
def getEnvString (key : String) (defaultValue : GoString) : GoString :=
  if env key ≠ [] then env key else defaultValue

/-- `getEnvInt`. -/
def getEnvInt (key : String) (defaultValue : Int) : Int :=
  if env key ≠ [] then (atoi (env key)).getD defaultValue
  else defaultValue

/-- `getEnvDuration`. -/
def getEnvDuration (key : String) (defaultValue : Int) : Int :=
  if env key ≠ [] then
    match parseDuration fraction (env key) with
    | some duration => duration
    | none =>
        match atoi (trimSpace (env key)) with
        | some count => wrap 64 (count * second)
        | none => defaultValue
  else
    defaultValue

end Helpers

/-! ## Sections -/

/-- `DatabaseConfig`. -/
structure DatabaseConfig where
  url : GoString
  maxConns : Int
  minConns : Int

/-- `NewDatabaseConfig`. -/
def newDatabaseConfig (env : Variables) : DatabaseConfig where
  url := getEnvString env "DHARA_DATABASE_URL" []
  maxConns := getEnvInt env "DHARA_MAX_CONNS" 10
  minConns := getEnvInt env "DHARA_MIN_CONNS" 2

/-- `DatabaseConfig.Validate`. -/
def DatabaseConfig.validate (config : DatabaseConfig) :
    Except GoString Unit :=
  if config.url = [] then
    .error (ascii "DHARA_DATABASE_URL must be set")
  else if config.maxConns < 1 then
    .error (ascii "DHARA_MAX_CONNS must be >= 1")
  else if config.minConns < 1 then
    .error (ascii "DHARA_MIN_CONNS must be >= 1")
  else if config.maxConns < config.minConns then
    .error (ascii "DHARA_MIN_CONNS must be <= DHARA_MAX_CONNS")
  else
    .ok ()

/-- `WorkerConfig`. -/
structure WorkerConfig where
  workerPrefix : GoString
  workerCount : Int
  pollInterval : Int
  heartbeatInterval : Int
  handlerTimeout : Int
  stuckThreshold : Int
  reaperInterval : Int
  baseBackoff : Int
  maxBackoff : Int
  metricsPort : Int

/-- `NewWorkerConfig`. -/
def newWorkerConfig (fraction : GoString → Nat → Nat) (env : Variables) :
    WorkerConfig where
  workerPrefix := getEnvString env "WORKER_PREFIX" (ascii "dhara-worker")
  workerCount := getEnvInt env "WORKER_COUNT" 5
  pollInterval := getEnvDuration fraction env "POLL_INTERVAL" second
  heartbeatInterval :=
    getEnvDuration fraction env "HEARTBEAT_INTERVAL" (30 * second)
  handlerTimeout :=
    getEnvDuration fraction env "HANDLER_TIMEOUT" (300 * second)
  stuckThreshold :=
    getEnvDuration fraction env "STUCK_THRESHOLD" (300 * second)
  reaperInterval :=
    getEnvDuration fraction env "REAPER_INTERVAL" (30 * second)
  baseBackoff := getEnvDuration fraction env "BASE_BACKOFF" second
  maxBackoff := getEnvDuration fraction env "MAX_BACKOFF" (300 * second)
  metricsPort := getEnvInt env "WORKER_METRICS_PORT" 9090

/-- `WorkerConfig.Validate`.  The parameter is `Duration.String`. -/
def WorkerConfig.validate (format : Int → GoString)
    (config : WorkerConfig) : Except GoString Unit :=
  if config.workerPrefix = [] then
    .error (ascii "WORKER_PREFIX must not be empty")
  else if config.workerCount < 1 then
    .error (ascii "WORKER_COUNT must be >= 1")
  else if config.pollInterval ≤ 0 then
    .error (ascii "POLL_INTERVAL must be > 0")
  else if config.heartbeatInterval ≤ 0 then
    .error (ascii "HEARTBEAT_INTERVAL must be > 0")
  else if config.handlerTimeout ≤ 0 then
    .error (ascii "HANDLER_TIMEOUT must be > 0")
  else if config.stuckThreshold ≤ config.heartbeatInterval then
    .error (ascii "STUCK_THRESHOLD must be more than HEARTBEAT_INTERVAL")
  else if config.reaperInterval ≤ 0 then
    .error (ascii "REAPER_INTERVAL must be > 0")
  else if config.stuckThreshold < config.reaperInterval then
    .error
      (ascii "REAPER_INTERVAL (" ++ format config.reaperInterval ++
        ascii ") should be <= STUCK_THRESHOLD (" ++
        format config.stuckThreshold ++ ascii ")")
  else if config.baseBackoff ≤ 0 ∨ config.maxBackoff ≤ 0 then
    .error (ascii "BASE_BACKOFF and MAX_BACKOFF must be > 0")
  else if config.maxBackoff < config.baseBackoff then
    .error
      (ascii "BASE_BACKOFF (" ++ format config.baseBackoff ++
        ascii ") must be <= MAX_BACKOFF (" ++ format config.maxBackoff ++
        ascii ")")
  else if config.metricsPort < 0 ∨ 65535 < config.metricsPort then
    .error (ascii "WORKER_METRICS_PORT must be between 0 and 65535")
  else
    .ok ()

/-- `ShutdownConfig`. -/
structure ShutdownConfig where
  shutdownTimeout : Int

/-- `NewShutdownConfig`. -/
def newShutdownConfig (fraction : GoString → Nat → Nat)
    (env : Variables) : ShutdownConfig where
  shutdownTimeout :=
    getEnvDuration fraction env "SHUTDOWN_TIMEOUT" (30 * second)

/-- The sizes that `db.Open` gives to the connection pool. -/
def openSizes (maxConns minConns : Int) : Int × Int :=
  (if maxConns < 1 then 10 else maxConns,
    if minConns < 1 then 2 else minConns)

/-- The sizes with which the worker binary calls `db.Open`. -/
def DatabaseConfig.poolSizes (config : DatabaseConfig) : Int × Int :=
  openSizes (wrap 32 config.maxConns) (wrap 32 config.minConns)

/-- A check that was passed. -/
theorem check_passed
    {condition : Prop} [Decidable condition] {message : GoString}
    {next : Except GoString Unit}
    (valid : (if condition then .error message else next) = .ok ()) :
    ¬ condition ∧ next = .ok () := by
  by_cases failed : condition
  · rw [if_pos failed] at valid
    cases valid
  · rw [if_neg failed] at valid
    exact ⟨failed, valid⟩

/-- What `WorkerConfig.Validate` guarantees about the intervals. -/
theorem WorkerConfig.validate_intervals
    {format : Int → GoString} {config : WorkerConfig}
    (valid : config.validate format = .ok ()) :
    0 < config.heartbeatInterval ∧
      config.heartbeatInterval < config.stuckThreshold ∧
        0 < config.handlerTimeout := by
  unfold WorkerConfig.validate at valid
  rcases check_passed valid with ⟨_, valid⟩
  rcases check_passed valid with ⟨_, valid⟩
  rcases check_passed valid with ⟨_, valid⟩
  rcases check_passed valid with ⟨heartbeat, valid⟩
  rcases check_passed valid with ⟨timeout, valid⟩
  rcases check_passed valid with ⟨stuck, _⟩
  exact ⟨Int.not_le.mp heartbeat, Int.not_le.mp stuck, Int.not_le.mp timeout⟩

/-! ## Plain integers in the environment -/

/-- A plain number of seconds, or the default if it is no `int`. -/
def secondsOr (defaultValue count : Int) : Int :=
  if Fits 64 count then wrap 64 (count * second) else defaultValue

theorem atoi_plain
    (plain : plainInteger text = some count) :
    atoi text = if Fits 64 count then some count else none := by
  rw [atoi, plain]
  by_cases fits : Fits 64 count <;> simp [fits]

theorem trimSpace_nil : trimSpace [] = [] :=
  rfl

theorem ne_nil_of_plain
    (plain : plainInteger (trimSpace text) = some count) : text ≠ [] := by
  rintro rfl
  rw [trimSpace_nil] at plain
  cases plain

section Plain

variable {fraction : GoString → Nat → Nat} {env : Variables}

theorem getEnvInt_plain
    {key : String} (plain : plainInteger (env key) = some count)
    (defaultValue : Int) :
    getEnvInt env key defaultValue =
      if Fits 64 count then count else defaultValue := by
  have present : env key ≠ [] := by
    intro empty
    rw [empty] at plain
    cases plain
  rw [getEnvInt, if_pos present, atoi_plain plain]
  by_cases fits : Fits 64 count <;> simp [fits]

/-- Seconds are taken from the text, whichever way it is read. -/
theorem seconds_of_plain
    {around : GoString} (plain : plainInteger (trimSpace text) = some count)
    (parsed :
      parseDuration fraction around = none ∨
        parseDuration fraction around = some 0 ∧ count = 0)
    (defaultValue : Int) :
    (match parseDuration fraction around with
      | some duration => duration
      | none =>
          match atoi (trimSpace text) with
          | some count => wrap 64 (count * second)
          | none => defaultValue) =
      secondsOr defaultValue count := by
  rcases parsed with absent | ⟨zero, same⟩
  · rw [absent, atoi_plain plain, secondsOr]
    by_cases fits : Fits 64 count <;> simp [fits]
  · have small : Fits 64 0 := by decide
    rw [zero, same, secondsOr, if_pos small]
    rfl

theorem getEnvDuration_plain
    {key : String} (plain : plainInteger (trimSpace (env key)) = some count)
    (defaultValue : Int) :
    getEnvDuration fraction env key defaultValue =
      secondsOr defaultValue count := by
  rw [getEnvDuration, if_pos (ne_nil_of_plain plain)]
  apply seconds_of_plain plain
  rcases trimSpace_split (env key) with
    ⟨lead, trail, split, leading, trailing⟩
  rw [split]
  exact parseDuration_plain plain leading trailing

end Plain

end Dhara.Environment
