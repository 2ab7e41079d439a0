import Dhara.Environment.Worker
import Dhara.Playground.Http

/-!
# The configuration of the playground

`loadConfigRaw` reads the settings of the whole process from the environment,
and `Validate` looks at all of them.  The service reads only the part that
`Config` has.  Durations are nanoseconds in 64 bits, and the sizes of the
connection pools are narrowed to 32 bits before they are validated.
-/

namespace Dhara.Playground

open Dhara.Store
open Dhara.Environment (Variables atoi parseDuration trimSpace wrap)

/-- `Config`, with the defaults of `loadConfigRaw`. -/
structure Settings where
  databaseURL : GoString := []
  maxConns : Int := 10
  minConns : Int := 2
  port : Int := 8080
  schema : GoString := ascii "dhara_playground"
  crashSchema : GoString := ascii "dhara_playground_crash"
  shutdownTimeout : Int := 15 * second
  workerPrefix : GoString := ascii "playground-worker"
  workerCount : Int := 4
  pollInterval : Int := 250000000
  heartbeatInterval : Int := 2 * second
  handlerTimeout : Int := 12 * second
  stuckThreshold : Int := 10 * second
  reaperInterval : Int := 2 * second
  baseBackoff : Int := second
  maxBackoff : Int := 30 * second
  maxBatch : Int := 50
  maxBodyBytes : Int := 16384
  maxPayloadBytes : Int := 4096
  maxPending : Int := 500
  rateLimitPerMinute : Int := 30
  rateLimitBurst : Int := 10
  sessionRatePerMinute : Int := 20
  sessionRateBurst : Int := 8
  readRateLimitPerMin : Int := 180
  readRateLimitBurst : Int := 40
  cleanupInterval : Int := 300 * second
  retention : Int := 3600 * second
  enableCrashDemo : Bool := true
  crashDemoTimeout : Int := 35 * second
  crashTaskDuration : Int := 6 * second
  crashHeartbeatInterval : Int := second
  crashStuckThreshold : Int := 4 * second
  crashReaperInterval : Int := second
  crashHandlerTimeout : Int := 30 * second
  crashWorkerPrefix : GoString := ascii "playground-crash-worker"
  crashPollInterval : Int := 150000000

/-- What the service reads.  Its clock counts microseconds. -/
def Settings.toConfig (settings : Settings) : Config where
  maxBatch := settings.maxBatch
  maxPayloadBytes := settings.maxPayloadBytes
  maxPending := settings.maxPending
  retention := settings.retention / 1000

/-! ## Reading the environment -/

section Helpers

variable (fraction : GoString → Nat → Nat) (env : Variables)

/-- `getEnvString`. -/
def getEnvString (key : String) (fallback : GoString) : GoString :=
  if trimSpace (env key) ≠ [] then trimSpace (env key) else fallback

/-- `getEnvInt`. -/
def getEnvInt (key : String) (fallback : Int) : Int :=
  if env key ≠ [] then (atoi (trimSpace (env key))).getD fallback
  else fallback

/-- `getEnvDuration`. -/
def getEnvDuration (key : String) (fallback : Int) : Int :=
  if env key ≠ [] then
    match parseDuration fraction (trimSpace (env key)) with
    | some duration => duration
    | none =>
        match atoi (trimSpace (env key)) with
        | some count => wrap 64 (count * second)
        | none => fallback
  else
    fallback

/-- `getEnvBool`. -/
def getEnvBool (key : String) (fallback : Bool) : Bool :=
  if env key ≠ [] then
    (Http.parseBool (trimSpace (env key))).getD fallback
  else
    fallback

/-- `loadConfigRaw`. -/
def loadConfigRaw : Settings where
  databaseURL := getEnvString env "DHARA_DATABASE_URL" []
  maxConns := wrap 32 (getEnvInt env "DHARA_MAX_CONNS" 10)
  minConns := wrap 32 (getEnvInt env "DHARA_MIN_CONNS" 2)
  port := getEnvInt env "PORT" 8080
  schema := getEnvString env "PLAYGROUND_DB_SCHEMA" (ascii "dhara_playground")
  crashSchema := getEnvString env "PLAYGROUND_CRASH_SCHEMA"
    (ascii "dhara_playground_crash")
  shutdownTimeout :=
    getEnvDuration fraction env "SHUTDOWN_TIMEOUT" (15 * second)
  workerPrefix := getEnvString env "WORKER_PREFIX" (ascii "playground-worker")
  workerCount := getEnvInt env "WORKER_COUNT" 4
  pollInterval := getEnvDuration fraction env "POLL_INTERVAL" 250000000
  heartbeatInterval :=
    getEnvDuration fraction env "HEARTBEAT_INTERVAL" (2 * second)
  handlerTimeout :=
    getEnvDuration fraction env "HANDLER_TIMEOUT" (12 * second)
  stuckThreshold :=
    getEnvDuration fraction env "STUCK_THRESHOLD" (10 * second)
  reaperInterval := getEnvDuration fraction env "REAPER_INTERVAL" (2 * second)
  baseBackoff := getEnvDuration fraction env "BASE_BACKOFF" second
  maxBackoff := getEnvDuration fraction env "MAX_BACKOFF" (30 * second)
  maxBatch := getEnvInt env "PLAYGROUND_MAX_BATCH" 50
  maxBodyBytes := getEnvInt env "PLAYGROUND_MAX_BODY_BYTES" 16384
  maxPayloadBytes := getEnvInt env "PLAYGROUND_MAX_PAYLOAD_BYTES" 4096
  maxPending := getEnvInt env "PLAYGROUND_MAX_PENDING" 500
  rateLimitPerMinute := getEnvInt env "PLAYGROUND_RATE_LIMIT_PER_MIN" 30
  rateLimitBurst := getEnvInt env "PLAYGROUND_RATE_LIMIT_BURST" 10
  sessionRatePerMinute :=
    getEnvInt env "PLAYGROUND_SESSION_RATE_LIMIT_PER_MIN" 20
  sessionRateBurst := getEnvInt env "PLAYGROUND_SESSION_RATE_LIMIT_BURST" 8
  readRateLimitPerMin :=
    getEnvInt env "PLAYGROUND_READ_RATE_LIMIT_PER_MIN" 180
  readRateLimitBurst := getEnvInt env "PLAYGROUND_READ_RATE_LIMIT_BURST" 40
  cleanupInterval :=
    getEnvDuration fraction env "PLAYGROUND_CLEANUP_INTERVAL" (300 * second)
  retention :=
    getEnvDuration fraction env "PLAYGROUND_TASK_RETENTION" (3600 * second)
  enableCrashDemo := getEnvBool env "PLAYGROUND_ENABLE_CRASH_DEMO" true
  crashDemoTimeout :=
    getEnvDuration fraction env "PLAYGROUND_CRASH_DEMO_TIMEOUT" (35 * second)
  crashTaskDuration :=
    getEnvDuration fraction env "PLAYGROUND_CRASH_TASK_DURATION" (6 * second)
  crashHeartbeatInterval :=
    getEnvDuration fraction env "PLAYGROUND_CRASH_HEARTBEAT_INTERVAL" second
  crashStuckThreshold :=
    getEnvDuration fraction env "PLAYGROUND_CRASH_STUCK_THRESHOLD"
      (4 * second)
  crashReaperInterval :=
    getEnvDuration fraction env "PLAYGROUND_CRASH_REAPER_INTERVAL" second
  crashHandlerTimeout :=
    getEnvDuration fraction env "PLAYGROUND_CRASH_HANDLER_TIMEOUT"
      (30 * second)
  crashWorkerPrefix := getEnvString env "PLAYGROUND_CRASH_WORKER_PREFIX"
    (ascii "playground-crash-worker")
  crashPollInterval :=
    getEnvDuration fraction env "PLAYGROUND_CRASH_POLL_INTERVAL" 150000000

end Helpers

/-! ## Validation -/

/-- A byte that `schemaPattern` allows at the start. -/
def startsSchema (byte : UInt8) : Bool :=
  (97 ≤ byte ∧ byte ≤ 122) ∨ byte = 95

/-- A byte that `schemaPattern` allows later on. -/
def continuesSchema (byte : UInt8) : Bool :=
  startsSchema byte ∨ (48 ≤ byte ∧ byte ≤ 57)

/-- `schemaPattern.MatchString`. -/
def matchesSchemaPattern : GoString → Bool
  | [] => false
  | first :: rest =>
      startsSchema first && rest.all continuesSchema && rest.length ≤ 62

/-- `validateSchema`. -/
def validateSchema (runtime : Runtime) (schema : GoString) :
    Except GoString Unit :=
  if !matchesSchemaPattern schema then
    .error (ascii "must match [a-z_][a-z0-9_]\x7b0,62\x7d")
  else if ascii "pg_" <+: schema then
    .error (ascii "must not use PostgreSQL's reserved pg_ prefix")
  else if ["public", "pg_catalog", "information_schema"].any
      fun name => schema = ascii name then
    .error
      (runtime.quote schema ++ ascii " is not a dedicated playground schema")
  else
    .ok ()

/-- The part of `Validate` about the crash demo. -/
def Settings.validateCrashDemo (settings : Settings) :
    Except GoString Unit :=
  if ["public", "pg_catalog", "information_schema"].any
      fun name => settings.crashSchema = ascii name then
    .error (ascii "PLAYGROUND_CRASH_SCHEMA must be a dedicated schema")
  else if settings.crashWorkerPrefix = [] ∨
      settings.crashDemoTimeout ≤ 0 ∨ settings.crashTaskDuration ≤ 0 then
    .error (ascii "crash demo settings must be positive")
  else if settings.crashDemoTimeout ≤ settings.crashStuckThreshold then
    .error
      (ascii
        ("PLAYGROUND_CRASH_DEMO_TIMEOUT must be greater than " ++
          "PLAYGROUND_CRASH_STUCK_THRESHOLD"))
  else if 60 * second < settings.crashTaskDuration then
    .error (ascii "PLAYGROUND_CRASH_TASK_DURATION must be 60s or less")
  else if settings.crashDemoTimeout ≤
      wrap 64 (settings.crashTaskDuration + settings.crashStuckThreshold) then
    .error
      (ascii
        ("PLAYGROUND_CRASH_DEMO_TIMEOUT must exceed the crash task " ++
          "duration plus the stale threshold"))
  else if settings.crashHandlerTimeout ≤ settings.crashTaskDuration then
    .error
      (ascii
        ("PLAYGROUND_CRASH_HANDLER_TIMEOUT must be greater than " ++
          "PLAYGROUND_CRASH_TASK_DURATION"))
  else if settings.crashHeartbeatInterval ≤ 0 ∨
      settings.crashStuckThreshold ≤ settings.crashHeartbeatInterval then
    .error
      (ascii
        ("PLAYGROUND_CRASH_STUCK_THRESHOLD must be greater than " ++
          "PLAYGROUND_CRASH_HEARTBEAT_INTERVAL"))
  else if settings.crashReaperInterval ≤ 0 ∨
      settings.crashHandlerTimeout ≤ 0 ∨
      settings.crashPollInterval ≤ 0 then
    .error (ascii "crash demo intervals must be > 0")
  else
    .ok ()

/-- The part of `Validate` about the limits of the playground. -/
def Settings.validateLimits (settings : Settings) :
    Except GoString Unit :=
  if settings.maxBatch < 1 ∨ 200 < settings.maxBatch then
    .error (ascii "PLAYGROUND_MAX_BATCH must be between 1 and 200")
  else if settings.maxPayloadBytes < 2 ∨
      64 * 1024 < settings.maxPayloadBytes then
    .error (ascii "PLAYGROUND_MAX_PAYLOAD_BYTES must be between 2 and 65536")
  else if settings.maxBodyBytes < settings.maxPayloadBytes ∨
      1048576 < settings.maxBodyBytes then
    .error
      (ascii
        ("PLAYGROUND_MAX_BODY_BYTES must be >= max payload and " ++
          "<= 1 MiB"))
  else if settings.maxPending < 1 ∨ 10000 < settings.maxPending then
    .error (ascii "PLAYGROUND_MAX_PENDING must be between 1 and 10000")
  else if settings.rateLimitPerMinute < 1 ∨
      settings.rateLimitBurst < 1 then
    .error (ascii "PLAYGROUND_RATE_LIMIT_PER_MIN and BURST must be >= 1")
  else if settings.sessionRatePerMinute < 1 ∨
      settings.sessionRateBurst < 1 then
    .error
      (ascii
        ("PLAYGROUND_SESSION_RATE_LIMIT_PER_MIN and BURST must be " ++
          ">= 1"))
  else if settings.readRateLimitPerMin < 1 ∨
      settings.readRateLimitBurst < 1 then
    .error (ascii "PLAYGROUND_READ_RATE_LIMIT_PER_MIN and BURST must be >= 1")
  else if settings.cleanupInterval ≤ 0 ∨ settings.retention ≤ 0 then
    .error
      (ascii
        ("PLAYGROUND_CLEANUP_INTERVAL and PLAYGROUND_TASK_RETENTION " ++
          "must be > 0"))
  else if settings.enableCrashDemo then
    settings.validateCrashDemo
  else
    .ok ()

/-- The part of `Validate` about the worker. -/
def Settings.validateWorker (settings : Settings) :
    Except GoString Unit :=
  if settings.workerPrefix = [] then
    .error (ascii "WORKER_PREFIX must not be empty")
  else if settings.workerCount < 1 ∨ 32 < settings.workerCount then
    .error (ascii "WORKER_COUNT must be between 1 and 32")
  else if settings.pollInterval ≤ 0 ∨ settings.heartbeatInterval ≤ 0 ∨
      settings.handlerTimeout ≤ 0 then
    .error
      (ascii
        ("POLL_INTERVAL, HEARTBEAT_INTERVAL and HANDLER_TIMEOUT must " ++
          "be > 0"))
  else if settings.stuckThreshold ≤ settings.heartbeatInterval then
    .error (ascii "STUCK_THRESHOLD must be greater than HEARTBEAT_INTERVAL")
  else if settings.reaperInterval ≤ 0 ∨
      settings.stuckThreshold < settings.reaperInterval then
    .error (ascii "REAPER_INTERVAL must be > 0 and <= STUCK_THRESHOLD")
  else if settings.baseBackoff ≤ 0 ∨ settings.maxBackoff ≤ 0 ∨
      settings.maxBackoff < settings.baseBackoff then
    .error (ascii "BASE_BACKOFF and MAX_BACKOFF must be > 0 and base <= max")
  else
    settings.validateLimits

/-- The part of `Validate` about the schemas. -/
def Settings.validateSchemas (runtime : Runtime) (settings : Settings) :
    Except GoString Unit :=
  match validateSchema runtime settings.schema with
  | .error cause => .error (ascii "PLAYGROUND_DB_SCHEMA: " ++ cause)
  | .ok () =>
      match validateSchema runtime settings.crashSchema with
      | .error cause =>
          .error (ascii "PLAYGROUND_CRASH_SCHEMA: " ++ cause)
      | .ok () =>
          if settings.schema = settings.crashSchema then
            .error
              (ascii
                ("PLAYGROUND_DB_SCHEMA and PLAYGROUND_CRASH_SCHEMA " ++
                  "must differ"))
          else
            settings.validateWorker

/-- `Validate`. -/
def Settings.validate (runtime : Runtime) (settings : Settings) :
    Except GoString Unit :=
  if settings.databaseURL = [] then
    .error (ascii "DHARA_DATABASE_URL must be set")
  else if settings.maxConns < 1 ∨ settings.minConns < 1 ∨
      settings.maxConns < settings.minConns then
    .error
      (ascii
        ("DHARA_MAX_CONNS and DHARA_MIN_CONNS must be >= 1 and min " ++
          "<= max"))
  else if settings.port ≤ 0 ∨ 65535 < settings.port then
    .error (ascii "PORT must be between 1 and 65535")
  else if settings.shutdownTimeout ≤ 0 then
    .error (ascii "SHUTDOWN_TIMEOUT must be positive")
  else
    settings.validateSchemas runtime

theorem Settings.validateLimits_maxBatch {settings : Settings}
    (valid : settings.validateLimits = .ok ()) :
    1 ≤ settings.maxBatch ∧ settings.maxBatch ≤ 200 := by
  unfold Settings.validateLimits at valid
  split at valid
  · cases valid
  · rename_i inside
    omega

/-- A valid configuration limits a batch by a positive number. -/
theorem Settings.validate_maxBatch
    {runtime : Runtime} {settings : Settings}
    (valid : settings.validate runtime = .ok ()) :
    1 ≤ settings.maxBatch ∧ settings.maxBatch ≤ 200 := by
  have schemas : settings.validateSchemas runtime = .ok () := by
    unfold Settings.validate at valid
    split_ifs at valid
    exact valid
  have worker : settings.validateWorker = .ok () := by
    unfold Settings.validateSchemas at schemas
    split at schemas
    · cases schemas
    · split at schemas
      · cases schemas
      · split at schemas
        · cases schemas
        · exact schemas
  apply Settings.validateLimits_maxBatch
  unfold Settings.validateWorker at worker
  split_ifs at worker
  exact worker

/-- The stock configuration is valid. -/
example :
    ({ databaseURL := ascii "postgres:" } : Settings).validate
      plainRuntime = .ok () := by
  decide +kernel

end Dhara.Playground
