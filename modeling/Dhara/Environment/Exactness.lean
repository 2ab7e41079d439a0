import Dhara.Playground.Config

/-!
# Plain integers in accepted configurations

A duration that is given as a plain integer is multiplied by a second in 64
bits, and the size of a connection pool is narrowed to 32 bits.  Neither is
checked.  The value in use is the given one exactly if the product and the
size fit, up to integers that happen to be mapped to the default.
-/

namespace Dhara.Environment

variable {count : Int}

/-- What is read of a variable, its default, and the value in use. -/
structure Reading where
  text : GoString
  defaultValue : Int
  used : Int

/-- A plain integer is the number of seconds in use, or does not fit. -/
def Reading.ExactSeconds (reading : Reading) : Prop :=
  ∀ count, plainInteger reading.text = some count →
    reading.used = count * second ∨
      ¬ Fits 64 (count * second) ∧ reading.used = reading.defaultValue

/--
The seconds fit, or the integer is none of 64 bits, or its product with a
second is congruent to the default.
-/
def Reading.SafeSeconds (reading : Reading) : Prop :=
  ∀ count, plainInteger reading.text = some count →
    Fits 64 (count * second) ∨ ¬ Fits 64 count ∨
      (2 ^ 64 : Int) ∣ count * second - reading.defaultValue

/-- A plain integer is the size in use, or does not fit. -/
def Reading.ExactSize (reading : Reading) : Prop :=
  ∀ count, plainInteger reading.text = some count →
    reading.used = count ∨
      ¬ Fits 32 count ∧ reading.used = reading.defaultValue

/--
The size fits, or it is none of 64 bits, or its lower 32 bits are no positive
size or that of the default.
-/
def Reading.SafeSize (reading : Reading) : Prop :=
  ∀ count, plainInteger reading.text = some count →
    Fits 32 count ∨ ¬ Fits 64 count ∨ wrap 32 count < 1 ∨
      (2 ^ 32 : Int) ∣ count - reading.defaultValue

/-! ## One variable -/

/-- A duration is read as `getEnvDuration` reads it. -/
structure Reading.Seconds (reading : Reading) : Prop where
  fits : Fits 64 reading.defaultValue
  read :
    ∀ count, plainInteger reading.text = some count →
      reading.used = secondsOr reading.defaultValue count

theorem not_fits_seconds (large : ¬ Fits 64 count) :
    ¬ Fits 64 (count * second) := by
  unfold Fits second at *
  omega

theorem Reading.Seconds.exact_iff
    {reading : Reading} (seconds : reading.Seconds) :
    reading.ExactSeconds ↔ reading.SafeSeconds := by
  apply forall_congr'
  intro count
  apply imp_congr_right
  intro plain
  rw [seconds.read count plain]
  by_cases small : Fits 64 count
  · rw [secondsOr, if_pos small]
    constructor
    · rintro (exact | ⟨_, replaced⟩)
      · left
        rw [← exact]
        exact fits_wrap 64 _
      · exact Or.inr (Or.inr ((wrap_eq_iff seconds.fits).mp replaced))
    · rintro (fits | large | congruent)
      · exact Or.inl (wrap_of_fits fits)
      · exact (large small).elim
      · by_cases fits : Fits 64 (count * second)
        · exact Or.inl (wrap_of_fits fits)
        · exact Or.inr ⟨fits, (wrap_eq_iff seconds.fits).mpr congruent⟩
  · rw [secondsOr, if_neg small]
    constructor
    · intro _
      exact Or.inr (Or.inl small)
    · intro _
      exact Or.inr ⟨not_fits_seconds small, rfl⟩

/-- The size that `Open` makes of a narrowed one. -/
def sizeOr (defaultValue narrowed : Int) : Int :=
  if narrowed < 1 then defaultValue else narrowed

/-- A size is read as `getEnvInt` reads it, narrowed, and then opened. -/
structure Reading.Sizes (reading : Reading) : Prop where
  fits : Fits 32 reading.defaultValue
  positive : 1 ≤ reading.defaultValue
  read :
    ∀ count, plainInteger reading.text = some count →
      reading.used =
        sizeOr reading.defaultValue
          (wrap 32 (if Fits 64 count then count else reading.defaultValue))
  accepted :
    ∀ count, plainInteger reading.text = some count →
      Fits 32 count → 1 ≤ count

theorem fits_wide (fits : Fits 32 count) :
    Fits 64 count := by
  unfold Fits at *
  omega

theorem Reading.Sizes.exact_iff
    {reading : Reading} (sizes : reading.Sizes) :
    reading.ExactSize ↔ reading.SafeSize := by
  apply forall_congr'
  intro count
  apply imp_congr_right
  intro plain
  have positive := sizes.accepted count plain
  rw [sizes.read count plain]
  by_cases small : Fits 64 count
  · rw [if_pos small, sizeOr]
    split_ifs with empty
    · constructor
      · intro _
        exact Or.inr (Or.inr (Or.inl empty))
      · intro _
        refine Or.inr ⟨?_, rfl⟩
        intro fits
        rw [wrap_of_fits fits] at empty
        exact Int.not_lt.mpr (positive fits) empty
    · constructor
      · rintro (exact | ⟨_, replaced⟩)
        · left
          rw [← exact]
          exact fits_wrap 32 _
        · exact Or.inr (Or.inr (Or.inr
            ((wrap_eq_iff sizes.fits).mp replaced)))
      · rintro (fits | large | none | congruent)
        · exact Or.inl (wrap_of_fits fits)
        · exact (large small).elim
        · exact (empty none).elim
        · by_cases fits : Fits 32 count
          · exact Or.inl (wrap_of_fits fits)
          · exact Or.inr ⟨fits, (wrap_eq_iff sizes.fits).mpr congruent⟩
  · rw [if_neg small, wrap_of_fits sizes.fits, sizeOr,
      if_neg (Int.not_lt.mpr sizes.positive)]
    constructor
    · intro _
      exact Or.inr (Or.inl small)
    · intro _
      exact Or.inr ⟨fun fits => small (fits_wide fits), rfl⟩

/-! ## The worker -/

section Readings

variable (fraction : GoString → Nat → Nat) (env : Variables)

/-- The text of a duration is trimmed before it is read as an integer. -/
def durationReading (key : String) (defaultValue used : Int) : Reading :=
  ⟨trimSpace (env key), defaultValue, used⟩

/-- The durations of the worker. -/
def workerDurations : List Reading :=
  let config := newWorkerConfig fraction env
  [durationReading env "POLL_INTERVAL" second config.pollInterval,
    durationReading env "HEARTBEAT_INTERVAL" (30 * second)
      config.heartbeatInterval,
    durationReading env "HANDLER_TIMEOUT" (300 * second)
      config.handlerTimeout,
    durationReading env "STUCK_THRESHOLD" (300 * second)
      config.stuckThreshold,
    durationReading env "REAPER_INTERVAL" (30 * second) config.reaperInterval,
    durationReading env "BASE_BACKOFF" second config.baseBackoff,
    durationReading env "MAX_BACKOFF" (300 * second) config.maxBackoff,
    durationReading env "SHUTDOWN_TIMEOUT" (30 * second)
      (newShutdownConfig fraction env).shutdownTimeout]

/-- The sizes of the connection pool of the worker. -/
def workerSizes : List Reading :=
  let sizes := (newDatabaseConfig env).poolSizes
  [⟨env "DHARA_MAX_CONNS", 10, sizes.1⟩, ⟨env "DHARA_MIN_CONNS", 2, sizes.2⟩]

/-- The durations of the playground. -/
def playgroundDurations : List Reading :=
  let settings := Playground.loadConfigRaw fraction env
  [durationReading env "SHUTDOWN_TIMEOUT" (15 * second)
      settings.shutdownTimeout,
    durationReading env "POLL_INTERVAL" 250000000 settings.pollInterval,
    durationReading env "HEARTBEAT_INTERVAL" (2 * second)
      settings.heartbeatInterval,
    durationReading env "HANDLER_TIMEOUT" (12 * second)
      settings.handlerTimeout,
    durationReading env "STUCK_THRESHOLD" (10 * second)
      settings.stuckThreshold,
    durationReading env "REAPER_INTERVAL" (2 * second)
      settings.reaperInterval,
    durationReading env "BASE_BACKOFF" second settings.baseBackoff,
    durationReading env "MAX_BACKOFF" (30 * second) settings.maxBackoff,
    durationReading env "PLAYGROUND_CLEANUP_INTERVAL" (300 * second)
      settings.cleanupInterval,
    durationReading env "PLAYGROUND_TASK_RETENTION" (3600 * second)
      settings.retention,
    durationReading env "PLAYGROUND_CRASH_DEMO_TIMEOUT" (35 * second)
      settings.crashDemoTimeout,
    durationReading env "PLAYGROUND_CRASH_TASK_DURATION" (6 * second)
      settings.crashTaskDuration,
    durationReading env "PLAYGROUND_CRASH_HEARTBEAT_INTERVAL" second
      settings.crashHeartbeatInterval,
    durationReading env "PLAYGROUND_CRASH_STUCK_THRESHOLD" (4 * second)
      settings.crashStuckThreshold,
    durationReading env "PLAYGROUND_CRASH_REAPER_INTERVAL" second
      settings.crashReaperInterval,
    durationReading env "PLAYGROUND_CRASH_HANDLER_TIMEOUT" (30 * second)
      settings.crashHandlerTimeout,
    durationReading env "PLAYGROUND_CRASH_POLL_INTERVAL" 150000000
      settings.crashPollInterval]

/-- The sizes of the connection pools of the playground. -/
def playgroundSizes : List Reading :=
  let settings := Playground.loadConfigRaw fraction env
  let sizes := openSizes settings.maxConns settings.minConns
  [⟨trimSpace (env "DHARA_MAX_CONNS"), 10, sizes.1⟩,
    ⟨trimSpace (env "DHARA_MIN_CONNS"), 2, sizes.2⟩]

end Readings

section Read

variable {fraction : GoString → Nat → Nat} {env : Variables} {key : String}
  {defaultValue : Int}

theorem seconds_worker
    (fits : Fits 64 defaultValue) :
    (durationReading env key defaultValue
      (getEnvDuration fraction env key defaultValue)).Seconds :=
  ⟨fits, fun _ plain => getEnvDuration_plain plain defaultValue⟩

theorem getEnvDuration_trimmed
    (plain : plainInteger (trimSpace (env key)) = some count)
    (fallback : Int) :
    Playground.getEnvDuration fraction env key fallback =
      secondsOr fallback count := by
  rw [Playground.getEnvDuration, if_pos (ne_nil_of_plain plain)]
  apply seconds_of_plain plain
  have blank : SpaceBytes [] := by
    intro byte member
    cases member
  have parsed :
      parseDuration fraction ([] ++ trimSpace (env key) ++ []) = none ∨
        parseDuration fraction ([] ++ trimSpace (env key) ++ []) =
            some 0 ∧
          count = 0 :=
    parseDuration_plain plain blank blank
  rwa [List.nil_append, List.append_nil] at parsed

theorem seconds_playground
    (fits : Fits 64 defaultValue) :
    (durationReading env key defaultValue
      (Playground.getEnvDuration fraction env key defaultValue)).Seconds :=
  ⟨fits, fun _ plain => getEnvDuration_trimmed plain defaultValue⟩

theorem workerDurations_seconds :
    ∀ reading ∈ workerDurations fraction env, reading.Seconds := by
  simp only [workerDurations, List.forall_mem_cons]
  refine ⟨seconds_worker (by decide), seconds_worker (by decide),
    seconds_worker (by decide), seconds_worker (by decide),
    seconds_worker (by decide), seconds_worker (by decide),
    seconds_worker (by decide), seconds_worker (by decide), ?_⟩
  intro reading member
  cases member

theorem playgroundDurations_seconds :
    ∀ reading ∈ playgroundDurations fraction env, reading.Seconds := by
  simp only [playgroundDurations, List.forall_mem_cons]
  refine ⟨seconds_playground (by decide), seconds_playground (by decide),
    seconds_playground (by decide), seconds_playground (by decide),
    seconds_playground (by decide), seconds_playground (by decide),
    seconds_playground (by decide), seconds_playground (by decide),
    seconds_playground (by decide), seconds_playground (by decide),
    seconds_playground (by decide), seconds_playground (by decide),
    seconds_playground (by decide), seconds_playground (by decide),
    seconds_playground (by decide), seconds_playground (by decide),
    seconds_playground (by decide), ?_⟩
  intro reading member
  cases member

/-- A size that is validated before or after it is narrowed. -/
theorem sizes_narrowed
    {text : GoString} {value : Int} (fits : Fits 32 defaultValue)
    (positive : 1 ≤ defaultValue)
    (read :
      ∀ count, plainInteger text = some count →
        value = if Fits 64 count then count else defaultValue)
    (accepted : 1 ≤ value ∨ 1 ≤ wrap 32 value) :
    Reading.Sizes
      ⟨text, defaultValue, sizeOr defaultValue (wrap 32 value)⟩ where
  fits := fits
  positive := positive
  read := by
    intro count plain
    rw [← read count plain]
  accepted := by
    intro count plain small
    have same : value = count := by
      rw [read count plain, if_pos (fits_wide small)]
    rw [same, wrap_of_fits small] at accepted
    exact accepted.elim id id

theorem workerSizes_sizes
    (valid : (newDatabaseConfig env).validate = .ok ()) :
    ∀ reading ∈ workerSizes env, reading.Sizes := by
  rcases check_passed valid with ⟨_, valid⟩
  rcases check_passed valid with ⟨most, valid⟩
  rcases check_passed valid with ⟨least, _⟩
  simp only [workerSizes, List.forall_mem_cons]
  refine ⟨sizes_narrowed (by decide) (by decide) ?_
      (Or.inl (Int.not_lt.mp most)),
    sizes_narrowed (by decide) (by decide) ?_
      (Or.inl (Int.not_lt.mp least)), ?_⟩
  · intro count plain
    exact getEnvInt_plain plain 10
  · intro count plain
    exact getEnvInt_plain plain 2
  · intro reading member
    cases member

theorem getEnvInt_trimmed
    (plain : plainInteger (trimSpace (env key)) = some count)
    (fallback : Int) :
    Playground.getEnvInt env key fallback =
      if Fits 64 count then count else fallback := by
  rw [Playground.getEnvInt, if_pos (ne_nil_of_plain plain), atoi_plain plain]
  by_cases fits : Fits 64 count <;> simp [fits]

theorem playgroundSizes_sizes
    {runtime : Playground.Runtime}
    (valid :
      (Playground.loadConfigRaw fraction env).validate runtime = .ok ()) :
    ∀ reading ∈ playgroundSizes fraction env, reading.Sizes := by
  rcases check_passed valid with ⟨_, valid⟩
  rcases check_passed valid with ⟨sized, _⟩
  rw [not_or, not_or] at sized
  rcases sized with ⟨most, least, _⟩
  simp only [playgroundSizes, List.forall_mem_cons]
  refine ⟨sizes_narrowed (by decide) (by decide) ?_
      (Or.inr (Int.not_lt.mp most)),
    sizes_narrowed (by decide) (by decide) ?_
      (Or.inr (Int.not_lt.mp least)), ?_⟩
  · intro count plain
    exact getEnvInt_trimmed plain 10
  · intro count plain
    exact getEnvInt_trimmed plain 2
  · intro reading member
    cases member

end Read

/-! ## Accepted configurations -/

/--
In a configuration that the worker or the playground accepts, a duration or a
size of a connection pool that is given as a plain integer is used exactly, or
replaced by its default, if and only if it is safe.
-/
theorem accepted_numbers_exact_iff
    (fraction : GoString → Nat → Nat) (format : Int → GoString)
    (runtime : Playground.Runtime) (env : Variables) :
    ((newDatabaseConfig env).validate = .ok () →
      (newWorkerConfig fraction env).validate format = .ok () →
        (∀ reading ∈ workerDurations fraction env,
          reading.ExactSeconds ↔ reading.SafeSeconds) ∧
        ∀ reading ∈ workerSizes env, reading.ExactSize ↔ reading.SafeSize) ∧
    ((Playground.loadConfigRaw fraction env).validate runtime = .ok () →
      (∀ reading ∈ playgroundDurations fraction env,
        reading.ExactSeconds ↔ reading.SafeSeconds) ∧
      ∀ reading ∈ playgroundSizes fraction env,
        reading.ExactSize ↔ reading.SafeSize) := by
  constructor
  · intro database _
    constructor
    · intro reading member
      exact (workerDurations_seconds reading member).exact_iff
    · intro reading member
      exact (workerSizes_sizes database reading member).exact_iff
  · intro valid
    constructor
    · intro reading member
      exact (playgroundDurations_seconds reading member).exact_iff
    · intro reading member
      exact (playgroundSizes_sizes valid reading member).exact_iff

/-- An environment with a timeout and a size of the pool. -/
def givenVariables (timeout conns : String) : Variables := fun key =>
  if key = "DHARA_DATABASE_URL" then ascii "postgres:"
  else if key = "HANDLER_TIMEOUT" then ascii timeout
  else if key = "DHARA_MAX_CONNS" then ascii conns
  else []

/-- Centuries are 290 ms as a timeout, and 2^32 + 4 connections are 4. -/
theorem huge_numbers_wrapped :
    let env := givenVariables "18446744074" "4294967300"
    let fraction : GoString → Nat → Nat := fun _ _ => 0
    (newDatabaseConfig env).validate = .ok () ∧
      (newWorkerConfig fraction env).validate (fun _ => []) = .ok () ∧
      (newWorkerConfig fraction env).handlerTimeout = 290448384 ∧
      (newDatabaseConfig env).poolSizes = (4, 2) ∧
      (Playground.loadConfigRaw fraction env).validate
          Playground.plainRuntime = .ok () ∧
      (Playground.loadConfigRaw fraction env).handlerTimeout = 290448384 ∧
      (Playground.loadConfigRaw fraction env).maxConns = 4 := by
  decide +kernel

/-- A timeout and a size of ordinary magnitude are used as they are given. -/
theorem ordinary_numbers_exact :
    let env := givenVariables "600" "20"
    let fraction : GoString → Nat → Nat := fun _ _ => 0
    (durationReading env "HANDLER_TIMEOUT" (300 * second)
        (newWorkerConfig fraction env).handlerTimeout).ExactSeconds ∧
      (⟨env "DHARA_MAX_CONNS", 10, (newDatabaseConfig env).poolSizes.1⟩ :
        Reading).ExactSize ∧
      (durationReading env "HANDLER_TIMEOUT" (12 * second)
        (Playground.loadConfigRaw fraction env).handlerTimeout).ExactSeconds
      := by
  intro env fraction
  have exact :=
    accepted_numbers_exact_iff fraction (fun _ => [])
      Playground.plainRuntime env
  have worker := exact.1 (by decide +kernel) (by decide +kernel)
  have playground := exact.2 (by decide +kernel)
  have timeout : plainInteger (trimSpace (env "HANDLER_TIMEOUT")) =
      some 600 := by
    decide +kernel
  have conns : plainInteger (env "DHARA_MAX_CONNS") = some 20 := by
    decide +kernel
  refine ⟨?_, ?_, ?_⟩
  · apply (worker.1 _ (by simp [workerDurations])).mpr
    intro count plain
    cases timeout.symm.trans plain
    exact Or.inl (by decide)
  · apply (worker.2 _ (by simp [workerSizes])).mpr
    intro count plain
    cases conns.symm.trans plain
    exact Or.inl (by decide)
  · apply (playground.1 _ (by simp [playgroundDurations])).mpr
    intro count plain
    cases timeout.symm.trans plain
    exact Or.inl (by decide)

end Dhara.Environment
