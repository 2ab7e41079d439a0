import Dhara.Text
import Mathlib.Data.Rat.Floor
import Mathlib.Tactic.FieldSimp
import Mathlib.Tactic.Linarith
import Mathlib.Tactic.Positivity

/-!
# The rate limiter of the playground

Every key has a bucket of tokens that fills at a fixed rate up to the burst,
and an allowed call takes one token.  From time to time the limiter forgets
the buckets that were idle for longer than a window, so that their keys start
again with a full bucket.

Tokens and rates are rationals, and instants are nanoseconds.
-/

namespace Dhara.Playground

/-- A point in time, in nanoseconds. -/
abbrev Instant := Int

/-- `bucket`. -/
structure Bucket where
  tokens : ℚ
  last : Instant
  lastSeen : Instant

/-- `RateLimiter`.  The zero time of `lastGC` is a missing one. -/
structure RateLimiter where
  buckets : GoString → Option Bucket
  rate : ℚ
  burst : ℚ
  lastGC : Option Instant
  gcWindow : Int

/-- `NewRateLimiter`. -/
def newRateLimiter (perMinute burst : Int) : RateLimiter where
  buckets := fun _ => none
  rate := ((if perMinute < 1 then 1 else perMinute : Int) : ℚ) / 60
  burst := ((if burst < 1 then 1 else burst : Int) : ℚ)
  lastGC := none
  gcWindow := 600 * second

/-- The seconds between two instants. -/
def seconds (earlier later : Instant) : ℚ :=
  ((later - earlier : Int) : ℚ) / second

/-- The tokens that `Allow` adds before it decides. -/
def Bucket.refill (limiter : RateLimiter) (now : Instant)
    (bucket : Bucket) : Bucket :=
  if 0 < seconds bucket.last now then
    let tokens := bucket.tokens + seconds bucket.last now * limiter.rate
    { bucket with
      tokens := if limiter.burst < tokens then limiter.burst else tokens
      last := now }
  else
    bucket

/-- `gcLocked`. -/
def RateLimiter.gcLocked (limiter : RateLimiter) (now : Instant) :
    RateLimiter :=
  match limiter.lastGC with
  | none => { limiter with lastGC := some now }
  | some lastGC =>
      if now - lastGC < limiter.gcWindow then
        limiter
      else
        { limiter with
          buckets := fun key =>
            (limiter.buckets key).filter fun bucket =>
              now - bucket.lastSeen ≤ limiter.gcWindow
          lastGC := some now }

/-- What `Allow` returns. -/
structure Verdict where
  allowed : Bool
  wait : Int
deriving DecidableEq

/-- The wait that `Allow` returns for a level below one token. -/
def RateLimiter.wait (limiter : RateLimiter) (tokens : ℚ) : Int :=
  let wait := ⌊(1 - tokens) / limiter.rate * second⌋
  if wait < second then second else wait

/-- The bucket that `Allow` finds or creates, refilled. -/
def RateLimiter.bucketAt (limiter : RateLimiter) (key : GoString)
    (now : Instant) : Bucket :=
  ((limiter.buckets key).getD
    { tokens := limiter.burst, last := now, lastSeen := now }).refill
      limiter now

/-- The limiter with a bucket in its place. -/
def RateLimiter.put (limiter : RateLimiter) (key : GoString)
    (bucket : Bucket) : RateLimiter :=
  { limiter with
    buckets := fun other =>
      if other = key then some bucket else limiter.buckets other }

/-- `Allow`. -/
def RateLimiter.allow (limiter : RateLimiter) (key : GoString)
    (now : Instant) : Verdict × RateLimiter :=
  let limiter := limiter.gcLocked now
  let bucket : Bucket :=
    { limiter.bucketAt key now with lastSeen := now }
  if bucket.tokens < 1 then
    (⟨false, limiter.wait bucket.tokens⟩, limiter.put key bucket)
  else
    (⟨true, 0⟩, limiter.put key { bucket with tokens := bucket.tokens - 1 })

/-- A call of `Allow`. -/
structure Visit where
  key : GoString
  now : Instant

/-- The limiter after some calls. -/
def RateLimiter.after (limiter : RateLimiter) (visits : List Visit) :
    RateLimiter :=
  visits.foldl (fun limiter visit => (limiter.allow visit.key visit.now).2)
    limiter

/-- The call is allowed for the key and falls into the window. -/
def RateLimiter.admits (limiter : RateLimiter) (key : GoString)
    (start finish : ℚ) (visit : Visit) : Bool :=
  visit.key = key ∧ start ≤ visit.now ∧ visit.now ≤ finish ∧
    (limiter.allow visit.key visit.now).1.allowed = true

/-- The number of calls for the key that are allowed in the window. -/
def RateLimiter.admitted (key : GoString) (start finish : ℚ) :
    RateLimiter → List Visit → Nat
  | _, [] => 0
  | limiter, visit :: rest =>
      (if limiter.admits key start finish visit then 1 else 0) +
        RateLimiter.admitted key start finish
          (limiter.allow visit.key visit.now).2 rest

/-- The clock of the calls does not go back. -/
def Ordered (visits : List Visit) : Prop :=
  visits.Pairwise fun first second => first.now ≤ second.now

theorem Ordered.exists_clock {visits : List Visit}
    (ordered : Ordered visits) :
    ∃ clock, ∀ visit ∈ visits, clock ≤ visit.now := by
  cases visits with
  | nil => exact ⟨0, by simp⟩
  | cons first rest =>
      rw [Ordered, List.pairwise_cons] at ordered
      refine ⟨first.now, ?_⟩
      intro visit member
      rw [List.mem_cons] at member
      rcases member with same | later
      · rw [same]
      · exact ordered.1 visit later

/-! ## The level of a key -/

/-- The tokens that a call of the key would find, without the removal. -/
def RateLimiter.level (limiter : RateLimiter) (key : GoString)
    (now : Instant) : ℚ :=
  (limiter.bucketAt key now).tokens

/-- The settings, and buckets that were used up to an instant. -/
structure RateLimiter.Sound (limiter : RateLimiter) (clock : Instant) :
    Prop where
  rate : 0 < limiter.rate
  burst : 1 ≤ limiter.burst
  bucket :
    ∀ key bucket, limiter.buckets key = some bucket →
      0 ≤ bucket.tokens ∧ bucket.tokens ≤ limiter.burst ∧
        bucket.last = bucket.lastSeen ∧ bucket.last ≤ clock

section Level

variable {limiter : RateLimiter} {clock now : Instant} {key : GoString}

theorem seconds_nonneg {earlier later : Instant} (ordered : earlier ≤ later) :
    0 ≤ seconds earlier later := by
  rw [seconds]
  have difference : (0 : ℚ) ≤ ((later - earlier : Int) : ℚ) := by
    exact_mod_cast Int.sub_nonneg.mpr ordered
  exact div_nonneg difference (by norm_num [second])

theorem seconds_add (first middle last : Instant) :
    seconds first middle + seconds middle last = seconds first last := by
  simp only [seconds]
  push_cast
  ring

@[simp]
theorem seconds_self (now : Instant) : seconds now now = 0 := by
  simp [seconds]

/-- A refilled bucket has what has flowed in, up to the burst. -/
theorem Bucket.refill_tokens {bucket : Bucket}
    (full : bucket.tokens ≤ limiter.burst) (ordered : bucket.last ≤ now) :
    (bucket.refill limiter now).tokens =
      min limiter.burst
        (bucket.tokens + seconds bucket.last now * limiter.rate) := by
  rw [Bucket.refill]
  have elapsed := seconds_nonneg ordered
  split_ifs with positive
  · simp only
    split_ifs with exceeds
    · rw [min_eq_left exceeds.le]
    · rw [min_eq_right (not_lt.mp exceeds)]
  · have none : seconds bucket.last now = 0 :=
      le_antisymm (not_lt.mp positive) elapsed
    rw [none, zero_mul, add_zero, min_eq_right full]

theorem Bucket.refill_last {bucket : Bucket} (ordered : bucket.last ≤ now) :
    (bucket.refill limiter now).last = now := by
  rw [Bucket.refill]
  split_ifs with positive
  · rfl
  · have none : seconds bucket.last now = 0 :=
      le_antisymm (not_lt.mp positive) (seconds_nonneg ordered)
    rw [seconds, div_eq_zero_iff] at none
    rcases none with same | impossible
    · have equal : now - bucket.last = 0 := by exact_mod_cast same
      exact (Int.eq_of_sub_eq_zero equal).symm
    · norm_num [second] at impossible

/-- The level of a key without a bucket. -/
theorem RateLimiter.level_of_none (missing : limiter.buckets key = none) :
    limiter.level key now = limiter.burst := by
  simp [RateLimiter.level, RateLimiter.bucketAt, missing, Bucket.refill]

/-- The level of a key with a bucket. -/
theorem RateLimiter.Sound.level_of_some (sound : limiter.Sound clock)
    (ordered : clock ≤ now) {bucket : Bucket}
    (found : limiter.buckets key = some bucket) :
    limiter.level key now =
      min limiter.burst
        (bucket.tokens + seconds bucket.last now * limiter.rate) := by
  rcases sound.bucket key bucket found with ⟨_, full, _, used⟩
  rw [RateLimiter.level, RateLimiter.bucketAt, found, Option.getD_some,
    Bucket.refill_tokens full (used.trans ordered)]

theorem RateLimiter.Sound.level_le_burst (sound : limiter.Sound clock)
    (ordered : clock ≤ now) (key : GoString) :
    limiter.level key now ≤ limiter.burst := by
  cases found : limiter.buckets key with
  | none => rw [RateLimiter.level_of_none found]
  | some bucket =>
      rw [sound.level_of_some ordered found]
      exact min_le_left _ _

theorem RateLimiter.Sound.level_nonneg (sound : limiter.Sound clock)
    (ordered : clock ≤ now) (key : GoString) :
    0 ≤ limiter.level key now := by
  have burst := sound.burst
  cases found : limiter.buckets key with
  | none =>
      rw [RateLimiter.level_of_none found]
      linarith
  | some bucket =>
      rcases sound.bucket key bucket found with ⟨tokens, _, _, used⟩
      have inflow : 0 ≤ seconds bucket.last now * limiter.rate :=
        mul_nonneg (seconds_nonneg (used.trans ordered)) sound.rate.le
      rw [sound.level_of_some ordered found]
      exact le_min (by linarith) (by linarith)

/-- The level does not grow faster than the rate. -/
theorem RateLimiter.Sound.level_le_add (sound : limiter.Sound clock)
    {earlier : Instant} (reached : clock ≤ earlier)
    (ordered : earlier ≤ now) (key : GoString) :
    limiter.level key now ≤
      limiter.level key earlier + seconds earlier now * limiter.rate := by
  have inflow : 0 ≤ seconds earlier now * limiter.rate :=
    mul_nonneg (seconds_nonneg ordered) sound.rate.le
  cases found : limiter.buckets key with
  | none =>
      rw [RateLimiter.level_of_none found, RateLimiter.level_of_none found]
      linarith
  | some bucket =>
      rw [sound.level_of_some (reached.trans ordered) found,
        sound.level_of_some reached found, min_add,
        ← seconds_add bucket.last earlier now]
      apply min_le_min
      · linarith
      · linarith

/-! ## One call -/

/-- The removal keeps a bucket, or drops it after its idle window. -/
theorem RateLimiter.gcLocked_cases (limiter : RateLimiter) (now : Instant)
    (key : GoString) :
    (limiter.gcLocked now).buckets key = limiter.buckets key ∨
      ∃ bucket,
        limiter.buckets key = some bucket ∧
          limiter.gcWindow < now - bucket.lastSeen ∧
          (limiter.gcLocked now).buckets key = none := by
  rw [RateLimiter.gcLocked]
  split
  · exact Or.inl rfl
  · split_ifs with early
    · exact Or.inl rfl
    · cases found : limiter.buckets key with
      | none => exact Or.inl (by simp [found])
      | some bucket =>
          by_cases fresh : now - bucket.lastSeen ≤ limiter.gcWindow
          · exact Or.inl (by simp [found, Option.filter, fresh])
          · refine Or.inr ⟨bucket, rfl, not_le.mp fresh, ?_⟩
            simp [found, Option.filter, fresh]

@[simp]
theorem RateLimiter.gcLocked_rate :
    (limiter.gcLocked now).rate = limiter.rate := by
  rw [RateLimiter.gcLocked]
  split
  · rfl
  · split_ifs <;> rfl

@[simp]
theorem RateLimiter.gcLocked_burst :
    (limiter.gcLocked now).burst = limiter.burst := by
  rw [RateLimiter.gcLocked]
  split
  · rfl
  · split_ifs <;> rfl

@[simp]
theorem RateLimiter.gcLocked_gcWindow :
    (limiter.gcLocked now).gcWindow = limiter.gcWindow := by
  rw [RateLimiter.gcLocked]
  split
  · rfl
  · split_ifs <;> rfl

theorem RateLimiter.Sound.gcLocked (sound : limiter.Sound clock)
    (now : Instant) : (limiter.gcLocked now).Sound clock where
  rate := by
    rw [RateLimiter.gcLocked_rate]
    exact sound.rate
  burst := by
    rw [RateLimiter.gcLocked_burst]
    exact sound.burst
  bucket := by
    intro key bucket found
    rw [RateLimiter.gcLocked_burst]
    rcases limiter.gcLocked_cases now key with same | ⟨_, _, _, gone⟩
    · exact sound.bucket key bucket (same ▸ found)
    · rw [gone] at found
      cases found

/-- The tokens that a call of the key finds. -/
def RateLimiter.found (limiter : RateLimiter) (key : GoString)
    (now : Instant) : ℚ :=
  (limiter.gcLocked now).level key now

/-- The bucket that a call leaves. -/
theorem RateLimiter.Sound.allow_buckets (sound : limiter.Sound clock)
    (ordered : clock ≤ now) (key other : GoString) :
    (limiter.allow key now).2.buckets other =
      if other = key then
        some
          { tokens :=
              if limiter.found key now < 1 then limiter.found key now
              else limiter.found key now - 1
            last := now
            lastSeen := now }
      else
        (limiter.gcLocked now).buckets other := by
  have last : ((limiter.gcLocked now).bucketAt key now).last = now := by
    rw [RateLimiter.bucketAt]
    apply Bucket.refill_last
    cases found : (limiter.gcLocked now).buckets key with
    | none => exact le_rfl
    | some bucket =>
        exact ((sound.gcLocked now).bucket key bucket found).2.2.2.trans
          ordered
  simp only [RateLimiter.allow, RateLimiter.found, RateLimiter.level]
  split_ifs with denied same same
  · subst same
    simp [RateLimiter.put, last, denied]
  · simp [RateLimiter.put, same]
  · subst same
    simp [RateLimiter.put, last, denied]
  · simp [RateLimiter.put, same]

/-- A call is allowed if it finds a token. -/
theorem RateLimiter.allow_allowed (limiter : RateLimiter) (key : GoString)
    (now : Instant) :
    (limiter.allow key now).1.allowed = true ↔ 1 ≤ limiter.found key now := by
  simp only [RateLimiter.allow, RateLimiter.found, RateLimiter.level]
  split_ifs with denied
  · simpa using denied
  · simpa using denied

@[simp]
theorem RateLimiter.allow_rate :
    (limiter.allow key now).2.rate = limiter.rate := by
  simp only [RateLimiter.allow]
  split_ifs <;> simp [RateLimiter.put]

@[simp]
theorem RateLimiter.allow_burst :
    (limiter.allow key now).2.burst = limiter.burst := by
  simp only [RateLimiter.allow]
  split_ifs <;> simp [RateLimiter.put]

@[simp]
theorem RateLimiter.allow_gcWindow :
    (limiter.allow key now).2.gcWindow = limiter.gcWindow := by
  simp only [RateLimiter.allow]
  split_ifs <;> simp [RateLimiter.put]

section

variable (sound : limiter.Sound clock)
  (ordered : clock ≤ now)

include sound ordered

theorem RateLimiter.Sound.found_nonneg (key : GoString) :
    0 ≤ limiter.found key now :=
  (sound.gcLocked now).level_nonneg ordered key

theorem RateLimiter.Sound.found_le_burst (key : GoString) :
    limiter.found key now ≤ limiter.burst := by
  have bounded := (sound.gcLocked now).level_le_burst ordered key
  rwa [RateLimiter.gcLocked_burst] at bounded

theorem RateLimiter.Sound.allow (key : GoString) :
    (limiter.allow key now).2.Sound now where
  rate := by
    rw [RateLimiter.allow_rate]
    exact sound.rate
  burst := by
    rw [RateLimiter.allow_burst]
    exact sound.burst
  bucket := by
    intro other bucket found
    rw [RateLimiter.allow_burst]
    rw [sound.allow_buckets ordered] at found
    split_ifs at found with same denied
    · cases found
      exact ⟨sound.found_nonneg ordered key,
        sound.found_le_burst ordered key, rfl, le_rfl⟩
    · cases found
      have bounded := sound.found_le_burst ordered key
      refine ⟨?_, ?_, rfl, le_rfl⟩
      · simp only
        linarith
      · simp only
        linarith
    · have kept := (sound.gcLocked now).bucket other bucket found
      rw [RateLimiter.gcLocked_burst] at kept
      exact ⟨kept.1, kept.2.1, kept.2.2.1, kept.2.2.2.trans ordered⟩

/-- The level of the key right after its call. -/
theorem RateLimiter.Sound.level_allow (key : GoString) :
    (limiter.allow key now).2.level key now =
      if (limiter.allow key now).1.allowed then limiter.found key now - 1
      else limiter.found key now := by
  have next := sound.allow ordered key
  have stored := sound.allow_buckets ordered key key
  rw [if_pos rfl] at stored
  rw [next.level_of_some le_rfl stored, RateLimiter.allow_burst,
    seconds_self, zero_mul, add_zero]
  have bounded := sound.found_le_burst ordered key
  have allowed := limiter.allow_allowed key now
  by_cases denied : limiter.found key now < 1
  · have refused : ¬ (limiter.allow key now).1.allowed = true := by
      rw [allowed]
      linarith
    rw [if_pos denied, if_neg refused, min_eq_right bounded]
  · rw [if_neg denied, if_pos (allowed.mpr (not_lt.mp denied)),
      min_eq_right (by linarith)]

theorem RateLimiter.Sound.mono : limiter.Sound now where
  rate := sound.rate
  burst := sound.burst
  bucket := by
    intro key bucket found
    have used := sound.bucket key bucket found
    exact ⟨used.1, used.2.1, used.2.2.1, used.2.2.2.trans ordered⟩

end

/-- The level depends on the settings and on the bucket of the key. -/
theorem RateLimiter.level_congr {first second : RateLimiter}
    (rate : first.rate = second.rate) (burst : first.burst = second.burst)
    (bucket : first.buckets key = second.buckets key) :
    first.level key now = second.level key now := by
  simp only [RateLimiter.level, RateLimiter.bucketAt, Bucket.refill, rate,
    burst, bucket]

/-- A call of another key leaves what the removal has left. -/
theorem RateLimiter.Sound.level_allow_other (sound : limiter.Sound clock)
    (ordered : clock ≤ now) {key other : GoString} (apart : key ≠ other) :
    (limiter.allow other now).2.level key now = limiter.found key now := by
  apply RateLimiter.level_congr
  · rw [RateLimiter.allow_rate, RateLimiter.gcLocked_rate]
  · rw [RateLimiter.allow_burst, RateLimiter.gcLocked_burst]
  · rw [sound.allow_buckets ordered, if_neg apart]

/-- An idle window fills a bucket. -/
def RateLimiter.Refills (limiter : RateLimiter) : Prop :=
  limiter.burst ≤ seconds 0 (limiter.gcWindow + 1) * limiter.rate

theorem RateLimiter.Refills.allow (refills : limiter.Refills)
    (key : GoString) (now : Instant) :
    (limiter.allow key now).2.Refills := by
  rw [RateLimiter.Refills, RateLimiter.allow_burst,
    RateLimiter.allow_gcWindow, RateLimiter.allow_rate]
  exact refills

/-- If an idle window fills a bucket, the removal changes no level. -/
theorem RateLimiter.Sound.found_eq_level (sound : limiter.Sound clock)
    (ordered : clock ≤ now) (refills : limiter.Refills) (key : GoString) :
    limiter.found key now = limiter.level key now := by
  rcases limiter.gcLocked_cases now key with
    same | ⟨bucket, found, idle, gone⟩
  · exact RateLimiter.level_congr RateLimiter.gcLocked_rate
      RateLimiter.gcLocked_burst same
  · rcases sound.bucket key bucket found with ⟨tokens, _, seen, used⟩
    rw [RateLimiter.found, RateLimiter.level_of_none gone,
      RateLimiter.gcLocked_burst, sound.level_of_some ordered found]
    have longer :
        seconds 0 (limiter.gcWindow + 1) ≤ seconds bucket.last now := by
      have window : limiter.gcWindow + 1 - 0 ≤ now - bucket.last := by
        rw [seen]
        rw [Int.sub_zero]
        exact Int.add_one_le_iff.mpr idle
      rw [seconds, seconds]
      apply div_le_div_of_nonneg_right
      · exact_mod_cast window
      · norm_num [second]
    have inflow := mul_le_mul_of_nonneg_right longer sound.rate.le
    rw [RateLimiter.Refills] at refills
    rw [min_eq_left (by linarith)]

end Level

/-! ## Windows -/

section Windows

variable {limiter : RateLimiter} {clock : Instant} {key : GoString}
  {start finish : ℚ} {visits : List Visit}

/-- The rational seconds from an instant to the end of a window. -/
def secondsUntil (finish : ℚ) (now : Instant) : ℚ :=
  (finish - now) / second

theorem secondsUntil_eq (finish : ℚ) (earlier later : Instant) :
    secondsUntil finish earlier =
      seconds earlier later + secondsUntil finish later := by
  simp only [secondsUntil, seconds]
  push_cast
  ring

theorem secondsUntil_nonneg {now : Instant} (inside : (now : ℚ) ≤ finish) :
    0 ≤ secondsUntil finish now := by
  rw [secondsUntil]
  exact div_nonneg (by linarith) (by norm_num [second])

/-- After the end of the window no call counts. -/
theorem admitted_late (limiter : RateLimiter) (key : GoString)
    (start : ℚ) {visit : Visit} {rest : List Visit}
    (late : ¬ (visit.now : ℚ) ≤ finish)
    (ordered : Ordered (visit :: rest)) :
    RateLimiter.admitted key start finish limiter (visit :: rest) = 0 := by
  induction rest generalizing limiter visit with
  | nil => simp [RateLimiter.admitted, RateLimiter.admits, late]
  | cons next rest induction =>
      rw [Ordered, List.pairwise_cons] at ordered
      have after : (visit.now : ℚ) ≤ next.now := by
        exact_mod_cast ordered.1 next List.mem_cons_self
      have nextLate : ¬ (next.now : ℚ) ≤ finish :=
        fun inside => late (after.trans inside)
      rw [RateLimiter.admitted, induction _ nextLate ordered.2]
      simp [RateLimiter.admits, late]

/--
From an instant of the window on, no more calls are allowed than there are
tokens and inflow until its end.
-/
theorem admitted_inside (key : GoString) (start : ℚ)
    (refills : limiter.Refills)
    (sound : limiter.Sound clock) (inside : (clock : ℚ) ≤ finish)
    (later : ∀ visit ∈ visits, clock ≤ visit.now)
    (ordered : Ordered visits) :
    (RateLimiter.admitted key start finish limiter visits : ℚ) ≤
      limiter.level key clock + secondsUntil finish clock * limiter.rate := by
  induction visits generalizing limiter clock with
  | nil =>
      have level := sound.level_nonneg le_rfl key
      have inflow := mul_nonneg (secondsUntil_nonneg inside) sound.rate.le
      simp only [RateLimiter.admitted, Nat.cast_zero]
      linarith
  | cons visit rest induction =>
      have reached := later visit List.mem_cons_self
      have sorted := ordered
      rw [Ordered, List.pairwise_cons] at ordered
      by_cases within : (visit.now : ℚ) ≤ finish
      · have bound :=
          induction (refills.allow visit.key visit.now)
            (sound.allow reached visit.key) within ordered.1 ordered.2
        have found := sound.found_eq_level reached refills key
        have growth := sound.level_le_add le_rfl reached key
        rw [RateLimiter.allow_rate] at bound
        rw [RateLimiter.admitted,
          secondsUntil_eq finish clock visit.now, add_mul]
        push_cast
        by_cases own : visit.key = key
        · subst own
          rw [sound.level_allow reached] at bound
          split_ifs at bound with allowed
          · have one :
                (if limiter.admits visit.key start finish visit then 1
                  else 0 : ℚ) ≤ 1 := by
              split_ifs <;> norm_num
            linarith
          · have none :
                limiter.admits visit.key start finish visit = false := by
              simp [RateLimiter.admits, allowed]
            rw [none]
            simp only [Bool.false_eq_true, if_false]
            linarith
        · have none : limiter.admits key start finish visit = false := by
            simp [RateLimiter.admits, own]
          rw [sound.level_allow_other reached (Ne.symm own)] at bound
          rw [none]
          simp only [Bool.false_eq_true, if_false]
          linarith
      · have late :=
          admitted_late limiter key start within sorted
        have level := sound.level_nonneg le_rfl key
        have inflow := mul_nonneg (secondsUntil_nonneg inside) sound.rate.le
        rw [late, Nat.cast_zero]
        linarith

/-- The bound of a window, from any instant before it or in it. -/
theorem admitted_le (key : GoString) (refills : limiter.Refills)
    (sound : limiter.Sound clock) (window : start ≤ finish)
    (later : ∀ visit ∈ visits, clock ≤ visit.now)
    (ordered : Ordered visits) :
    (RateLimiter.admitted key start finish limiter visits : ℚ) ≤
      limiter.burst + (finish - start) / second * limiter.rate := by
  induction visits generalizing limiter clock with
  | nil =>
      have burst := sound.burst
      have inflow : 0 ≤ (finish - start) / second * limiter.rate :=
        mul_nonneg (div_nonneg (by linarith) (by norm_num [second]))
          sound.rate.le
      simp only [RateLimiter.admitted, Nat.cast_zero]
      linarith
  | cons visit rest induction =>
      have reached := later visit List.mem_cons_self
      have sorted := ordered
      rw [Ordered, List.pairwise_cons] at ordered
      by_cases early : (visit.now : ℚ) < start
      · have bound :=
          induction (refills.allow visit.key visit.now)
            (sound.allow reached visit.key) ordered.1 ordered.2
        rw [RateLimiter.allow_rate, RateLimiter.allow_burst] at bound
        have none : limiter.admits key start finish visit = false := by
          simp [RateLimiter.admits, early]
        rw [RateLimiter.admitted, none]
        simpa using bound
      · by_cases within : (visit.now : ℚ) ≤ finish
        · have bound :=
            admitted_inside key start refills (sound.mono reached) within
              (fun other member => by
                rw [List.mem_cons] at member
                rcases member with same | member
                · rw [same]
                · exact ordered.1 other member)
              sorted
          have level := sound.level_le_burst reached key
          have shorter :
              secondsUntil finish visit.now ≤ (finish - start) / second := by
            rw [secondsUntil]
            apply div_le_div_of_nonneg_right
            · linarith
            · norm_num [second]
          have inflow := mul_le_mul_of_nonneg_right shorter sound.rate.le
          linarith
        · have burst := sound.burst
          have inflow : 0 ≤ (finish - start) / second * limiter.rate :=
            mul_nonneg (div_nonneg (by linarith) (by norm_num [second]))
              sound.rate.le
          rw [admitted_late limiter key start within sorted, Nat.cast_zero]
          linarith

end Windows

theorem newRateLimiter_sound (perMinute burst : Int) (clock : Instant) :
    (newRateLimiter perMinute burst).Sound clock where
  rate := by
    simp only [newRateLimiter]
    have positive : 0 < (if perMinute < 1 then 1 else perMinute : Int) := by
      split_ifs <;> omega
    have cast : (0 : ℚ) <
        ((if perMinute < 1 then 1 else perMinute : Int) : ℚ) := by
      exact_mod_cast positive
    positivity
  burst := by
    simp only [newRateLimiter]
    have positive : 1 ≤ (if burst < 1 then 1 else burst : Int) := by
      split_ifs <;> omega
    exact_mod_cast positive
  bucket := by
    intro key bucket found
    cases found

/-! ## A forgotten bucket -/

section Batches

variable {limiter : RateLimiter} {clock now : Instant} {key : GoString}

/-- Right after its call the bucket of a key is not removed. -/
theorem RateLimiter.Sound.found_again (sound : limiter.Sound clock)
    (ordered : clock ≤ now) (window : 0 ≤ limiter.gcWindow) :
    (limiter.allow key now).2.found key now =
      (limiter.allow key now).2.level key now := by
  have stored := sound.allow_buckets ordered key key
  rw [if_pos rfl] at stored
  rcases (limiter.allow key now).2.gcLocked_cases now key with
    same | ⟨bucket, found, idle, _⟩
  · exact RateLimiter.level_congr RateLimiter.gcLocked_rate
      RateLimiter.gcLocked_burst same
  · rw [stored] at found
    cases found
    rw [RateLimiter.allow_gcWindow] at idle
    simp only [sub_self] at idle
    exact absurd window (not_le.mpr idle)

/-- As many calls at one instant are allowed as there are tokens. -/
theorem admitted_batch (key : GoString) (start finish : ℚ)
    (sound : limiter.Sound clock) (ordered : clock ≤ now)
    (window : 0 ≤ limiter.gcWindow) (begun : start ≤ now)
    (inside : now ≤ finish) (rest : List Visit) (count : Nat)
    (enough : (count : ℚ) ≤ limiter.found key now) :
    RateLimiter.admitted key start finish limiter
        (List.replicate count ⟨key, now⟩ ++ rest) =
      count +
        RateLimiter.admitted key start finish
          (limiter.after (List.replicate count ⟨key, now⟩)) rest := by
  induction count generalizing limiter clock with
  | zero => simp [RateLimiter.after]
  | succ count induction =>
      push_cast at enough
      have some : 1 ≤ limiter.found key now := by
        have nonneg : (0 : ℚ) ≤ count := Nat.cast_nonneg count
        linarith
      have allowed := (limiter.allow_allowed key now).mpr some
      have left : (count : ℚ) ≤ (limiter.allow key now).2.found key now := by
        rw [sound.found_again ordered window, sound.level_allow ordered,
          if_pos allowed]
        linarith
      have later :=
        induction (sound.allow ordered key) le_rfl
          (by rw [RateLimiter.allow_gcWindow]; exact window) left
      have counted : limiter.admits key start finish ⟨key, now⟩ = true := by
        simp [RateLimiter.admits, begun, inside, allowed]
      rw [List.replicate_succ, List.cons_append, RateLimiter.admitted,
        counted, later]
      simp only [if_true, RateLimiter.after, List.foldl_cons]
      omega

/-- The key was last seen at the instant of the last removal. -/
structure RateLimiter.Idle (limiter : RateLimiter) (key : GoString)
    (now : Instant) : Prop where
  lastGC : limiter.lastGC = some now
  seen : ∃ bucket, limiter.buckets key = some bucket ∧ bucket.lastSeen = now

theorem RateLimiter.Sound.idle_allow (sound : limiter.Sound clock)
    (key : GoString) (ordered : clock ≤ now) (window : 0 < limiter.gcWindow)
    (recent : limiter.lastGC = none ∨ limiter.lastGC = some now) :
    (limiter.allow key now).2.Idle key now where
  lastGC := by
    have swept : (limiter.gcLocked now).lastGC = some now := by
      rw [RateLimiter.gcLocked]
      rcases recent with never | now
      · simp [never]
      · simp [now, window]
    simp only [RateLimiter.allow]
    split_ifs <;> exact swept
  seen := by
    have stored := sound.allow_buckets ordered key key
    rw [if_pos rfl] at stored
    exact ⟨_, stored, rfl⟩

theorem idle_batch (key : GoString) (sound : limiter.Sound clock)
    (ordered : clock ≤ now)
    (window : 0 < limiter.gcWindow)
    (recent : limiter.lastGC = none ∨ limiter.lastGC = some now)
    (count : Nat) :
    (limiter.after (List.replicate (count + 1) ⟨key, now⟩)).Sound now ∧
      (limiter.after (List.replicate (count + 1) ⟨key, now⟩)).Idle key now ∧
      (limiter.after (List.replicate (count + 1) ⟨key, now⟩)).burst =
        limiter.burst ∧
      (limiter.after (List.replicate (count + 1) ⟨key, now⟩)).gcWindow =
        limiter.gcWindow := by
  induction count generalizing limiter clock with
  | zero =>
      exact ⟨sound.allow ordered key,
        sound.idle_allow key ordered window recent, RateLimiter.allow_burst,
        RateLimiter.allow_gcWindow⟩
  | succ count induction =>
      have idle := sound.idle_allow key ordered window recent
      have rest :=
        induction (sound.allow ordered key) le_rfl
          (by rw [RateLimiter.allow_gcWindow]; exact window)
          (Or.inr idle.lastGC)
      rw [RateLimiter.allow_burst, RateLimiter.allow_gcWindow] at rest
      exact rest

/-- A key that comes back after the idle window finds a full bucket. -/
theorem RateLimiter.Idle.found (idle : limiter.Idle key now) :
    limiter.found key (now + limiter.gcWindow + 1) = limiter.burst := by
  rcases idle.seen with ⟨bucket, stored, seen⟩
  have gone :
      (limiter.gcLocked (now + limiter.gcWindow + 1)).buckets key =
        none := by
    have idleFor :
        now + limiter.gcWindow + 1 - now = limiter.gcWindow + 1 := by
      ring
    have due : ¬ now + limiter.gcWindow + 1 - now < limiter.gcWindow := by
      rw [idleFor]
      exact not_lt.mpr (Int.le_add_one le_rfl)
    have late : ¬ now + limiter.gcWindow + 1 - now ≤ limiter.gcWindow := by
      rw [idleFor]
      exact not_le.mpr (Int.lt_add_one_iff.mpr le_rfl)
    rw [RateLimiter.gcLocked, idle.lastGC]
    simp only [if_neg due, stored, Option.filter, seen]
    rw [decide_eq_false late]
    rfl
  rw [RateLimiter.found, RateLimiter.level_of_none gone,
    RateLimiter.gcLocked_burst]

end Batches

/-- Calls that use up the burst, before and after the idle window. -/
def burstTwice (key : GoString) (count : Nat) : List Visit :=
  List.replicate count ⟨key, 0⟩ ++
    List.replicate count ⟨key, 600 * second + 1⟩

theorem burstTwice_ordered (key : GoString) (count : Nat) :
    Ordered (burstTwice key count) := by
  rw [Ordered, burstTwice, List.pairwise_append]
  refine ⟨List.pairwise_replicate.mpr (Or.inr le_rfl),
    List.pairwise_replicate.mpr (Or.inr le_rfl), ?_⟩
  intro first early second late
  rw [List.eq_of_mem_replicate early, List.eq_of_mem_replicate late]
  show (0 : Int) ≤ 600 * Dhara.second + 1
  decide

/-- Both bursts are allowed. -/
theorem admitted_burstTwice
    (perMinute burst : Int) (size : 1 ≤ burst) (key : GoString) :
    RateLimiter.admitted key 0 (600 * second + 1 : Int)
        (newRateLimiter perMinute burst)
        (burstTwice key burst.toNat) =
      burst.toNat + burst.toNat := by
  have window : (newRateLimiter perMinute burst).gcWindow = 600 * second :=
    rfl
  have full : (newRateLimiter perMinute burst).burst = burst := by
    simp [newRateLimiter, not_lt.mpr size]
  have count : ((burst.toNat : Nat) : ℚ) = burst := by
    have cast : ((burst.toNat : Nat) : Int) = burst :=
      Int.toNat_of_nonneg (by omega)
    exact_mod_cast cast
  have sound := newRateLimiter_sound perMinute burst 0
  have fresh : (newRateLimiter perMinute burst).found key 0 = burst := by
    rw [RateLimiter.found, RateLimiter.level_of_none,
      RateLimiter.gcLocked_burst, full]
    rfl
  have first :=
    admitted_batch key 0 (600 * second + 1 : Int) sound le_rfl
      (by rw [window]; decide) (by simp) (by norm_num [second])
      (List.replicate burst.toNat ⟨key, 600 * second + 1⟩) burst.toNat
      (by rw [fresh, count])
  rcases Nat.exists_eq_succ_of_ne_zero
      (show burst.toNat ≠ 0 by omega) with ⟨fewer, equal⟩
  have idle :=
    idle_batch key sound le_rfl (by rw [window]; decide) (Or.inl rfl) fewer
  rw [← Nat.succ_eq_add_one, ← equal, full, window] at idle
  rcases idle with ⟨idleSound, idle, idleBurst, idleWindow⟩
  have again := idle.found
  rw [idleBurst, idleWindow, Int.zero_add] at again
  have second :=
    admitted_batch key 0 (600 * second + 1 : Int) idleSound
      (show (0 : Int) ≤ 600 * Dhara.second + 1 by decide)
      (by rw [idleWindow]; decide) (by norm_num [Dhara.second])
      le_rfl [] burst.toNat (by rw [again, count])
  rw [List.append_nil] at second
  rw [burstTwice, first, second]
  rfl

/--
Every window has at most the burst and the inflow of its length exactly if
the inflow of the shortest idle time that makes the limiter forget a bucket
is a whole burst.
-/
theorem rate_limit_bound_iff_idle_refills
    (perMinute burst : Int) (positive : 1 ≤ perMinute)
    (size : 1 ≤ burst) :
    (∀ (key : GoString) (visits : List Visit) (start finish : ℚ),
      Ordered visits → start ≤ finish →
        (RateLimiter.admitted key start finish
            (newRateLimiter perMinute burst) visits : ℚ) ≤
          burst + perMinute / 60 * ((finish - start) / second)) ↔
      (burst : ℚ) ≤ perMinute / 60 * (600 + 1 / second) := by
  have rate : (newRateLimiter perMinute burst).rate = perMinute / 60 := by
    simp [newRateLimiter, not_lt.mpr positive]
  have full : (newRateLimiter perMinute burst).burst = burst := by
    simp [newRateLimiter, not_lt.mpr size]
  have idleTime :
      seconds 0 ((newRateLimiter perMinute burst).gcWindow + 1) =
        600 + 1 / second := by
    norm_num [seconds, newRateLimiter, second]
  constructor
  · intro bounded
    have twice :=
      bounded [] (burstTwice [] burst.toNat) 0 (600 * second + 1 : Int)
        (burstTwice_ordered [] burst.toNat) (by norm_num [second])
    have count : ((burst.toNat : Nat) : ℚ) = burst := by
      have cast : ((burst.toNat : Nat) : Int) = burst :=
        Int.toNat_of_nonneg (by omega)
      exact_mod_cast cast
    rw [admitted_burstTwice perMinute burst size [], Nat.cast_add,
      count] at twice
    have length :
        (((600 * second + 1 : Int) : ℚ) - 0) / second = 600 + 1 / second := by
      norm_num [second]
    rw [length] at twice
    linarith
  · intro refills key visits start finish ordered window
    have enough : (newRateLimiter perMinute burst).Refills := by
      rw [RateLimiter.Refills, idleTime, rate, full, mul_comm]
      exact refills
    rcases ordered.exists_clock with ⟨clock, later⟩
    have bound :=
      admitted_le key enough (newRateLimiter_sound perMinute burst clock)
        window later ordered
    rw [rate, full] at bound
    linarith

theorem slow_rate_forgets_debt :
    Ordered (burstTwice [] 11) ∧
      ((11 + 1 / 60 * ((600 * second + 1 : Int) - 0) / second : ℚ)) <
        RateLimiter.admitted [] 0 (600 * second + 1 : Int)
          (newRateLimiter 1 11) (burstTwice [] 11) := by
  refine ⟨burstTwice_ordered [] 11, ?_⟩
  have twice := admitted_burstTwice 1 11 (by decide) []
  rw [show (11 : Int).toNat = 11 from rfl] at twice
  rw [twice]
  norm_num [second]

theorem stock_rate_bounded :
    (RateLimiter.admitted [] 0 1 (newRateLimiter 30 10)
        (burstTwice [] 10) : ℚ) ≤
      (10 : Int) + (30 : Int) / 60 * ((1 - 0) / second) :=
  (rate_limit_bound_iff_idle_refills 30 10 (by decide) (by decide)).mpr
    (by norm_num [second]) [] (burstTwice [] 10) 0 1
    (burstTwice_ordered [] 10) (by norm_num)

end Dhara.Playground
