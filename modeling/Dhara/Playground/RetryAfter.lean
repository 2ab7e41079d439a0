import Dhara.Playground.Http
import Dhara.Playground.RateLimiter

/-!
# The Retry-After header

A denied call learns how long it has to wait.  `Allow` returns the time until
the bucket holds a token in nanoseconds, but at least a second, and
`writeRetryAfter` cuts it down to whole seconds.  A client that comes back
after that many seconds finds a token only if nothing was cut off.
-/

namespace Dhara.Playground

/-- The seconds that `writeRetryAfter` puts into the header. -/
def retryAfter (wait : Int) : Int :=
  let secs := wait.tdiv second
  if secs < 1 then 1 else secs

/-- The header of the reply, whose wait is in microseconds. -/
theorem writeRetryAfter_retryAfter {wait : Int} (nonneg : 0 ≤ wait) :
    (Http.writeRetryAfter (wait / 1000)).retryAfter =
      some (retryAfter wait) := by
  have whole : (wait / 1000).tdiv 1000000 = wait.tdiv second := by
    rw [Int.tdiv_eq_ediv_of_nonneg nonneg,
      Int.tdiv_eq_ediv_of_nonneg (Int.ediv_nonneg nonneg (by decide)),
      Int.ediv_ediv_of_nonneg (by decide)]
    rfl
  simp only [Http.writeRetryAfter, retryAfter]
  rw [show (wait / 1000 : Time).tdiv 1000000 = wait.tdiv second from whole]
  split_ifs with small
  · rw [max_eq_left (by omega)]
  · rw [max_eq_right (by omega)]

/-- The seconds until a bucket of this level holds a token. -/
def RateLimiter.refillTime (limiter : RateLimiter) (tokens : ℚ) : ℚ :=
  (1 - tokens) / limiter.rate

section Waits

variable {limiter : RateLimiter} {clock now : Instant} {key : GoString}

theorem floor_mul_ediv (time : ℚ) :
    ⌊time * second⌋ / second = ⌊time⌋ := by
  have positive : (0 : ℚ) < second := by norm_num [second]
  apply eq_of_forall_le_iff
  intro bound
  rw [Int.le_ediv_iff_mul_le (by decide), Int.le_floor, Int.le_floor]
  push_cast
  exact mul_le_mul_iff_left₀ positive

/-- The header has the whole seconds of the refill time, but at least one. -/
theorem retryAfter_wait (limiter : RateLimiter) (tokens : ℚ) :
    retryAfter (limiter.wait tokens) = max 1 ⌊limiter.refillTime tokens⌋ := by
  have floor := floor_mul_ediv (limiter.refillTime tokens)
  rw [RateLimiter.refillTime] at floor ⊢
  simp only [RateLimiter.wait]
  split_ifs with short
  · have small : ⌊(1 - tokens) / limiter.rate⌋ ≤ 1 := by
      rw [← floor]
      have below : ⌊(1 - tokens) / limiter.rate * second⌋ / second < 1 :=
        Int.ediv_lt_of_lt_mul (by decide) (by omega)
      omega
    rw [max_eq_left small]
    decide
  · have long : second ≤ ⌊(1 - tokens) / limiter.rate * second⌋ := by
      omega
    rw [retryAfter, Int.tdiv_eq_ediv_of_nonneg
      (le_trans (by decide) long), floor]
    split_ifs with below
    · rw [max_eq_left (by omega)]
    · rw [max_eq_right (by omega)]

/-- A denied call returns the wait for the level it has found. -/
theorem RateLimiter.allow_wait
    (denied : (limiter.allow key now).1.allowed = false) :
    (limiter.allow key now).1.wait =
      limiter.wait (limiter.found key now) := by
  simp only [RateLimiter.allow, RateLimiter.found, RateLimiter.level]
    at denied ⊢
  split_ifs at denied ⊢
  simp only [RateLimiter.wait, RateLimiter.gcLocked_rate]

theorem RateLimiter.Sound.after {visits : List Visit}
    (sound : limiter.Sound clock)
    (later : ∀ visit ∈ visits, clock ≤ visit.now ∧ visit.now ≤ now)
    (ordered : Ordered visits) (ends : clock ≤ now) :
    (limiter.after visits).Sound now := by
  induction visits generalizing limiter clock with
  | nil => exact sound.mono ends
  | cons visit rest induction =>
      have reached := later visit List.mem_cons_self
      rw [Ordered, List.pairwise_cons] at ordered
      exact induction (sound.allow reached.1 visit.key)
        (fun other member =>
          ⟨ordered.1 other member,
            (later other (List.mem_cons_of_mem visit member)).2⟩)
        ordered.2 reached.2

@[simp]
theorem RateLimiter.after_rate (visits : List Visit) :
    (limiter.after visits).rate = limiter.rate := by
  induction visits generalizing limiter with
  | nil => rfl
  | cons visit rest induction =>
      exact induction.trans RateLimiter.allow_rate

@[simp]
theorem RateLimiter.after_gcWindow (visits : List Visit) :
    (limiter.after visits).gcWindow = limiter.gcWindow := by
  induction visits generalizing limiter with
  | nil => rfl
  | cons visit rest induction =>
      exact induction.trans RateLimiter.allow_gcWindow

/-- The calls of other keys keep the bucket of a key or forget it. -/
theorem RateLimiter.Sound.bucket_after_others {visits : List Visit}
    (sound : limiter.Sound clock)
    (others : ∀ visit ∈ visits, visit.key ≠ key ∧ clock ≤ visit.now)
    (ordered : Ordered visits) :
    (limiter.after visits).buckets key = limiter.buckets key ∨
      (limiter.after visits).buckets key = none := by
  induction visits generalizing limiter clock with
  | nil => exact Or.inl rfl
  | cons visit rest induction =>
      have first := others visit List.mem_cons_self
      rw [Ordered, List.pairwise_cons] at ordered
      have after :=
        induction (sound.allow first.2 visit.key)
          (fun other member =>
            ⟨(others other (List.mem_cons_of_mem visit member)).1,
              ordered.1 other member⟩)
          ordered.2
      rw [sound.allow_buckets first.2, if_neg first.1.symm] at after
      rcases limiter.gcLocked_cases visit.now key with
        same | ⟨_, _, _, gone⟩
      · rw [same] at after
        exact after
      · rw [gone, or_self] at after
        exact Or.inr after

/-- The wait of a denied call ends within the idle window. -/
theorem RateLimiter.Sound.refillTime_le (sound : limiter.Sound clock)
    (ordered : clock ≤ now) (slow : 1 / 60 ≤ limiter.rate)
    (key : GoString) :
    limiter.refillTime (limiter.found key now) ≤ 60 := by
  have nonneg := sound.found_nonneg ordered key
  rw [RateLimiter.refillTime, div_le_iff₀ sound.rate]
  linarith

/--
After the calls of other keys the key finds at least what has flowed in since
its denied call.
-/
theorem RateLimiter.Sound.found_later (sound : limiter.Sound clock)
    (ordered : clock ≤ now)
    (denied : (limiter.allow key now).1.allowed = false)
    {between : List Visit} {next : Instant}
    (sorted : Ordered between)
    (others :
      ∀ visit ∈ between, visit.key ≠ key ∧ now ≤ visit.now ∧ visit.now ≤ next)
    (later : now ≤ next)
    (enough : 1 ≤ limiter.found key now + seconds now next * limiter.rate) :
    1 ≤ ((limiter.allow key now).2.after between).found key next := by
  have settled := sound.allow ordered key
  have after : ((limiter.allow key now).2.after between).Sound next :=
    settled.after (fun visit member => (others visit member).2) sorted later
  have burst := after.burst
  have low : limiter.found key now < 1 := by
    by_contra high
    rw [(limiter.allow_allowed key now).mpr (not_lt.mp high)] at denied
    cases denied
  have stored := sound.allow_buckets ordered key key
  rw [if_pos rfl, if_pos low] at stored
  have kept :
      (((limiter.allow key now).2.after between).gcLocked next).buckets
            key =
          (limiter.allow key now).2.buckets key ∨
        (((limiter.allow key now).2.after between).gcLocked next).buckets
            key = none := by
    have others' : ∀ visit ∈ between, visit.key ≠ key ∧ now ≤ visit.now :=
      fun visit member =>
        ⟨(others visit member).1, (others visit member).2.1⟩
    rcases RateLimiter.gcLocked_cases
        ((limiter.allow key now).2.after between) next key with
      same | ⟨_, _, _, gone⟩
    · rw [same]
      exact settled.bucket_after_others others' sorted
    · exact Or.inr gone
  rw [RateLimiter.found]
  rcases kept with same | gone
  · rw [stored] at same
    rw [(after.gcLocked next).level_of_some le_rfl same,
      RateLimiter.gcLocked_burst, RateLimiter.gcLocked_rate,
      RateLimiter.after_rate, RateLimiter.allow_rate]
    exact le_min burst enough
  · rw [RateLimiter.level_of_none gone, RateLimiter.gcLocked_burst]
    exact burst

/-- Without other calls the key finds exactly what has flowed in. -/
theorem RateLimiter.Sound.found_next (sound : limiter.Sound clock)
    (ordered : clock ≤ now)
    (denied : (limiter.allow key now).1.allowed = false)
    {next : Instant} (later : now ≤ next)
    (recent : next - now ≤ limiter.gcWindow) :
    (limiter.allow key now).2.found key next ≤
      limiter.found key now + seconds now next * limiter.rate := by
  have settled := sound.allow ordered key
  have low : limiter.found key now < 1 := by
    by_contra high
    rw [(limiter.allow_allowed key now).mpr (not_lt.mp high)] at denied
    cases denied
  have stored := sound.allow_buckets ordered key key
  rw [if_pos rfl, if_pos low] at stored
  rcases RateLimiter.gcLocked_cases (limiter.allow key now).2 next key with
    same | ⟨bucket, found, idle, _⟩
  · rw [stored] at same
    rw [RateLimiter.found,
      (settled.gcLocked next).level_of_some later same,
      RateLimiter.gcLocked_rate, RateLimiter.allow_rate]
    exact min_le_right _ _
  · rw [stored] at found
    cases found
    rw [RateLimiter.allow_gcWindow] at idle
    exact absurd recent (not_le.mpr idle)

end Waits

/-- The calls until and with the next call of the key. -/
def Obeys (key : GoString) (now : Instant) (header : Int)
    (between : List Visit) (next : Instant) : Prop :=
  Ordered (between ++ [⟨key, next⟩]) ∧
    (∀ visit ∈ between, visit.key ≠ key ∧ now ≤ visit.now) ∧
    now + header * second ≤ next

theorem seconds_add_header (now : Instant) (header : Int) :
    seconds now (now + header * second) = header := by
  have positive : (second : ℚ) ≠ 0 := by norm_num [second]
  rw [seconds]
  push_cast
  field_simp
  ring

theorem rate_newRateLimiter (perMinute burst : Int) :
    1 / 60 ≤ (newRateLimiter perMinute burst).rate := by
  simp only [newRateLimiter]
  have positive : 1 ≤ (if perMinute < 1 then 1 else perMinute : Int) := by
    split_ifs <;> omega
  have cast : (1 : ℚ) ≤
      ((if perMinute < 1 then 1 else perMinute : Int) : ℚ) := by
    exact_mod_cast positive
  linarith

/--
A client that waits as long as the header of a denied call says is allowed
exactly if the bucket needs at most a second, or a whole number of seconds, to
hold a token again.
-/
theorem retry_after_honest_iff_whole_seconds
    (perMinute burst : Int) (history : List Visit) (key : GoString)
    (now : Instant) (ordered : Ordered (history ++ [⟨key, now⟩]))
    (denied :
      (((newRateLimiter perMinute burst).after history).allow key
        now).1.allowed = false) :
    (∀ between next,
      Obeys key now
          (retryAfter
            (((newRateLimiter perMinute burst).after history).allow key
              now).1.wait)
          between next →
        (((((newRateLimiter perMinute burst).after history).allow key
          now).2.after between).allow key next).1.allowed = true) ↔
      (((newRateLimiter perMinute burst).after history).refillTime
            (((newRateLimiter perMinute burst).after history).found key
              now) ≤ 1 ∨
        ∃ whole : Int,
          ((newRateLimiter perMinute burst).after history).refillTime
              (((newRateLimiter perMinute burst).after history).found key
                now) = whole) := by
  rcases ordered.exists_clock with ⟨clock, later⟩
  rw [Ordered, List.pairwise_append] at ordered
  have sound :
      ((newRateLimiter perMinute burst).after history).Sound now := by
    apply (newRateLimiter_sound perMinute burst clock).after
    · intro visit member
      exact ⟨later visit (List.mem_append_left _ member),
        ordered.2.2 visit member ⟨key, now⟩ List.mem_cons_self⟩
    · exact ordered.1
    · exact later ⟨key, now⟩ (by simp)
  have slow := rate_newRateLimiter perMinute burst
  rw [← RateLimiter.after_rate history] at slow
  have window :
      ((newRateLimiter perMinute burst).after history).gcWindow =
        600 * second :=
    RateLimiter.after_gcWindow history
  generalize (newRateLimiter perMinute burst).after history = limiter at *
  rw [RateLimiter.allow_wait denied, retryAfter_wait]
  have short := sound.refillTime_le le_rfl slow key
  have positive := sound.rate
  generalize time : limiter.refillTime (limiter.found key now) = refill at *
  have level : limiter.found key now = 1 - refill * limiter.rate := by
    rw [← time, RateLimiter.refillTime]
    field_simp
    ring
  have waits : now ≤ now + max 1 ⌊refill⌋ * second :=
    le_add_of_nonneg_right
      (mul_nonneg (le_trans (by decide) (le_max_left 1 _)) (by decide))
  constructor
  · intro honest
    have obeys :
        Obeys key now (max 1 ⌊refill⌋) [] (now + max 1 ⌊refill⌋ * second) :=
      ⟨List.pairwise_singleton _ _,
        fun visit member => absurd member List.not_mem_nil, le_rfl⟩
    have within : max 1 ⌊refill⌋ ≤ 60 :=
      max_le (by decide) (Int.floor_le_iff.mpr (by norm_num; linarith))
    have recent : now + max 1 ⌊refill⌋ * second - now ≤ limiter.gcWindow := by
      rw [window, add_sub_cancel_left]
      exact mul_le_mul_of_nonneg_right (within.trans (by decide)) (by decide)
    have allowed := (RateLimiter.allow_allowed _ _ _).mp (honest _ _ obeys)
    have found := sound.found_next le_rfl denied waits recent
    rw [seconds_add_header, level] at found
    have flowed : refill * limiter.rate ≤
        ((max 1 ⌊refill⌋ : Int) : ℚ) * limiter.rate := by
      have chain := le_trans allowed found
      linarith
    have enough := (mul_le_mul_iff_left₀ positive).mp flowed
    rcases max_choice 1 ⌊refill⌋ with one | floor
    · rw [one, Int.cast_one] at enough
      exact Or.inl enough
    · rw [floor] at enough
      exact Or.inr ⟨⌊refill⌋, le_antisymm enough (Int.floor_le refill)⟩
  · intro whole between next obeys
    rcases obeys with ⟨sorted, others, waited⟩
    rw [Ordered, List.pairwise_append] at sorted
    have enough : refill ≤ ((max 1 ⌊refill⌋ : Int) : ℚ) := by
      rcases whole with short | ⟨count, same⟩
      · have least : (1 : ℚ) ≤ ((max 1 ⌊refill⌋ : Int) : ℚ) := by
          exact_mod_cast le_max_left 1 ⌊refill⌋
        exact le_trans short least
      · rw [same, Int.floor_intCast]
        exact_mod_cast le_max_right 1 count
    have elapsed : ((max 1 ⌊refill⌋ : Int) : ℚ) ≤ seconds now next := by
      have rest := seconds_nonneg waited
      rw [← seconds_add now _ next, seconds_add_header]
      linarith
    rw [RateLimiter.allow_allowed]
    apply sound.found_later le_rfl denied sorted.1
    · intro visit member
      exact ⟨(others visit member).1, (others visit member).2,
        sorted.2.2 visit member ⟨key, next⟩ List.mem_cons_self⟩
    · exact waits.trans waited
    · rw [level]
      have flowed :=
        mul_le_mul_of_nonneg_right (le_trans enough elapsed) positive.le
      linarith

/-- With forty tokens a minute a token takes one and a half seconds. -/
theorem obedient_client_denied :
    let limiter := (newRateLimiter 40 1).after [⟨ascii "s", 0⟩]
    let first := limiter.allow (ascii "s") 0
    let again := first.2.allow (ascii "s") (retryAfter first.1.wait * second)
    first.1.allowed = false ∧ first.1.wait = 1500000000 ∧
      retryAfter first.1.wait = 1 ∧ again.1.allowed = false := by
  decide +kernel

/-- With thirty tokens a minute a token takes two seconds. -/
theorem obedient_client_allowed :
    ((((newRateLimiter 30 1).after [⟨ascii "s", 0⟩]).allow (ascii "s")
      0).2.allow (ascii "s") (2 * second)).1.allowed = true := by
  have denied :
      (((newRateLimiter 30 1).after [⟨ascii "s", 0⟩]).allow (ascii "s")
          0).1.allowed = false ∧
        retryAfter
            (((newRateLimiter 30 1).after [⟨ascii "s", 0⟩]).allow
              (ascii "s") 0).1.wait = 2 ∧
        ((newRateLimiter 30 1).after [⟨ascii "s", 0⟩]).refillTime
            (((newRateLimiter 30 1).after [⟨ascii "s", 0⟩]).found
              (ascii "s") 0) = (2 : Int) := by
    decide +kernel
  have honest :=
    (retry_after_honest_iff_whole_seconds 30 1 [⟨ascii "s", 0⟩] (ascii "s")
      0 (by simp [Ordered]) denied.1).mpr (Or.inr ⟨2, denied.2.2⟩)
  apply honest [] (2 * second)
  rw [denied.2.1]
  exact ⟨List.pairwise_singleton _ _,
    fun visit member => absurd member List.not_mem_nil, by decide⟩

end Dhara.Playground
