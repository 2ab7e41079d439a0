import Mathlib.Algebra.Order.Ring.Int
import Mathlib.Tactic.Linarith

/-!
# Renewal by a ticker

A lease is taken at some time and renewed at every tick of a ticker.  The
ticker starts at most `delay` after the lease is taken, and a renewal takes
effect at most `delay` after its tick.  Renewals may overtake each other, so
the date of the lease can step back, but not by more than `delay`.  If the
interval of the ticker and twice the delay are within a threshold, the lease
is never older than the threshold, up to a horizon after which the ticks may
stop.

The delay counts twice in every interval: once for the date of the lease, or
for the start of the ticker in the first interval, and once for the next
renewal.
-/

namespace Dhara

/-- A ticker.  Its ticks come one interval after another. -/
structure Ticker where
  start : Int
  interval : Int
  positive : 0 < interval

/-- The time of a tick.  The ticker starts at the tick with number zero. -/
def Ticker.tick (ticker : Ticker) (number : Nat) : Int :=
  ticker.start + number * ticker.interval

namespace Ticker

variable {ticker : Ticker}

@[simp]
theorem tick_zero : ticker.tick 0 = ticker.start := by
  simp [tick]

theorem tick_succ (number : Nat) :
    ticker.tick (number + 1) = ticker.tick number + ticker.interval := by
  simp only [tick, Nat.cast_add, Nat.cast_one, add_mul, one_mul, add_assoc]

/-- The ticks pass every time. -/
theorem exists_lt_tick (time : Int) :
    ∃ number, 1 ≤ number ∧ time < ticker.tick number := by
  refine ⟨(time - ticker.start).toNat + 1, by omega, ?_⟩
  have count := Int.self_le_toNat (time - ticker.start)
  have grown :
      ((time - ticker.start).toNat : Int) + 1 ≤
        (((time - ticker.start).toNat : Int) + 1) * ticker.interval :=
    le_mul_of_one_le_right (by positivity) ticker.positive
  simp only [tick, Nat.cast_add, Nat.cast_one]
  linarith

/--
A lease that was taken at `origin` and is dated `latest` is not older than the
threshold, if the renewals that have taken effect are dated at most `delay`
after it.
-/
theorem fresh_of_renewed
    {origin latest time horizon delay threshold : Int}
    (fits : ticker.interval + 2 * delay ≤ threshold)
    (shorter : ticker.interval < threshold)
    (prompt : ticker.start ≤ origin + delay) (taken : origin ≤ latest)
    (early : time < horizon)
    (renewed :
      ∀ number, 1 ≤ number → ticker.tick number < horizon →
        ticker.tick number + delay < time →
          ticker.tick number ≤ latest + delay) :
    time - threshold ≤ latest := by
  by_contra old
  have past :
      ∀ number : Nat,
        ticker.tick (number + 1) < horizon ∧
          ticker.tick (number + 1) + delay < time := by
    intro number
    induction number with
    | zero =>
        rw [tick_succ, tick_zero]
        constructor <;> omega
    | succ number induction =>
        have covered :=
          renewed (number + 1) (by omega) induction.1 induction.2
        rw [tick_succ (number + 1)]
        constructor <;> omega
  rcases ticker.exists_lt_tick (latest + delay) with
    ⟨number, positive, later⟩
  rcases Nat.exists_eq_add_of_le' positive with ⟨before, equal⟩
  subst number
  have covered :=
    renewed (before + 1) positive (past before).1 (past before).2
  exact absurd covered (not_le.mpr later)

end Ticker

end Dhara
