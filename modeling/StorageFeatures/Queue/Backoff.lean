import StorageFeatures.NameMap

/-!
# Retry delays

Every key that fails waits longer than the time before: the base delay first, then twice as long
each time, and never longer than the largest delay. `Limiter.next` counts a failure and answers
the delay; `Limiter.forget` lets a key begin anew.
-/

namespace StorageFeatures

/-- The first and the largest delay, in one unit of time. -/
structure BackoffConfig where
  base : Nat
  max : Nat
  deriving DecidableEq, Repr

/-- What is kept for a key that failed: how often, and the delay that comes next. -/
structure KeyBackoff where
  failures : Nat
  interval : Nat
  deriving DecidableEq, Repr

namespace KeyBackoff

/-- A key without failures. -/
def fresh (config : BackoffConfig) : KeyBackoff := ⟨0, config.base⟩

/-- The delay for one more failure. The interval doubles until it would pass the largest delay,
and stays at that. -/
def next (config : BackoffConfig) (b : KeyBackoff) : Nat × KeyBackoff :=
  (min b.interval config.max,
   ⟨b.failures + 1, if config.max ≤ 2 * b.interval then config.max else 2 * b.interval⟩)

end KeyBackoff

/-- The delays of all keys. -/
structure Limiter where
  config : BackoffConfig
  keys : NameMap KeyBackoff := ∅

namespace Limiter

def entry (l : Limiter) (k : String) : KeyBackoff := (l.keys.get? k).getD (.fresh l.config)

/-- The delay after one more failure of a key. -/
def next (l : Limiter) (k : String) : Nat × Limiter :=
  let (delay, b) := (l.entry k).next l.config
  (delay, { l with keys := l.keys.insert k b })

/-- The failures of a key since it was last forgotten. -/
def failures (l : Limiter) (k : String) : Nat := (l.entry k).failures

/-- Clears what is kept for a key. -/
def forget (l : Limiter) (k : String) : Limiter := { l with keys := l.keys.erase k }

/-- A failure counts for its own key only. -/
theorem failures_next (l : Limiter) (k k' : String) :
    (l.next k).2.failures k' = l.failures k' + if k' = k then 1 else 0 := by
  simp only [failures, next, entry, NameMap.get?_insert]
  by_cases h : k' = k <;> simp [h, KeyBackoff.next]

/-- A key that is forgotten starts afresh. -/
@[simp] theorem failures_forget_self (l : Limiter) (k : String) :
    (l.forget k).failures k = 0 := by
  simp [failures, forget, entry, KeyBackoff.fresh]

/-- No delay is longer than the greatest one allowed. -/
theorem next_le_max (l : Limiter) (k : String) : (l.next k).1 ≤ l.config.max :=
  Nat.min_le_right _ _

end Limiter

end StorageFeatures
