import StorageFeatures.Queue.Backoff
import Mathlib.Algebra.Ring.Nat
import Mathlib.Data.List.DropRight
import Mathlib.Data.List.Induction

/-!
# Delays double

A limiter keeps an interval for every key that has failed, and switches it to the largest delay as
soon as doubling it would pass that. Cut off at the largest delay, the interval is therefore the
base delay doubled once for every failure, whatever the ratio of the two delays is
(`KeyBackoff.Doubled`). Counting a failure and forgetting a key keep that of all keys
(`Limiter.Doubling`), so that the delay of a failure depends only on how many there were before it
(`Limiter.Doubling.next_fst`).

The main result is `Limiter.regular_of_requests`, for requests about any keys in any order: delays
and counts have a closed form in the failures of the key since it was last forgotten
(`Limiter.streak`), which requests about other keys do not enter. That the delays of a key never
shrink, and stay at the largest delay once they have reached it, is read off the closed form.
-/

namespace StorageFeatures

/-- The delay of the failure of a key that has failed `n` times before. -/
def BackoffConfig.delay (config : BackoffConfig) (n : Nat) : Nat :=
  min (config.base * 2 ^ n) config.max

/-- No delay is longer than the greatest one allowed. -/
theorem BackoffConfig.delay_le_max (config : BackoffConfig) (n : Nat) :
    config.delay n ≤ config.max :=
  Nat.min_le_right _ _

/-- Delays never shrink. -/
theorem BackoffConfig.delay_mono (config : BackoffConfig) {n m : Nat} (h : n ≤ m) :
    config.delay n ≤ config.delay m := by
  have hpow : config.base * 2 ^ n ≤ config.base * 2 ^ m :=
    Nat.mul_le_mul_left _ (Nat.pow_le_pow_right (by decide) h)
  unfold delay
  omega

namespace KeyBackoff

variable {config : BackoffConfig} {b : KeyBackoff}

/-- The interval is the base delay doubled with every failure, as far as a delay can tell. -/
def Doubled (config : BackoffConfig) (b : KeyBackoff) : Prop :=
  min b.interval config.max = config.delay b.failures

theorem doubled_fresh (config : BackoffConfig) : (fresh config).Doubled config := by
  simp [Doubled, fresh, BackoffConfig.delay]

/-- Doubling an interval commutes with cutting it off. -/
theorem doubled_next (h : b.Doubled config) : (b.next config).2.Doubled config := by
  have hpow : config.base * 2 ^ (b.failures + 1) = 2 * (config.base * 2 ^ b.failures) := by
    rw [pow_succ, ← Nat.mul_assoc, Nat.mul_comm]
  unfold Doubled BackoffConfig.delay at h ⊢
  simp only [next, hpow]
  split <;> omega

end KeyBackoff

namespace Limiter

variable {l : Limiter} {k k' : String}

/-! ### What happens to one key -/

@[simp] theorem config_next (l : Limiter) (k : String) : (l.next k).2.config = l.config := rfl

@[simp] theorem config_forget (l : Limiter) (k : String) : (l.forget k).config = l.config := rfl

/-- A failure concerns its key only. -/
theorem entry_next (l : Limiter) (k k' : String) :
    (l.next k).2.entry k' = if k' = k then ((l.entry k).next l.config).2 else l.entry k' := by
  simp only [entry, next, NameMap.get?_insert]
  split <;> rfl

/-- A key that is forgotten has a fresh entry, and the other entries stay. -/
theorem entry_forget (l : Limiter) (k k' : String) :
    (l.forget k).entry k' = if k' = k then .fresh l.config else l.entry k' := by
  simp only [entry, forget, NameMap.get?_erase]
  split <;> rfl

theorem failures_forget (l : Limiter) (k k' : String) :
    (l.forget k).failures k' = if k' = k then 0 else l.failures k' := by
  simp only [failures, entry_forget]
  split <;> rfl

/-! ### All keys -/

/-- The intervals of all keys have been doubled with every failure. -/
def Doubling (l : Limiter) : Prop := ∀ k, (l.entry k).Doubled l.config

/-- An empty limiter doubles. -/
theorem doubling_empty (config : BackoffConfig) : Doubling { config } :=
  fun _ => KeyBackoff.doubled_fresh config

protected theorem Doubling.next (h : l.Doubling) (k : String) : (l.next k).2.Doubling := by
  intro k'
  rw [entry_next]
  split
  · exact KeyBackoff.doubled_next (h k)
  · exact h k'

protected theorem Doubling.forget (h : l.Doubling) (k : String) : (l.forget k).Doubling := by
  intro k'
  rw [entry_forget]
  split
  · exact KeyBackoff.doubled_fresh l.config
  · exact h k'

/-- **Delays grow with the failures alone.** -/
theorem Doubling.next_fst (h : l.Doubling) (k : String) :
    (l.next k).1 = l.config.delay (l.failures k) :=
  h k

/-! ### Requests about keys -/

/-- What a limiter is asked. -/
inductive Request where
  /-- The delay after one more failure of a key. -/
  | delay (k : String)
  /-- The failures of a key since it was last forgotten. -/
  | failures (k : String)
  | forget (k : String)
  deriving DecidableEq, Repr

namespace Request

/-- The key that a request is about. -/
def key : Request → String
  | delay k | failures k | forget k => k

end Request

/-- The limiter after a request. -/
def serve (l : Limiter) : Request → Limiter
  | .delay k => (l.next k).2
  | .failures _ => l
  | .forget k => l.forget k

/-- The number that a request is answered with, if it asks for one. -/
def answer (l : Limiter) : Request → Option Nat
  | .delay k => some (l.next k).1
  | .failures k => some (l.failures k)
  | .forget _ => none

/-- A new limiter after some requests. -/
def after (config : BackoffConfig) (past : List Request) : Limiter := past.foldl serve { config }

/-- The failures of a key that were counted since it was last forgotten. -/
def streak (past : List Request) (k : String) : Nat :=
  (past.rtakeWhile (· ≠ .forget k)).count (.delay k)

/-- What a limiter answers after some requests. -/
structure Regular (config : BackoffConfig) (past : List Request) : Prop where
  /-- The `n`-th failure of a key since it was last forgotten has the base delay doubled `n - 1`
  times, cut off at the largest delay. -/
  nth : ∀ k n, streak (past ++ [.delay k]) k = n →
    (after config past).answer (.delay k) = some (min (config.base * 2 ^ (n - 1)) config.max) ∧
      (after config (past ++ [.delay k])).answer (.failures k) = some n
  counted : ∀ k, (after config past).answer (.failures k) = some (streak past k)
  /-- A key that is forgotten begins anew. -/
  forgotten : ∀ k, (after config (past ++ [.forget k])).answer (.failures k) = some 0 ∧
    (after config (past ++ [.forget k])).answer (.delay k) = some (min config.base config.max)
  /-- Requests about other keys have no influence. -/
  apart : ∀ (past' : List Request) (r : Request),
    past'.filter (·.key = r.key) = past.filter (·.key = r.key) →
    (after config past').answer r = (after config past).answer r
  /-- Until a key is forgotten its delays do not shrink, and they stay at the largest delay. -/
  grows : ∀ k later, .forget k ∉ later → ∃ d d',
    (after config past).answer (.delay k) = some d ∧
      (after config (past ++ later)).answer (.delay k) = some d' ∧
      d ≤ d' ∧ d' ≤ config.max ∧ (d = config.max → d' = config.max)

section Histories

variable {config : BackoffConfig} (past : List Request)

theorem after_concat (r : Request) : after config (past ++ [r]) = (after config past).serve r :=
  List.foldl_concat ..

theorem config_after : (after config past).config = config := by
  induction past using List.reverseRecOn with
  | nil => rfl
  | append_singleton past r ih =>
    rw [after_concat]
    cases r <;> exact ih

theorem doubling_after : (after config past).Doubling := by
  induction past using List.reverseRecOn with
  | nil => exact doubling_empty config
  | append_singleton past r ih =>
    rw [after_concat]
    cases r with
    | delay k => exact ih.next k
    | failures k => exact ih
    | forget k => exact ih.forget k

/-- The last request makes the streak of its key longer, or ends it. -/
theorem streak_concat (r : Request) (k : String) : streak (past ++ [r]) k =
    if r = .forget k then 0 else streak past k + if r = .delay k then 1 else 0 := by
  rw [streak, List.rtakeWhile_concat]
  by_cases h : r = .forget k
  · simp [h]
  · simp [h, streak, List.count_append, List.count_singleton]

/-- A limiter counts the failures of every key. -/
theorem failures_after (k : String) : (after config past).failures k = streak past k := by
  induction past using List.reverseRecOn with
  | nil => rfl
  | append_singleton past r ih =>
    rw [after_concat, streak_concat]
    cases r with
    | delay k' =>
      have hk : Request.delay k' = .delay k ↔ k = k' := by simp [eq_comm]
      simp only [serve, failures_next, ih, hk, reduceCtorEq, if_false]
    | failures k' => simpa [serve] using ih
    | forget k' =>
      have hk : Request.forget k' = .forget k ↔ k = k' := by simp [eq_comm]
      simp only [serve, failures_forget, ih, hk, reduceCtorEq, if_false, Nat.add_zero]

/-- The next delay depends on the requests for that key since it was last forgotten. -/
theorem next_after (k : String) :
    ((after config past).next k).1 = config.delay (streak past k) := by
  rw [(doubling_after past).next_fst, config_after, failures_after]

/-- Until a key is forgotten its streak only gets longer. -/
theorem streak_le_append {k : String} {later : List Request} (kept : .forget k ∉ later) :
    streak past k ≤ streak (past ++ later) k := by
  induction later using List.reverseRecOn with
  | nil => rw [List.append_nil]
  | append_singleton later r ih =>
    obtain ⟨hlater, hr⟩ := not_or.mp (mt List.mem_append.mpr kept)
    have hne : r ≠ .forget k := fun h => hr (List.mem_singleton.mpr h.symm)
    rw [← List.append_assoc, streak_concat, if_neg hne]
    exact Nat.le_add_right_of_le (ih hlater)

/-- Only requests about the key itself count. -/
theorem streak_filter (k : String) : streak (past.filter (·.key = k)) k = streak past k := by
  induction past using List.reverseRecOn with
  | nil => rfl
  | append_singleton past r ih =>
    rw [List.filter_append, List.filter_singleton, streak_concat]
    by_cases hkey : r.key = k
    · rw [decide_eq_true hkey, cond_true, streak_concat, ih]
    · have hforget : r ≠ .forget k := fun h => hkey (h ▸ rfl)
      have hdelay : r ≠ .delay k := fun h => hkey (h ▸ rfl)
      rw [decide_eq_false hkey, cond_false, List.append_nil, if_neg hforget, if_neg hdelay, ih,
        Nat.add_zero]

end Histories

/-- **Delays and counts in closed form.** They depend on nothing but how often the key has failed
since it was last forgotten, whatever the ratio of the two delays is. -/
theorem regular_of_requests (config : BackoffConfig) (past : List Request) :
    Regular config past where
  nth := by
    rintro k n rfl
    have hstreak : streak (past ++ [.delay k]) k = streak past k + 1 := by simp [streak_concat]
    refine ⟨?_, congrArg some (failures_after _ k)⟩
    rw [hstreak, Nat.add_sub_cancel]
    exact congrArg some (next_after past k)
  counted k := congrArg some (failures_after past k)
  forgotten k := by
    have hstreak : streak (past ++ [.forget k]) k = 0 := by simp [streak_concat]
    have hdelay : ((after config (past ++ [.forget k])).next k).1 = min config.base config.max := by
      rw [next_after, hstreak, BackoffConfig.delay, Nat.pow_zero, Nat.mul_one]
    exact ⟨congrArg some ((failures_after _ k).trans hstreak), congrArg some hdelay⟩
  apart past' r same := by
    have hstreak : streak past' r.key = streak past r.key := by
      rw [← streak_filter past', same, streak_filter]
    cases r with
    | delay k =>
      refine congrArg some ?_
      rw [next_after, next_after]
      exact congrArg config.delay hstreak
    | failures k =>
      refine congrArg some ?_
      rw [failures_after, failures_after]
      exact hstreak
    | forget k => rfl
  grows k later kept := by
    have hle := config.delay_mono (streak_le_append past kept)
    have hmax := config.delay_le_max (streak (past ++ later) k)
    refine ⟨_, _, congrArg some (next_after past k), congrArg some (next_after _ k), hle, hmax, ?_⟩
    exact fun reached => Nat.le_antisymm hmax (reached ▸ hle)

end Limiter

end StorageFeatures
