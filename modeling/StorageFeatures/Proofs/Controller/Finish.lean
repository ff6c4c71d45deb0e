import StorageFeatures.Controller.Run
import StorageFeatures.Proofs.Queue.Keys

/-!
# The end of a pass

However a pass has ended, its end concerns the metrics and its key, and its worker goes on. What the
limiter remembers of the key is `Limiter.heed`, and when the key is added again is
`Controller.again?`. `Controller.finish_eq` puts that into one equation, from which everything about
the end of a pass is read off.
-/

namespace StorageFeatures

namespace Limiter

/-- What a limiter remembers of the end of a pass. -/
def heed (l : Limiter) (k : String) : Except Fault Sync.Outcome → Limiter
  | .ok _ => l.forget k
  | .error fault =>
    match fault.action with
    | .requeueWithBackoff => (l.next k).2
    | .requeueAfter _ => l
    | .noRequeue => l.forget k

/-- When a key is to be added again at the end of a pass, if it is. -/
def due (l : Limiter) (k : String) : Except Fault Sync.Outcome → Option Nat
  | .ok _ => none
  | .error fault =>
    match fault.action with
    | .requeueWithBackoff => some (l.next k).1
    | .requeueAfter delay => some delay
    | .noRequeue => none

/-- A fault that may pass brings its key back after some delay. -/
theorem exists_due (l : Limiter) (k : String) {fault : Fault} (h : fault.isRetryable = true) :
    ∃ delay, l.due k (.error fault) = some delay := by
  unfold Fault.isRetryable at h
  simp only [due]
  cases haction : fault.action with
  | requeueWithBackoff | requeueAfter => exact ⟨_, rfl⟩
  | noRequeue => simp [haction] at h

end Limiter

namespace Controller

/-- When the key of a pass is added again. A closed queue drops it. -/
def again? (c : Controller) (k : String) (result : Except Fault Sync.Outcome) : Option Nat :=
  if c.queue.keys.closed then none else c.queue.limiter.due k result

/-- A controller that remembers something else of its keys, and to which a key is added after a
delay, at once if that is zero, or not at all. -/
def noted (c : Controller) (k : String) (limiter : Limiter) (delay : Option Nat) : Controller :=
  { c with
    queue := if delay = some 0 then WorkQueue.add { c.queue with limiter } k
      else { c.queue with limiter }
    requeues := c.requeues ++ (delay.filter (0 < ·)).toList.map fun delay => ⟨c.now + delay, k⟩ }

variable (c : Controller) (k : String)

/-- Until shutdown a key is added again if that can help. -/
theorem exists_again {fault : Fault} (hopen : c.queue.keys.closed = false)
    (h : fault.isRetryable = true) : ∃ delay, c.again? k (.error fault) = some delay := by
  rw [again?, hopen]
  exact c.queue.limiter.exists_due k h

/-- Without a delay only the limiter has changed. -/
theorem noted_none (limiter : Limiter) :
    c.noted k limiter none = { c with queue := { c.queue with limiter } } := by
  simp [noted]

/-- A delay of nothing adds the key at once. -/
theorem noted_zero (limiter : Limiter) : c.noted k limiter (some 0) =
    { c with queue := WorkQueue.add { c.queue with limiter } k } := by
  simp [noted]

theorem noted_succ (limiter : Limiter) (delay : Nat) :
    c.noted k limiter (some (delay + 1)) = { c with
      queue := { c.queue with limiter }
      requeues := c.requeues ++ [⟨c.now + (delay + 1), k⟩] } :=
  rfl

/-- A queue that is closed defers nothing. -/
theorem defer_eq (limiter : Limiter) (delay : Nat) :
    c.defer k (WorkQueue.addAfter { c.queue with limiter } k delay) =
      c.noted k limiter (if c.queue.keys.closed then none else some delay) := by
  unfold WorkQueue.addAfter WorkQueue.isClosed
  cases c.queue.keys.closed with
  | true => exact (c.noted_none k limiter).symm
  | false =>
    cases delay with
    | zero => exact (c.noted_zero k limiter).symm
    | succ delay => rfl

/-- **The end of a pass is noted down.** -/
theorem record_eq (result : Except Fault Sync.Outcome) :
    ∃ metrics, c.record k result =
      { c.noted k (c.queue.limiter.heed k result) (c.again? k result) with metrics } := by
  have forgotten : ∀ c : Controller, { c with queue := c.queue.forget k } =
      c.noted k (c.queue.limiter.forget k) (if c.queue.keys.closed then none else none) :=
    fun c => ((congrArg _ (ite_self _)).trans (c.noted_none k _)).symm
  cases result with
  | ok outcome =>
    exact ⟨_, congrArg (countMetrics · (·.increment .reconcile outcome.name)) (forgotten c)⟩
  | error fault =>
    have deferred := defer_eq (c.countMetrics (·.increment .reconcile "error")) k
    simp only [record, retry, again?, Limiter.heed, Limiter.due]
    cases fault.action with
    | requeueWithBackoff =>
      have counted :=
        congrArg (countMetrics · fun m => { m with queueRetries := m.queueRetries + 1 })
          (deferred (c.queue.limiter.next k).2 (c.queue.limiter.next k).1)
      exact ⟨_, counted⟩
    | requeueAfter delay => exact ⟨_, deferred c.queue.limiter delay⟩
    | noRequeue => exact ⟨_, forgotten (c.countMetrics (·.increment .reconcile "error"))⟩

/-- **The end of a pass.** Its key is released and its worker runs next. -/
theorem finish_eq (worker : Nat) (result : Except Fault Sync.Outcome) :
    ∃ metrics, c.finish worker k result =
      let c' := c.noted k (c.queue.limiter.heed k result) (c.again? k result)
      { c' with
        metrics, queue := c'.queue.done k, ready := .worker worker :: c.ready, unnoted := true } := by
  obtain ⟨metrics, hrecord⟩ := c.record_eq k result
  unfold finish
  rw [hrecord]
  exact ⟨_, rfl⟩

end Controller

end StorageFeatures
