import StorageFeatures.Controller.Config
import StorageFeatures.Metrics.Basic
import StorageFeatures.Queue.WorkQueue
import StorageFeatures.Sync
import StorageFeatures.Watch.Route

/-!
# The controller

The state of a running controller and the operations that change it: events of the informers,
passes over keys, and keys that come back after their delay. A pass reads the caches when it
begins; if it makes a write it stays open until the write is answered. Whoever drives the
controller decides when that happens.
-/

namespace StorageFeatures

/-- Who takes keys from the queue. -/
inductive Getter where
  /-- A worker makes a pass over every key that it takes. -/
  | worker (id : Nat)
  /-- Someone who takes a single key. -/
  | guest (id : Nat)
  deriving DecidableEq, Repr

/-- A pass whose write has not been answered. -/
structure Pass where
  worker : Nat
  key : String
  call : StoreCall
  deriving DecidableEq

/-- A key that is added to the queue when it is due. -/
structure Requeue where
  due : Nat
  key : String
  deriving DecidableEq, Repr

/-- Where a run stands. -/
inductive Phase where
  | idle
  /-- The version of the cluster has been asked for. -/
  | discovery (workers : Nat)
  /-- The caches are looked at again at `nextPoll`. -/
  | sync (workers : Nat) (deadline : Option Nat) (nextPoll : Nat)
  | running
  /-- The queue is closed and the workers finish what it holds. -/
  | draining
  | ended (exit : Exit)
  deriving DecidableEq, Repr

structure Controller where
  config : ControllerConfig := {}
  now : Nat := 0
  caches : Caches := {}
  queue : WorkQueue Getter
  /-- Without metrics nothing is counted. -/
  metrics : Option Metrics := none
  phase : Phase := .idle
  /-- Whether shutdown was requested. -/
  cancelled : Bool := false
  /-- The getters that run next, before those whom the queue has woken. -/
  ready : List Getter := []
  /-- The number of workers that have not left. -/
  workers : Nat := 0
  passes : List Pass := []
  requeues : List Requeue := []
  /-- Whether someone is about to note how many keys wait. -/
  unnoted : Bool := false

namespace Controller

/-- A controller that has not started. -/
def fresh (config : ControllerConfig) (metrics : Option Metrics) : Controller :=
  { config, queue := .empty config.backoff, metrics }

def countMetrics (c : Controller) (f : Metrics → Metrics) : Controller :=
  { c with metrics := c.metrics.map f }

/-- Notes how many keys wait, if someone is about to. Whoever adds or releases a key looks at the
queue and sets the gauge in steps of its own, while others may change the queue or set the gauge. So
this is no part of these operations; a host that does one thing at a time notes the number after
each. -/
def noteDepth (c : Controller) : Controller :=
  if c.unnoted then
    { c with unnoted := false }.countMetrics fun m => { m with queueDepth := c.queue.length }
  else c

/-! ### Intake -/

/-- Queues a key for an event. -/
def enqueue (c : Controller) (k : String) : Controller :=
  { c with queue := c.queue.add k, unnoted := true }.countMetrics fun m =>
    { m with queueAdds := m.queueAdds + 1 }

/-- Queues the keys that an event affects. -/
def route [Watched α] (c : Controller) (e : Event α) : Controller :=
  (e.keys c.caches.storageClasses).foldl enqueue c

/-- Stores a change that a watch reports and routes its events. -/
def observe [Watched α] (c : Controller) (change : Change α) : Controller × List (Event α) :=
  let (cache, events) := (Watched.cache c.caches : Cache α).observe change
  (events.foldl route { c with caches := Watched.withCache c.caches cache }, events)

/-- Routes every cached object of a kind again. -/
def resync (α : Type) [Watched α] (c : Controller) : Controller × List (Event α) :=
  let events := (Watched.cache c.caches : Cache α).resync
  (events.foldl route c, events)

/-! ### Keys that come back -/

/-- Keeps a key until its delay is over, if it has one. -/
def defer (c : Controller) (k : String) : WorkQueue Getter × Option Nat → Controller
  | (queue, none) => { c with queue }
  | (queue, some delay) => { c with queue, requeues := c.requeues ++ [⟨c.now + delay, k⟩] }

def addAfter (c : Controller) (k : String) (delay : Nat) : Controller :=
  c.defer k (c.queue.addAfter k delay)

def addRateLimited (c : Controller) (k : String) : Controller :=
  c.defer k (c.queue.addRateLimited k)

/-- A deferred key is due. -/
def bringBack (c : Controller) (r : Requeue) : Controller :=
  { c with requeues := c.requeues.erase r, queue := c.queue.add r.key }

/-! ### Passes -/

/-- What a failed pass means for its key. -/
def retry (c : Controller) (k : String) (fault : Fault) : Controller :=
  match fault.action with
  | .requeueWithBackoff =>
    (c.addRateLimited k).countMetrics fun m => { m with queueRetries := m.queueRetries + 1 }
  | .requeueAfter delay => c.addAfter k delay
  | .noRequeue => { c with queue := c.queue.forget k }

/-- Counts how a pass ended and sees to it that a failed one is repeated. -/
def record (c : Controller) (k : String) : Except Fault Sync.Outcome → Controller
  | .ok outcome =>
    { c with queue := c.queue.forget k }.countMetrics (·.increment .reconcile outcome.name)
  | .error fault => (c.countMetrics (·.increment .reconcile "error")).retry k fault

/-- Ends a pass: its key is released and its worker goes on. -/
def finish (c : Controller) (worker : Nat) (k : String) (result : Except Fault Sync.Outcome) :
    Controller :=
  let c := (c.record k result).countMetrics fun m =>
    { m with durations := m.durations.observe .zero }
  { c with queue := c.queue.done k, ready := .worker worker :: c.ready, unnoted := true }

/-- Begins a pass with a look at the caches. A pass that needs no write ends at once; the answer
is otherwise the pass that waits for its write. -/
def begin (c : Controller) (worker : Nat) (k : String) : Controller × Option Pass :=
  match Sync.decide c.caches k with
  | .error fault => (c.finish worker k (.error fault), none)
  | .ok decision =>
    match decision.call? with
    | none => (c.finish worker k (.ok decision.outcome), none)
    | some call =>
      let pass := ⟨worker, k, call⟩
      ({ c with passes := c.passes ++ [pass] }, some pass)

/-- The write of a pass is answered. -/
def conclude (c : Controller) (pass : Pass) (answer : Except Fault Unit) : Controller :=
  { c with passes := c.passes.erase pass }.finish pass.worker pass.key
    (Sync.conclude pass.call answer)

end Controller

end StorageFeatures
