import StorageFeatures.Queue.Backoff
import StorageFeatures.Queue.Keys
import StorageFeatures.Queue.Wakeup

/-!
# The work queue

`WorkQueue` joins the keys to be processed, the getters that wait for one, and the delays of keys
that failed. Every key that becomes pending wakes a getter, and a getter that leaves keys behind
wakes another. A getter that finds neither a key nor a closed queue goes to sleep.
-/

namespace StorageFeatures

structure WorkQueue (γ : Type) where
  keys : KeyQueue := {}
  wakeup : Wakeup γ := {}
  limiter : Limiter

/-- What a getter comes to. -/
inductive Polled where
  | key (k : String)
  | closed
  | asleep
  deriving DecidableEq, Repr

namespace WorkQueue

variable {γ : Type}

/-- The name of the queue. -/
def name : String := "StorageClassCapabilities"

def empty (config : BackoffConfig) : WorkQueue γ := { limiter := { config } }

/-- The number of keys that can be handed out. -/
def length (q : WorkQueue γ) : Nat := q.keys.pending.length

def isClosed (q : WorkQueue γ) : Bool := q.keys.closed

/-- Wakes a getter if a key became pending. -/
def settle (q : WorkQueue γ) : KeyQueue × Bool → WorkQueue γ
  | (keys, becamePending) =>
    { q with keys, wakeup := if becamePending then q.wakeup.wakeOne else q.wakeup }

def add (q : WorkQueue γ) (k : String) : WorkQueue γ := q.settle (q.keys.add k)

def done (q : WorkQueue γ) (k : String) : WorkQueue γ := q.settle (q.keys.done k)

/-- Accepts no more keys and wakes every getter. -/
def shutDown (q : WorkQueue γ) : WorkQueue γ :=
  { q with keys := q.keys.close, wakeup := q.wakeup.wakeAll }

/-- Adds a key after a delay: at once if there is none, and not at all once the queue is closed;
otherwise the answer says to come back. -/
def addAfter (q : WorkQueue γ) (k : String) (delay : Nat) : WorkQueue γ × Option Nat :=
  if q.isClosed then (q, none)
  else if delay = 0 then (q.add k, none)
  else (q, some delay)

/-- Counts a failure of a key and adds it after its delay. -/
def addRateLimited (q : WorkQueue γ) (k : String) : WorkQueue γ × Option Nat :=
  let (delay, limiter) := q.limiter.next k
  { q with limiter }.addAfter k delay

def forget (q : WorkQueue γ) (k : String) : WorkQueue γ :=
  { q with limiter := q.limiter.forget k }

def failures (q : WorkQueue γ) (k : String) : Nat := q.limiter.failures k

/-! ### Getting a key -/

/-- One look at the queue by a getter that has entered: with a key or a closed queue it leaves. -/
def look [DecidableEq γ] (q : WorkQueue γ) (g : γ) : WorkQueue γ × Polled :=
  match q.keys.take? with
  | some (k, keys) =>
    let wakeup := q.wakeup.leave g
    ({ q with keys, wakeup := if keys.pending.isEmpty then wakeup else wakeup.wakeOne }, .key k)
  | none =>
    if q.isClosed then ({ q with wakeup := q.wakeup.leave g }, .closed) else (q, .asleep)

/-- A getter runs until it has a key, sees that the queue is closed, or sleeps. With a permit it
looks twice before it sleeps. -/
def poll [DecidableEq γ] (q : WorkQueue γ) (g : γ) : WorkQueue γ × Polled :=
  let (wakeup, permitted) := (q.wakeup.consume g).enter g
  match { q with wakeup }.look g with
  | (q, .asleep) =>
    if permitted then { q with wakeup := (q.wakeup.enter g).1 }.look g else (q, .asleep)
  | r => r

/-- A getter that does not wait: it runs once and goes away. -/
def pollOnce [DecidableEq γ] (q : WorkQueue γ) (g : γ) : WorkQueue γ × Polled :=
  match q.poll g with
  | (q, .asleep) => ({ q with wakeup := q.wakeup.leave g }, .asleep)
  | r => r

end WorkQueue

end StorageFeatures
