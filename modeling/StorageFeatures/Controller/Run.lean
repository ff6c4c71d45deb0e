import StorageFeatures.Controller.Basic

/-!
# A run of the controller

A run begins with the version of the cluster, waits until all caches have synced, starts the
workers, and ends when shutdown was requested and every worker has left. While it waits it looks
at the caches every `pollInterval`: a look at synced caches starts the workers even after the
deadline, a look after the deadline ends the run, and shutdown ends it in between.
-/

namespace StorageFeatures

namespace Controller

/-- How often the caches are looked at before the workers start. -/
def pollInterval : Nat := 100

/-- Ends a run. -/
def endRun (c : Controller) (exit : Exit) : Controller := { c with phase := .ended exit }

/-- How a run has ended. -/
def exit? (c : Controller) : Option Exit :=
  match c.phase with
  | .ended exit => some exit
  | _ => none

/-- Ends the run when the last worker has left. -/
def settleExit (c : Controller) : Controller :=
  if c.phase = .draining ∧ c.workers = 0 then c.endRun .completed else c

/-- Closes the queue. -/
def drain (c : Controller) : Controller :=
  { c with queue := c.queue.shutDown, phase := .draining }.settleExit

/-- Starts the workers, at least one. -/
def launch (c : Controller) (workers : Nat) : Controller :=
  let workers := max workers 1
  let c := { c with
    workers, ready := c.ready ++ (List.range workers).map Getter.worker, phase := .running }
  if c.cancelled then c.drain else c

/-- One look at the caches. -/
def pollCaches (c : Controller) (workers : Nat) (deadline : Option Nat) : Controller :=
  if c.caches.allSynced then c.launch workers
  else if deadline.any (· ≤ c.now) then
    c.endRun (if c.cancelled then .completed else .cachesNotSynced)
  else if c.cancelled then c.endRun .completed
  else { c with phase := .sync workers deadline (c.now + pollInterval) }

/-- Asks for the version of the cluster. -/
def start (c : Controller) (workers : Nat) : Controller :=
  { c with phase := .discovery workers }

/-- The version of the cluster arrives, and the wait for the caches begins. -/
def discovered (c : Controller) (reported : Except Fault String) : Controller :=
  match c.phase with
  | .discovery workers =>
    match c.config.obstacle c.now reported with
    | some exit => c.endRun exit
    | none => c.pollCaches workers (c.config.syncTimeout.map (c.now + ·))
  | _ => c

/-- The time for the next look at the caches has come. -/
def poll (c : Controller) : Controller :=
  match c.phase with
  | .sync workers deadline _ => c.pollCaches workers deadline
  | _ => c

/-- Requests shutdown. -/
def cancel (c : Controller) : Controller :=
  let c := { c with cancelled := true }
  match c.phase with
  | .sync .. => c.endRun .completed
  | .running => c.drain
  | _ => c

/-! ### Turns -/

/-- What a turn asks of those around the controller. -/
inductive Effect where
  /-- A worker has made a write and waits for the answer. -/
  | write (pass : Pass)
  /-- A guest has a key, or none from a closed queue. -/
  | handOut (guest : Nat) (key : Option String)

/-- Who runs next. -/
def next? (c : Controller) : Option Getter := c.ready.head? <|> c.queue.wakeup.woken.head?

/-- A getter runs until it has made a pass or sleeps. -/
def turn (c : Controller) (g : Getter) : Controller × Option Effect :=
  let (queue, polled) := c.queue.poll g
  let c := { c with queue, ready := c.ready.erase g }
  match polled, g with
  | .asleep, _ => (c, none)
  | .key k, .worker id =>
    let (c, pass) := c.begin id k
    (c, pass.map .write)
  | .closed, .worker _ => ({ c with workers := c.workers - 1 }.settleExit, none)
  | .key k, .guest id => (c, some (.handOut id (some k)))
  | .closed, .guest id => (c, some (.handOut id none))

/-- The workers do not start before all caches have synced. -/
theorem allSynced_of_pollCaches {c : Controller} {workers : Nat} {deadline : Option Nat}
    (h : (c.pollCaches workers deadline).phase = .running) : c.caches.allSynced = true := by
  unfold pollCaches at h
  split at h
  · assumption
  · split at h <;> try split at h
    all_goals simp [endRun] at h

end Controller

end StorageFeatures
