import StorageFeatures.Simulation.Feed
import StorageFeatures.Simulation.Host

/-!
# A controller on a cluster

`Cluster` runs a controller whose caches follow an API server and whose writes go to it. The
replies of the server are laid out in advance. At shutdown nothing is followed any more, and the
controller finishes what it has accepted, unless it waits for a reply that never comes.
-/

namespace StorageFeatures

/-- What arrives in a cluster. -/
inductive ClusterArrival where
  /-- The feed of a kind goes on. -/
  | feed (k : Kind)
  /-- The answer to the question for the version. -/
  | version (response : Http.Response)
  /-- The answer to the write of a pass. -/
  | written (pass : Pass) (response : Http.Response)
  /-- Every cached object is looked at again. -/
  | resync

structure Cluster where
  controller : Controller
  book : ReplyBook
  feeds : Feeds := {}
  /-- Whether the kinds are followed. -/
  following : Bool := true
  /-- The answer to the question for the version, while it is on its way. -/
  version : Option (Nat × Http.Response) := none
  /-- The answers to writes that are on their way. -/
  writes : List (Nat × Pass × Http.Response) := []
  /-- The time between two resyncs; if it is zero, there is none. -/
  resyncPeriod : Nat := 0
  /-- The number of resyncs so far. -/
  resyncs : Nat := 0

namespace Cluster

/-- Changes the controller, which then notes how many keys wait. -/
def withController (c : Cluster) (f : Controller → Controller) : Cluster :=
  { c with controller := (f c.controller).noteDepth }

def now (c : Cluster) : Nat := c.controller.now

/-! ### Following -/

/-- The feed of a kind goes on by one step. -/
def stepFeed (c : Cluster) (k : Kind) : Cluster :=
  let (feed, book, change) := (c.feeds.get k).step c.now c.book
  let c := { c with feeds := c.feeds.set k feed, book }
  match change with
  | some change => c.withController fun controller => (controller.observe change).1
  | none => c

/-- The feed of a kind goes on until it waits, by so many steps at most. -/
def runFeed (k : Kind) : Nat → Cluster → Cluster
  | 0, c => c
  | steps + 1, c =>
    match (c.feeds.get k).due? with
    | some due => if due ≤ c.now then runFeed k steps (c.stepFeed k) else c
    | none => c

/-- More steps than a feed can make before it waits: each one uses up a reply or a part of it. -/
def stepBound (c : Cluster) (k : Kind) : Nat :=
  2 + c.book.size + (((c.feeds.get k).inflow.map List.length).getD 0)

/-- When the next resync is due. -/
def nextResync? (c : Cluster) : Option Nat :=
  if c.resyncPeriod = 0 then none else some ((c.resyncs + 1) * c.resyncPeriod)

/-- Looks at every cached object again. -/
def resync (c : Cluster) : Cluster :=
  { c with resyncs := c.resyncs + 1 }.withController fun controller =>
    Kind.all.foldl (fun (controller : Controller) (k : Kind) => (controller.resync k.Object).1)
      controller

/-! ### Writing -/

/-- The write of a pass is answered. -/
def conclude (c : Cluster) (pass : Pass) (answer : Except Fault StoreAnswer) : Cluster :=
  c.withController fun controller => controller.conclude pass (answer.map fun _ => ())

/-- A pass makes its write. -/
def enter (c : Cluster) (pass : Pass) : Cluster :=
  match pass.call.request with
  | .error fault => c.conclude pass (.error fault)
  | .ok request =>
    let (book, reply) := c.book.take request
    let c := { c with book }
    match reply.bind fun r => r.whole? c.now with
    | none => c
    | some (time, response) =>
      if time ≤ c.now then c.conclude pass (pass.call.readAnswer response)
      else { c with writes := c.writes ++ [(time, pass, response)] }

/-! ### Running -/

/-- The version arrives. -/
def discover (c : Cluster) (response : Http.Response) : Cluster :=
  { c with version := none }.withController fun controller =>
    controller.discovered (Api.readVersionAnswer response)

/-- Everything that is on its way. -/
def arrivals (c : Cluster) : List (Nat × ClusterArrival) :=
  (if c.following then
    (Kind.all.filterMap fun k => (c.feeds.get k).due?.map fun due => (due, .feed k)) ++
    c.nextResync?.toList.map fun due => (due, .resync)
  else []) ++
  c.version.toList.map (fun (time, response) => (time, .version response)) ++
  c.writes.map fun (time, pass, response) => (time, .written pass response)

/-- Something arrives. -/
def arrive (c : Cluster) : ClusterArrival → Cluster
  | .feed k => c.runFeed k (c.stepBound k)
  | .version response => c.discover response
  | .written pass response =>
    { c with writes := c.writes.filter fun w => w.2.1.worker ≠ pass.worker }.conclude pass
      (pass.call.readAnswer response)
  | .resync => c.resync

instance : Host Cluster ClusterArrival where
  controller := controller
  setController c controller := c.withController fun _ => controller
  perform c
    | .write pass => c.enter pass
    | .handOut .. => c
  arrivals := arrivals
  arrive c a := c.arrive a.2
  patience c := c.book.size

/-- Starts a run, which asks for the version first. -/
def start (c : Cluster) (workers : Nat) : Cluster :=
  let c := c.withController fun controller => controller.start workers
  match Api.versionRequest with
  | .error fault => c.withController fun controller => controller.discovered (.error fault)
  | .ok request =>
    let (book, reply) := c.book.take request
    { c with book, version := reply.bind fun r => r.whole? c.now }

/-- How the run has ended, if it has. -/
def exit? (c : Cluster) : Option Exit := c.controller.exit?

/-- Requests shutdown. -/
def shutDown (c : Cluster) : Cluster :=
  Host.settle ({ c with following := false }.withController Controller.cancel)

/-- Moves from time to time until the run has ended, so many times at most. -/
def finish : Nat → Cluster → Cluster
  | 0, c => c
  | fuel + 1, c =>
    if c.exit?.isSome then c
    else
      match Clocked.nextTime? c with
      | some time => finish fuel (Clocked.wake c time)
      | none => c

/-- Starts a run, shuts it down at some time and waits for its end; answers also whether it ended
before. -/
def run (c : Cluster) (workers stop : Nat) : Cluster × Bool :=
  let c := Clocked.advanceTo (c.start workers) stop
  let early := c.exit?.isSome
  let c := c.shutDown
  let bound := 2 + c.book.size + c.writes.length + c.controller.requeues.length
  (finish bound c, early)

end Cluster

end StorageFeatures
