import StorageFeatures.Proofs.Controller.System
import StorageFeatures.Proofs.Queue.Getters

/-!
# What an action does to a controller

`Work.Step` says what an action does to the work of a controller and leaves out who does the work.
`Controller.Step` lists the rest: what happens to the workers and to the phase of a run. Most
actions concern neither and only add keys; a worker has its turn, and comes back with a key, leaves
or goes to sleep; an open pass ends; and a run starts, looks at the caches, and is cancelled.

What follows about workers and phases is read off this list, which is `System.controller_step`.
-/

namespace StorageFeatures

/-- How a pass over a key ends that makes no write. -/
def Sync.verdict? (caches : Caches) (k : String) : Option (Except Fault Sync.Outcome) :=
  match Sync.decide caches k with
  | .error fault => some (.error fault)
  | .ok d =>
    match d.call? with
    | none => some (.ok d.outcome)
    | some _ => none

/-- Whether a worker runs or the write of a pass is answered. -/
def Action.isMove : Action → Bool
  | .turn _ | .land _ | .fail .. => true
  | _ => false

namespace Controller

variable {c c' c'' : Controller}

/-! ### What does not concern the crew -/

/-- The crew and the phase are the same, apart from who has been woken. -/
structure SameCrew (c c' : Controller) : Prop where
  config : c'.config = c.config
  phase : c'.phase = c.phase
  workers : c'.workers = c.workers
  ready : c'.ready = c.ready
  passes : c'.passes = c.passes
  queue : c.queue.Rouses c'.queue

namespace SameCrew

theorem refl (c : Controller) : c.SameCrew c := ⟨rfl, rfl, rfl, rfl, rfl, .refl _⟩

theorem trans (h : c.SameCrew c') (h' : c'.SameCrew c'') : c.SameCrew c'' :=
  ⟨h'.config.trans h.config, h'.phase.trans h.phase, h'.workers.trans h.workers,
    h'.ready.trans h.ready, h'.passes.trans h.passes, h.queue.trans h'.queue⟩

/-- The crew does not depend on the caches. -/
theorem withCaches (c : Controller) (caches : Caches) : c.SameCrew { c with caches } :=
  ⟨rfl, rfl, rfl, rfl, rfl, .refl _⟩

theorem withCancelled (c : Controller) : c.SameCrew { c with cancelled := true } :=
  ⟨rfl, rfl, rfl, rfl, rfl, .refl _⟩

/-- A key that is added may wake a worker, but moves none. -/
theorem enqueue (c : Controller) (k : String) : c.SameCrew (c.enqueue k) :=
  ⟨rfl, rfl, rfl, rfl, rfl, .add _ k⟩

theorem bringBack (c : Controller) (r : Requeue) : c.SameCrew (c.bringBack r) :=
  ⟨rfl, rfl, rfl, rfl, rfl, .add _ r.key⟩

theorem route {α : Type} [Watched α] (c : Controller) (e : Event α) : c.SameCrew (c.route e) := by
  unfold Controller.route
  generalize e.keys c.caches.storageClasses = ks
  induction ks generalizing c with
  | nil => exact refl c
  | cons k ks ih => exact (enqueue c k).trans (ih (c.enqueue k))

theorem routeAll {α : Type} [Watched α] (c : Controller) (events : List (Event α)) :
    c.SameCrew (events.foldl Controller.route c) := by
  induction events generalizing c with
  | nil => exact refl c
  | cons e events ih => exact (route c e).trans (ih (c.route e))

/-- A change that a watch reports moves no worker. -/
theorem observe {α : Type} [Watched α] (c : Controller) (change : Change α) :
    c.SameCrew (c.observe change).1 :=
  (withCaches c _).trans (routeAll _ _)

/-- The end of a pass lets its worker run next, and adds at most its key. -/
theorem finish (c : Controller) (worker : Nat) (k : String) (result : Except Fault Sync.Outcome) :
    SameCrew { c with ready := .worker worker :: c.ready } (c.finish worker k result) := by
  obtain ⟨metrics, hfinish⟩ := c.finish_eq k worker result
  rw [hfinish]
  refine ⟨rfl, rfl, rfl, rfl, rfl, .trans ?_ (.done _ k)⟩
  have heeded : c.queue.Rouses { c.queue with limiter := c.queue.limiter.heed k result } :=
    ⟨rfl, id, .refl _, .refl _⟩
  unfold noted
  split
  · exact heeded.trans (.add _ k)
  · exact heeded

/-- The worker of a pass whose write is answered runs next. -/
theorem conclude (c : Controller) (pass : Pass) (answer : Except Fault Unit) :
    SameCrew { c with
      passes := c.passes.erase pass
      ready := .worker pass.worker :: c.ready } (c.conclude pass answer) :=
  finish { c with passes := c.passes.erase pass } pass.worker pass.key _

end SameCrew

/-! ### The turn of a worker -/

/-- The end of a run is a matter of the phase alone. -/
theorem settleExit_eq (c : Controller) : c.settleExit = { c with phase := c.settleExit.phase } := by
  unfold settleExit
  split <;> rfl

/-- A controller whose worker has come back from the queue, or has gone to sleep there. -/
def polled (c : Controller) (worker : Nat) : Controller :=
  { c with
    queue := (c.queue.poll (.worker worker)).1
    ready := c.ready.erase (.worker worker) }

/-- What the turn of a worker comes to. -/
inductive Turn (c : Controller) (worker : Nat) : Controller → Prop where
  | sleeps (h : (c.queue.poll (.worker worker)).2 = .asleep) : Turn c worker (c.polled worker)
  | leaves (h : (c.queue.poll (.worker worker)).2 = .closed) :
      Turn c worker { c.polled worker with workers := c.workers - 1 }.settleExit
  /-- The worker makes a pass that ends at once. -/
  | settles {k : String} {result : Except Fault Sync.Outcome}
      (h : (c.queue.poll (.worker worker)).2 = .key k)
      (verdict : Sync.verdict? c.caches k = some result) :
      Turn c worker ((c.polled worker).finish worker k result)
  /-- The worker begins a pass that makes a write. -/
  | begins {k : String} {call : StoreCall} (h : (c.queue.poll (.worker worker)).2 = .key k)
      (verdict : Sync.verdict? c.caches k = none) :
      Turn c worker { c.polled worker with passes := c.passes ++ [⟨worker, k, call⟩] }

/-- A pass ends at once or waits for the answer to its write. -/
theorem begin_cases (c : Controller) (worker : Nat) (k : String) :
    (∃ result, Sync.verdict? c.caches k = some result ∧
      (c.begin worker k).1 = c.finish worker k result) ∨
    ∃ call, Sync.verdict? c.caches k = none ∧
      (c.begin worker k).1 = { c with passes := c.passes ++ [⟨worker, k, call⟩] } := by
  unfold begin Sync.verdict?
  cases Sync.decide c.caches k with
  | error fault => exact .inl ⟨_, rfl, rfl⟩
  | ok d =>
    dsimp only
    cases d.call? with
    | none => exact .inl ⟨_, rfl, rfl⟩
    | some call => exact .inr ⟨call, rfl, rfl⟩

/-- A worker sleeps, leaves, settles its key or begins a pass, and nothing else. -/
theorem turn_worker (c : Controller) (worker : Nat) :
    c.Turn worker (c.turn (.worker worker)).1 := by
  unfold Controller.turn
  cases hp : (c.queue.poll (.worker worker)).2 with
  | asleep =>
    simp only [hp]
    exact .sleeps hp
  | closed =>
    simp only [hp]
    exact .leaves hp
  | key k =>
    simp only [hp]
    rcases begin_cases (c.polled worker) worker k with ⟨result, hv, hb⟩ | ⟨call, hv, hb⟩
    · exact hb ▸ .settles hp hv
    · exact hb ▸ .begins hp hv

theorem closed_polled (c : Controller) (worker : Nat) :
    (c.polled worker).queue.keys.closed = c.queue.keys.closed := by
  show (c.queue.poll (.worker worker)).1.keys.closed = _
  rw [WorkQueue.keys_poll, KeyQueue.closed_hand]

/-! ### Everything that can happen -/

/-- An action lets a run look at the caches: a version was found new enough and the end of the wait
can be told, or it is time for another look. -/
inductive Looks (c : Controller) : Action → Prop where
  | discovered {workers : Nat} {raw : String} (phase : c.phase = .discovery workers)
      (admitted : c.config.obstacle c.now (.ok raw) = none) : Looks c (.discovered (.ok raw))
  | poll {workers : Nat} {deadline : Option Nat} {nextPoll : Nat}
      (phase : c.phase = .sync workers deadline nextPoll) : Looks c .poll

/-- The phase says how a run has ended. -/
theorem exit?_eq_some_iff {exit : Exit} : c.exit? = some exit ↔ c.phase = .ended exit := by
  unfold exit?
  cases c.phase <;> simp

/-- What an action does to a controller. -/
inductive Step (c : Controller) : Action → Controller → Prop where
  /-- At most some keys are added. -/
  | routine {a : Action} {c' : Controller} (same : c.SameCrew c') (ks : List String)
      (keys : c'.queue.keys = c.queue.keys.addAll ks) (quiet : a.isMove = false) : Step c a c'
  | turn {worker : Nat} {c' : Controller}
      (enabled : .worker worker ∈ c.ready ∨ .worker worker ∈ c.queue.wakeup.woken)
      (turned : c.Turn worker c') : Step c (.turn worker) c'
  | land {pass : Pass} (mem : pass ∈ c.passes) (caches : Caches) (answer : Except Fault Unit) :
      Step c (.land pass) (conclude { c with caches } pass answer)
  | fail {pass : Pass} (mem : pass ∈ c.passes) (fault : Fault) :
      Step c (.fail pass fault) (c.conclude pass (.error fault))
  | start {workers : Nat} (phase : c.phase = .idle) : Step c (.start workers) (c.start workers)
  | refused {workers : Nat} {reported : Except Fault String} {exit : Exit}
      (phase : c.phase = .discovery workers)
      (obstacle : c.config.obstacle c.now reported = some exit) :
      Step c (.discovered reported) (c.endRun exit)
  | look {a : Action} (looks : c.Looks a) (workers : Nat) (deadline : Option Nat) :
      Step c a (c.pollCaches workers deadline)
  /-- Shutdown is requested before the workers start. -/
  | giveUp {workers : Nat} {deadline : Option Nat} {nextPoll : Nat}
      (phase : c.phase = .sync workers deadline nextPoll) :
      Step c .cancel (endRun { c with cancelled := true } .completed)
  | shutDown (phase : c.phase = .running) : Step c .cancel (drain { c with cancelled := true })

/-- The caches are looked at only before the workers start and before the run ends. -/
theorem Looks.phase {a : Action} (looks : c.Looks a) :
    c.phase ≠ .running ∧ c.phase ≠ .draining ∧ c.phase ≠ .ended .completed := by
  cases looks with
  | discovered phase | poll phase =>
    rw [phase]
    exact ⟨nofun, nofun, nofun⟩

/-- Looking at the caches is no move of a worker. -/
theorem Looks.isMove {a : Action} (looks : c.Looks a) : a.isMove = false := by
  cases looks <;> rfl

/-- The answer about the version ends the run or leads to the first look at the caches. -/
theorem step_discovered (c : Controller) (reported : Except Fault String) :
    c.Step (.discovered reported) (c.discovered reported) := by
  unfold discovered
  split
  · rename_i workers hphase
    cases hobstacle : c.config.obstacle c.now reported with
    | some exit => exact .refused hphase hobstacle
    | none =>
      cases reported with
      | error fault => cases hobstacle
      | ok raw => exact .look (.discovered hphase hobstacle) _ _
  · exact .routine (.refl c) [] rfl rfl

/-- A poll is a look at the caches while they are waited for, and nothing otherwise. -/
theorem step_poll (c : Controller) : c.Step .poll c.poll := by
  unfold poll
  split
  · rename_i hphase
    exact .look (.poll hphase) _ _
  · exact .routine (.refl c) [] rfl rfl

/-- A shutdown ends a wait, closes the queue of a running controller, and is only noted otherwise.
-/
theorem step_cancel (c : Controller) : c.Step .cancel c.cancel := by
  unfold cancel
  dsimp only
  split
  · rename_i hphase
    exact .giveUp hphase
  · rename_i hphase
    exact .shutDown hphase
  · exact .routine (.withCancelled c) [] rfl rfl

/-- Shutdown is a matter of the queue and the phase. -/
theorem drain_eq (c : Controller) :
    c.drain = { c with queue := c.queue.shutDown, phase := c.drain.phase } :=
  settleExit_eq _

/-- A look at the caches is a matter of the phase, and of the workers if they start. -/
theorem pollCaches_eq (c : Controller) (workers : Nat) (deadline : Option Nat) :
    ∃ queue ready workers' phase, c.pollCaches workers deadline =
      { c with queue, ready, workers := workers', phase } := by
  unfold pollCaches
  split
  · unfold launch
    dsimp only
    split
    · rw [drain_eq]
      exact ⟨_, _, _, _, rfl⟩
    · exact ⟨_, _, _, _, rfl⟩
  · split
    · exact ⟨_, _, _, _, rfl⟩
    · split <;> exact ⟨_, _, _, _, rfl⟩

/-- The settings stay as they are. -/
theorem Step.config {a : Action} (step : c.Step a c') : c'.config = c.config := by
  cases step with
  | routine same => exact same.config
  | turn enabled turned =>
    cases turned with
    | sleeps | begins => rfl
    | leaves =>
      rw [settleExit_eq]
      rfl
    | settles => exact (SameCrew.finish (c.polled _) _ _ _).config
  | land mem caches answer => exact (SameCrew.conclude { c with caches } _ _).config
  | fail mem fault => exact (SameCrew.conclude c _ _).config
  | start | refused | giveUp => rfl
  | look looks workers deadline =>
    obtain ⟨_, _, _, _, hlook⟩ := c.pollCaches_eq workers deadline
    rw [hlook]
  | shutDown => rw [drain_eq]

end Controller

/-- **Nothing else happens to the workers.** -/
theorem System.controller_step {s : System} {a : Action} (enabled : s.Enabled a) :
    s.controller.Step a (s.next a).controller := by
  cases a with
  | observe k change =>
    have hwork := congrArg Work.keys (Controller.work_observe s s.controller change)
    exact .routine (.observe _ change) _ hwork rfl
  | resync k =>
    have hwork := congrArg Work.keys (Controller.work_routeAll s s.controller
      ((Watched.cache s.controller.caches : Cache k.Object).resync))
    exact .routine (.routeAll _ _) _ hwork rfl
  | add k => exact .routine (.enqueue _ k) [k] rfl rfl
  | bringBack r => exact .routine (.bringBack _ r) [r.key] rfl rfl
  | wait | inject => exact .routine ⟨rfl, rfl, rfl, rfl, rfl, .refl _⟩ [] rfl rfl
  | turn worker => exact .turn enabled (s.controller.turn_worker worker)
  | land pass => exact .land enabled _ _
  | fail pass fault => exact .fail enabled fault
  | start workers => exact .start enabled
  | discovered reported => exact Controller.step_discovered _ reported
  | poll => exact Controller.step_poll _
  | cancel => exact Controller.step_cancel _

end StorageFeatures
