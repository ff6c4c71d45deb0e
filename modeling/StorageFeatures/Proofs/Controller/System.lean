import StorageFeatures.Proofs.Controller.Finish
import StorageFeatures.Proofs.Controller.Work
import StorageFeatures.Proofs.Queue.Wakeups
import Mathlib.Logic.Relation

/-!
# Runs of a controller with its store

A `System` is a controller together with the store that keeps its objects in the controller's
caches. Watches report changes, timers go off, workers run, and the writes of open passes land or
fail; `System.Run allowed` are the runs of any length, in which every action is enabled and
allowed.

The main result is `System.step_work`: every action does to the work of the system what `Work.Step`
says. That workers run only after all caches have synced is part of it (`Controller.Staffed`).
-/

namespace StorageFeatures

/-- A controller and the store that it writes to. -/
structure System where
  controller : Controller
  store : MemoryStore := {}
  /-- The writes of passes that have succeeded, in order. -/
  landed : List StoreCall := []

namespace System

def withController (s : System) (f : Controller → Controller) : System :=
  { s with controller := f s.controller }

/-- The write of a pass reaches the store, and the pass ends with its answer. -/
def land (s : System) (pass : Pass) : System :=
  let (store, caches, answer) := s.store.run s.controller.caches pass.call
  { controller := { s.controller with caches }.conclude pass (answer.map fun _ => ())
    store
    landed := s.landed ++ if answer.toOption.isSome then [pass.call] else [] }

/-- The system after an action. -/
def next (s : System) : Action → System
  | .observe _ change => s.withController fun c => (c.observe change).1
  | .resync k => s.withController fun c => (c.resync k.Object).1
  | .add k => s.withController (·.enqueue k)
  | .bringBack r => s.withController (·.bringBack r)
  | .wait time => s.withController fun c => { c with now := time }
  | .turn worker => s.withController fun c => (c.turn (.worker worker)).1
  | .land pass => s.land pass
  | .fail pass fault => s.withController (·.conclude pass (.error fault))
  | .inject fault => { s with store := { s.store with failNext := some fault } }
  | .start workers => s.withController (·.start workers)
  | .discovered reported => s.withController (·.discovered reported)
  | .poll => s.withController (·.poll)
  | .cancel => s.withController (·.cancel)

/-- When an action can happen: timers go off when they are due, only workers that are ready or
woken run, only open passes end, and a controller is started once. -/
def Enabled (s : System) : Action → Prop
  | .bringBack r => r ∈ s.controller.requeues ∧ r.due ≤ s.controller.now
  | .wait time => s.controller.now ≤ time
  | .turn worker => .worker worker ∈ s.controller.ready ∨
      .worker worker ∈ s.controller.queue.wakeup.woken
  | .land pass | .fail pass _ => pass ∈ s.controller.passes
  | .start _ => s.controller.phase = .idle
  | _ => True

instance (s : System) : DecidablePred s.Enabled
  | .bringBack r => inferInstanceAs (Decidable (r ∈ s.controller.requeues ∧ r.due ≤ _))
  | .wait time => inferInstanceAs (Decidable (_ ≤ time))
  | .turn worker => inferInstanceAs (Decidable (Getter.worker worker ∈ _ ∨ _))
  | .land pass | .fail pass _ => inferInstanceAs (Decidable (pass ∈ s.controller.passes))
  | .start _ => inferInstanceAs (Decidable (s.controller.phase = .idle))
  | .observe .. | .resync _ | .add _ | .inject _ | .discovered _ | .poll | .cancel =>
    inferInstanceAs (Decidable True)

/-- The system after some actions, if each of them could happen. -/
def follow (s : System) : List Action → Option System
  | [] => some s
  | a :: actions => if s.Enabled a then (s.next a).follow actions else none

/-- The system after one allowed action. -/
def Step (allowed : Action → Prop) (s s' : System) : Prop :=
  ∃ a, allowed a ∧ s.Enabled a ∧ s' = s.next a

/-- Some sequence of allowed actions leads from one system to another. -/
def Run (allowed : Action → Prop) : System → System → Prop := Relation.ReflTransGen (Step allowed)

end System

/-! ### What the operations of a controller do to the work -/

/-- What a system keeps of its work. -/
def System.work (s : System) : Work where
  caches := s.controller.caches
  keys := s.controller.queue.keys
  passes := s.controller.passes
  requeues := s.controller.requeues
  store := s.store
  landed := s.landed

namespace Controller

/-- The work of a controller beside a store. -/
def work (c : Controller) (s : System) : Work := { s with controller := c }.work

variable {c : Controller} (s : System)

theorem work_route {α : Type} [Watched α] (c : Controller) (e : Event α) :
    (c.route e).work s = (c.work s).addAll (e.keys c.caches.storageClasses) := by
  unfold route
  generalize e.keys c.caches.storageClasses = ks
  induction ks generalizing c with
  | nil => rfl
  | cons k ks ih => exact ih (c.enqueue k)

theorem work_routeAll {α : Type} [Watched α] (c : Controller) (events : List (Event α)) :
    (events.foldl route c).work s =
      (c.work s).addAll (events.flatMap (Event.keys c.caches.storageClasses)) := by
  induction events generalizing c with
  | nil => rfl
  | cons e events ih =>
    have hroute := work_route s c e
    have hcaches : (c.route e).caches = c.caches := congrArg Work.caches hroute
    refine (ih (c.route e)).trans ?_
    rw [hroute, hcaches, List.flatMap_cons]
    simp only [Work.addAll, KeyQueue.addAll_append]

theorem work_observe {α : Type} [Watched α] (c : Controller) (change : Change α) :
    (c.observe change).1.work s = (c.work s).observe change :=
  work_routeAll s _ _

/-- **The end of a pass.** A key whose pass has met a fault that is worth retrying is owed another
pass, unless the queue is closed. -/
theorem ended_finish (c : Controller) (worker : Nat) (k : String)
    (result : Except Fault Sync.Outcome) :
    Work.Ended (c.work s) k ((c.finish worker k result).work s) ∧
      ∀ fault, result = .error fault → fault.isRetryable = true →
        c.queue.keys.closed = false → ((c.finish worker k result).work s).Owes k := by
  obtain ⟨metrics, hfinish⟩ := c.finish_eq k worker result
  rw [hfinish]
  cases hagain : c.again? k result with
  | none =>
    rw [noted_none]
    refine ⟨.forget, ?_⟩
    -- beside an open queue a fault that is worth a retry has a delay
    rintro fault rfl hretry hopen
    obtain ⟨delay, hsome⟩ := c.exists_again k hopen hretry
    rw [hagain] at hsome
    cases hsome
  | some delay =>
    have hopen : c.queue.keys.closed = false := by
      by_contra hclosed
      simp [again?, hclosed] at hagain
    cases delay with
    | zero =>
      rw [noted_zero]
      refine ⟨.again, fun _ _ _ _ => .inl ?_⟩
      exact (congrArg (·.contains k) (KeyQueue.dirty_done _ k)).trans (KeyQueue.dirty_add hopen k)
    | succ delay =>
      rw [noted_succ]
      exact ⟨.later _, fun _ _ _ _ =>
        .inr ⟨_, List.mem_append_right _ (List.mem_singleton_self _), rfl⟩⟩

/-- Whether the run ends does not concern the work. -/
theorem work_settleExit (c : Controller) : c.settleExit.work s = c.work s := by
  unfold settleExit
  split <;> rfl

/-- Shutdown closes the queue. -/
theorem work_drain (c : Controller) :
    c.drain.work s = { c.work s with keys := c.queue.keys.close } :=
  work_settleExit s _

/-- A look at the caches may close the queue, if shutdown was requested before. -/
theorem step_pollCaches (c : Controller) (a : Action) (workers : Nat) (deadline : Option Nat) :
    Work.Step (c.work s) a ((c.pollCaches workers deadline).work s) := by
  unfold pollCaches
  split
  · unfold launch
    dsimp only
    split
    · rw [work_drain]
      exact .close a
    · exact .idle a
  · split
    · exact .idle a
    · split <;> exact .idle a

/-- A worker makes a pass that ends at once or begins one that makes a write. -/
theorem step_begin {c : Controller} {before : KeyQueue} {worker : Nat} {k : String}
    (take : before.take? = some (k, c.queue.keys)) (synced : c.caches.allSynced = true) :
    Work.Step { c.work s with keys := before } (.turn worker) ((c.begin worker k).1.work s) := by
  -- a pass that ends at once
  have settled : ∀ result, Sync.ask c.caches k = none →
      Work.Step { c.work s with keys := before } (.turn worker)
        ((c.finish worker k result).work s) := fun result hask =>
    Work.Step.settle (w := { c.work s with keys := before }) take synced hask
      (ended_finish s c worker k result).1
  unfold begin
  cases hd : Sync.decide c.caches k with
  | error fault => exact settled _ (Sync.ask_eq_none_of_decide synced hd)
  | ok d =>
    have hcall := Sync.call?_of_decide hd
    cases hask : d.call? with
    | none =>
      simp only [hask]
      exact settled _ (hcall.symm.trans hask)
    | some call =>
      simp only [hask]
      exact Work.Step.begin (w := { c.work s with keys := before }) take synced
        (hcall.symm.trans hask)

/-- The turn of a worker is a step of the work, once all caches have synced. -/
theorem step_turn {c : Controller} (worker : Nat) (synced : c.caches.allSynced = true) :
    Work.Step (c.work s) (.turn worker) ((c.turn (.worker worker)).1.work s) := by
  have hkeys := WorkQueue.keys_poll c.queue (.worker worker)
  have hpolled := WorkQueue.polled_poll c.queue (.worker worker)
  unfold turn
  generalize c.queue.poll (.worker worker) = r at hkeys hpolled
  obtain ⟨queue, polled⟩ := r
  dsimp only at hkeys hpolled ⊢
  -- a worker that finds no key leaves the work as it is
  have nothing : (∀ k, polled ≠ .key k) →
      c.work s = { c with queue, ready := c.ready.erase (.worker worker) }.work s := by
    intro hnone
    have hsame : queue.keys = c.queue.keys :=
      hkeys.trans (KeyQueue.hand_snd_of_ne_key fun k hk => hnone k (hpolled.trans hk))
    simp only [work, System.work, hsame]
  cases polled with
  | key k =>
    refine step_begin s (c := { c with queue, ready := c.ready.erase (.worker worker) }) ?_ synced
    exact hkeys ▸ KeyQueue.hand_fst_eq_key_iff.mp hpolled.symm
  | closed =>
    dsimp only
    rw [work_settleExit, nothing nofun]
    exact .idle _
  | asleep =>
    rw [nothing nofun]
    exact .idle _

/-- A pass whose write fails on its way ends with a step of the work. -/
theorem step_conclude {c : Controller} {pass : Pass} (mem : pass ∈ c.passes) (fault : Fault) :
    Work.Step (c.work s) (.fail pass fault) ((c.conclude pass (.error fault)).work s) := by
  have ended := ended_finish s { c with passes := c.passes.erase pass } pass.worker pass.key
    (Sync.conclude pass.call (.error fault))
  refine Work.Step.fail (w := c.work s) pass mem ended.1 fun haction hcall hopen => ?_
  refine ended.2 fault ?_ (by simp [Fault.isRetryable, haction]) hopen
  cases hpass : pass.call with
  | deleteCapability n => exact absurd hpass (hcall n)
  | _ => rfl

end Controller

namespace System

variable {s : System} {a : Action}

/-- A pass whose write is answered ends with a step of the work. -/
theorem step_land {pass : Pass} (mem : pass ∈ s.controller.passes) :
    Work.Step s.work (.land pass) (s.land pass).work := by
  unfold land
  generalize hrun : s.store.run s.controller.caches pass.call = r
  obtain ⟨store, caches, answer⟩ := r
  dsimp only
  have ended := Controller.ended_finish
    { s with store, landed := s.landed ++ if answer.toOption.isSome then [pass.call] else [] }
    { s.controller with caches, passes := s.controller.passes.erase pass } pass.worker pass.key
    (Sync.conclude pass.call (answer.map fun _ => ()))
  exact Work.Step.land (w := s.work) pass mem hrun ended.1

end System

/-! ### Workers run only after all caches have synced -/

namespace Controller

variable {c : Controller}

/-- Nobody takes keys from the queue. -/
structure Unstaffed (c : Controller) : Prop where
  ready : c.ready = []
  registered : c.queue.wakeup.registered = []
  passes : c.passes = []

/-- A controller has getters and open passes only once all caches have synced. -/
def Staffed (c : Controller) : Prop := c.caches.allSynced = true ∨ c.Unstaffed

/-- A key that is added finds nobody to take it. -/
theorem Unstaffed.add (h : c.Unstaffed) (k : String) :
    ({ c with queue := c.queue.add k } : Controller).Unstaffed := by
  refine ⟨h.ready, ?_, h.passes⟩
  show (if (c.queue.keys.add k).2 then c.queue.wakeup.wakeOne else c.queue.wakeup).registered = []
  split
  · exact (h.registered ▸ Wakeup.registered_wakeOne_perm c.queue.wakeup).eq_nil
  · exact h.registered

theorem Unstaffed.routeAll {α : Type} [Watched α] (events : List (Event α)) (h : c.Unstaffed) :
    (events.foldl route c).Unstaffed := by
  have enqueued : ∀ (ks : List String) {c : Controller}, c.Unstaffed →
      (ks.foldl enqueue c).Unstaffed := by
    intro ks
    induction ks with
    | nil => exact id
    | cons k ks ih =>
      intro c hc
      exact ih (c := c.enqueue k) ⟨(hc.add k).ready, (hc.add k).registered, (hc.add k).passes⟩
  induction events generalizing c with
  | nil => exact h
  | cons e events ih => exact ih (enqueued _ h)

theorem Unstaffed.drain (h : c.Unstaffed) : c.drain.Unstaffed := by
  have hclosed : (c.queue.shutDown.wakeup).registered = [] :=
    (h.registered ▸ Wakeup.registered_wakeAll_perm c.queue.wakeup).eq_nil
  unfold Controller.drain settleExit
  split <;> exact ⟨h.ready, hclosed, h.passes⟩

/-- Workers are started by a look at synced caches. -/
theorem Unstaffed.pollCaches (h : c.Unstaffed) (workers : Nat) (deadline : Option Nat) :
    (c.pollCaches workers deadline).Staffed := by
  unfold Controller.pollCaches
  split
  · rename_i hs
    refine .inl ?_
    unfold launch
    dsimp only
    split
    · exact (congrArg (Caches.allSynced <| Work.caches ·)
        (work_drain { controller := c } _)).trans hs
    · exact hs
  · refine .inr ?_
    split
    · exact ⟨h.ready, h.registered, h.passes⟩
    · split <;> exact ⟨h.ready, h.registered, h.passes⟩

end Controller

namespace System

variable {s : System} {a : Action}

/-- A worker that has its turn was started after all caches had synced. -/
theorem allSynced_of_turn (h : s.controller.Staffed) {worker : Nat}
    (enabled : s.Enabled (.turn worker)) : s.controller.caches.allSynced = true := by
  refine h.resolve_right fun hnone => ?_
  rcases enabled with hm | hm
  · simp [hnone.ready] at hm
  · have hm := List.mem_append_right s.controller.queue.wakeup.waiting hm
    rw [show _ ++ _ = _ from hnone.registered] at hm
    cases hm

/-- **Nothing else happens.** Every action of a system does to its work what `Work.Step` says. -/
theorem step_work (h : s.controller.Staffed) (enabled : s.Enabled a) :
    Work.Step s.work a (s.next a).work := by
  cases a with
  | observe k change =>
    rw [show (s.next (.observe k change)).work = s.work.observe change from
      Controller.work_observe s s.controller change]
    exact .observe k change
  | resync k =>
    rw [show (s.next (.resync k)).work = s.work.addAll _ from
      Controller.work_routeAll s s.controller _]
    exact .resync k _
  | add k => exact .add k
  | bringBack r => exact .bringBack enabled.1
  | wait | start => exact .idle _
  | turn worker => exact Controller.step_turn s worker (allSynced_of_turn h enabled)
  | land pass => exact step_land enabled
  | fail pass fault => exact Controller.step_conclude s enabled fault
  | inject fault => exact .inject fault
  | discovered reported =>
    show Work.Step s.work _ ((s.controller.discovered reported).work s)
    unfold Controller.discovered
    split
    · split
      · exact .idle _
      · exact Controller.step_pollCaches s _ _ _ _
    · exact .idle _
  | poll =>
    show Work.Step s.work _ (s.controller.poll.work s)
    unfold Controller.poll
    split
    · exact Controller.step_pollCaches s _ _ _ _
    · exact .idle _
  | cancel =>
    show Work.Step s.work _ (s.controller.cancel.work s)
    unfold Controller.cancel
    dsimp only
    split
    · exact .idle _
    · rw [Controller.work_drain]
      exact .close _
    · exact .idle _

/-- Every action keeps that workers run only after all caches have synced. -/
theorem staffed_next (h : s.controller.Staffed) (enabled : s.Enabled a) :
    (s.next a).controller.Staffed := by
  have step := step_work h enabled
  rcases h with hs | hnone
  · exact .inl (step.allSynced hs)
  -- only the launch of the workers ends that nobody takes keys, and it looks at the caches first
  cases a with
  | observe k change => exact .inr (Controller.Unstaffed.routeAll _ ⟨hnone.1, hnone.2, hnone.3⟩)
  | resync k => exact .inr (hnone.routeAll _)
  | add k => exact .inr ⟨(hnone.add k).1, (hnone.add k).2, (hnone.add k).3⟩
  | bringBack r => exact .inr ⟨(hnone.add r.key).1, (hnone.add r.key).2, (hnone.add r.key).3⟩
  | wait | start | inject => exact .inr ⟨hnone.1, hnone.2, hnone.3⟩
  | turn worker => exact .inl (step.allSynced (allSynced_of_turn (.inr hnone) enabled))
  | land pass | fail pass fault =>
    rw [Enabled, hnone.passes] at enabled
    cases enabled
  | discovered reported =>
    show (s.controller.discovered reported).Staffed
    unfold Controller.discovered
    split
    · split
      · exact .inr ⟨hnone.1, hnone.2, hnone.3⟩
      · exact hnone.pollCaches _ _
    · exact .inr hnone
  | poll =>
    show s.controller.poll.Staffed
    unfold Controller.poll
    split
    · exact hnone.pollCaches _ _
    · exact .inr hnone
  | cancel =>
    show s.controller.cancel.Staffed
    unfold Controller.cancel
    dsimp only
    split
    · exact .inr ⟨hnone.1, hnone.2, hnone.3⟩
    · exact .inr (Controller.Unstaffed.drain ⟨hnone.1, hnone.2, hnone.3⟩)
    · exact .inr ⟨hnone.1, hnone.2, hnone.3⟩

/-- A system that has not started. -/
def fresh (config : ControllerConfig) (metrics : Option Metrics) (caches : Caches)
    (store : MemoryStore) : System :=
  { controller := { Controller.fresh config metrics with caches }, store }

/-- At the beginning nobody takes keys. -/
theorem staffed_fresh (config : ControllerConfig) (metrics : Option Metrics) (caches : Caches)
    (store : MemoryStore) : (fresh config metrics caches store).controller.Staffed :=
  .inr ⟨rfl, rfl, rfl⟩

variable {s' : System} {allowed : Action → Prop}

/-- Every run keeps workers away until the caches have synced. -/
theorem Run.staffed (run : Run allowed s s') (h : s.controller.Staffed) :
    s'.controller.Staffed := by
  induction run with
  | refl => exact h
  | tail _ step ih =>
    obtain ⟨a, -, enabled, rfl⟩ := step
    exact staffed_next ih enabled

/-- Actions that can be followed one after another make a run. -/
theorem run_of_follow {actions : List Action} (ok : ∀ a ∈ actions, allowed a)
    (h : s.follow actions = some s') : Run allowed s s' := by
  induction actions generalizing s with
  | nil =>
    cases h
    exact .refl
  | cons a actions ih =>
    unfold follow at h
    split at h
    · rename_i enabled
      have step : Step allowed s (s.next a) := ⟨a, ok a List.mem_cons_self, enabled, rfl⟩
      exact .head step (ih (fun b hb => ok b (List.mem_cons_of_mem a hb)) h)
    · cases h

/-- What every step of the work keeps holds of the work after every run. -/
theorem Run.preserves (run : Run allowed s s') (hs : s.controller.Staffed) {P : Work → Prop}
    (kept : ∀ {w w' : Work} {a : Action}, allowed a → Work.Step w a w' → P w → P w')
    (h : P s.work) : P s'.work := by
  induction run with
  | refl => exact h
  | tail run step ih =>
    obtain ⟨a, ok, enabled, rfl⟩ := step
    exact kept ok (step_work (Run.staffed run hs) enabled) ih

/-! ### A system for examples -/

/-- A class. -/
def sampleClass : StorageClass := { metadata := { name := some "fast" }, provisioner := "disk" }

/-- What the provisioner of the class has published. -/
def sampleProvisioner : ProvisionerCapability :=
  { metadata := { name := some "disk" }, spec := { plugin := ⟨"disk", "1"⟩ } }

/-- The pass over the class once its provisioner has published. -/
def samplePass : Pass := ⟨0, "fast", .createCapability (.derive sampleClass none sampleProvisioner)⟩

end System

end StorageFeatures
