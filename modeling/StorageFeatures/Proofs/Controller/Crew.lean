import StorageFeatures.Proofs.Controller.Step

/-!
# The crew of a controller

The crew are the workers that have started and not left. Each of them is in one place: it runs
next, it is registered with the queue, or it makes a pass. `Controller.Manned` says so, together
with what the phase of the controller tells about it:

* there are workers while the controller is running or draining, and at no other time;
* the queue is closed only once the controller drains, and then nobody waits.

Every action keeps this (`System.manned_next`). Since a worker that makes a pass is counted by that
pass, a pass cannot lose its worker, and the last worker leaves only when no pass is open.
-/

namespace StorageFeatures

namespace Controller

variable {c c' : Controller}

/-- The workers that run next, those that are registered with the queue, and those that make a
pass. -/
def crew (c : Controller) : List Getter :=
  c.ready ++ c.queue.wakeup.registered ++ c.passes.map fun pass => .worker pass.worker

theorem SameCrew.crew (h : c.SameCrew c') : c'.crew.Perm c.crew := by
  unfold Controller.crew
  rw [h.ready, h.passes]
  exact (h.queue.registered.append_left _).append_right _

/-! ### Everyone is in one place -/

/-- Each worker that has started and not left is in one place, and whether there are any follows
from the phase. -/
structure Manned (c : Controller) : Prop where
  valid : c.queue.wakeup.Valid
  nodup : c.crew.Nodup
  length : c.crew.length = c.workers
  isWorker : ∀ g ∈ c.crew, ∃ id, g = .worker id
  workers_ne_zero_iff : c.workers ≠ 0 ↔ c.phase = .running ∨ c.phase = .draining
  /-- The queue is closed by a shutdown only. -/
  phase_of_closed : c.queue.keys.closed = true →
    c.phase = .draining ∨ c.phase = .ended .completed
  /-- Nobody waits at a closed queue. -/
  waiting_of_closed : c.queue.keys.closed = true → c.queue.wakeup.waiting = []

namespace Manned

/-- A controller with the same crew in other places is manned. -/
theorem of_perm (h : c.Manned) (crew : c'.crew.Perm c.crew) (phase : c'.phase = c.phase)
    (workers : c'.workers = c.workers) (closed : c'.queue.keys.closed = c.queue.keys.closed)
    (valid : c'.queue.wakeup.Valid)
    (waiting : c.queue.keys.closed = true →
      c'.queue.wakeup.waiting ⊆ c.queue.wakeup.waiting) : c'.Manned := by
  refine ⟨valid, crew.nodup_iff.mpr h.nodup, ?_, fun g hg => ?_, ?_, fun hc => ?_, fun hc => ?_⟩
  · exact crew.length_eq.trans (h.length.trans workers.symm)
  · exact h.isWorker g (crew.mem_iff.mp hg)
  · rw [workers, phase]
    exact h.workers_ne_zero_iff
  · rw [phase]
    exact h.phase_of_closed (closed.symm.trans hc)
  · have hclosed := closed.symm.trans hc
    have hsub := waiting hclosed
    rw [h.waiting_of_closed hclosed] at hsub
    exact List.subset_nil.mp hsub

theorem sameCrew (h : c.Manned) (same : c.SameCrew c') : c'.Manned :=
  h.of_perm same.crew same.phase same.workers same.queue.closed (same.queue.valid h.valid)
    fun _ => same.queue.waiting.subset

/-- A member of the crew shows that the controller is running or draining. -/
theorem phase_of_mem (h : c.Manned) {g : Getter} (hg : g ∈ c.crew) :
    c.phase = .running ∨ c.phase = .draining := by
  have hlength := List.length_pos_of_mem hg
  rw [h.length] at hlength
  exact h.workers_ne_zero_iff.mp (Nat.pos_iff_ne_zero.mp hlength)

/-- Before the workers start and after the last has left there is no crew. -/
theorem crew_eq_nil (h : c.Manned) (hr : c.phase ≠ .running) (hd : c.phase ≠ .draining) :
    c.crew = [] := by
  refine List.eq_nil_iff_forall_not_mem.mpr fun g hg => ?_
  rcases h.phase_of_mem hg with hphase | hphase
  · exact hr hphase
  · exact hd hphase

theorem workers_eq_zero (h : c.Manned) (hr : c.phase ≠ .running) (hd : c.phase ≠ .draining) :
    c.workers = 0 := by
  by_contra hne
  exact (h.workers_ne_zero_iff.mp hne).elim hr hd

/-- The crew without the worker whose turn it is. -/
theorem crew_polled (h : c.Manned) {worker : Nat}
    (enabled : .worker worker ∈ c.ready ∨ .worker worker ∈ c.queue.wakeup.woken) :
    .worker worker ∈ c.crew ∧ (c.polled worker).queue.wakeup.Valid ∧
      ((c.queue.poll (.worker worker)).2 = .asleep → (c.polled worker).crew.Perm c.crew) ∧
      ((c.queue.poll (.worker worker)).2 ≠ .asleep →
        (c.polled worker).crew.Perm (c.crew.erase (.worker worker)) ∧
        (c.polled worker).queue.wakeup.waiting ⊆ c.queue.wakeup.waiting) := by
  have hnodup := (List.nodup_append.mp h.nodup).1
  obtain ⟨hready, hregistered, hapart⟩ := List.nodup_append.mp hnodup
  have hwoken : ∀ {g}, g ∈ c.queue.wakeup.woken → g ∈ c.queue.wakeup.registered :=
    fun hg => List.mem_append_right _ hg
  -- a worker that may run does not wait
  have hwaits : .worker worker ∉ c.queue.wakeup.waiting := by
    intro hw
    rcases enabled with he | he
    · exact hapart _ he _ (List.mem_append_left _ hw) rfl
    · exact (List.nodup_append.mp hregistered).2.2 _ hw _ he rfl
  have hmem : .worker worker ∈ c.ready ++ c.queue.wakeup.registered :=
    List.mem_append.mpr (enabled.imp_right hwoken)
  -- it is in one of two lists, so it can be taken out of both
  have herase : c.ready.erase (.worker worker) ++ c.queue.wakeup.registered.erase (.worker worker) =
      (c.ready ++ c.queue.wakeup.registered).erase (.worker worker) := by
    by_cases hr : .worker worker ∈ c.ready
    · have hnot : .worker worker ∉ c.queue.wakeup.registered :=
        fun hm => hapart _ hr _ hm rfl
      rw [List.erase_of_not_mem hnot, List.erase_append_left _ hr]
    · rw [List.erase_of_not_mem hr, List.erase_append_right _ hr]
  have hcrew : c.crew.erase (.worker worker) =
      c.ready.erase (.worker worker) ++ c.queue.wakeup.registered.erase (.worker worker) ++
        c.passes.map fun pass => .worker pass.worker := by
    rw [herase]
    exact List.erase_append_left _ hmem
  have hcrewmem : .worker worker ∈ c.crew := List.mem_append_left _ hmem
  by_cases hp : (c.queue.poll (.worker worker)).2 = .asleep
  · obtain ⟨valid, registered⟩ := WorkQueue.registered_poll_of_asleep h.valid hwaits hp
    refine ⟨hcrewmem, valid, fun _ => ?_, fun hne => absurd hp hne⟩
    refine List.Perm.trans ?_ (List.perm_cons_erase hcrewmem).symm
    rw [hcrew]
    refine ((registered.append_left _).append_right _).trans ?_
    rw [List.append_assoc, List.append_assoc]
    exact List.perm_middle
  · obtain ⟨valid, registered, waiting⟩ :=
      WorkQueue.registered_poll_of_ne_asleep h.valid hwaits hp
    refine ⟨hcrewmem, valid, fun he => absurd he hp, fun _ => ⟨?_, waiting⟩⟩
    rw [hcrew]
    exact (registered.append_left _).append_right _

/-! ### What keeps everyone in one place -/

/-- A worker whose pass ends is ready again. -/
theorem conclude (h : c.Manned) {pass : Pass} (mem : pass ∈ c.passes)
    (answer : Except Fault Unit) : (c.conclude pass answer).Manned := by
  -- the worker moves from its pass to those who run next
  have moved : (c.passes.map fun p => Getter.worker p.worker).Perm
      (.worker pass.worker :: (c.passes.erase pass).map fun p => .worker p.worker) :=
    (List.perm_cons_erase mem).map fun p => Getter.worker p.worker
  have readied : Manned { c with
      passes := c.passes.erase pass
      ready := .worker pass.worker :: c.ready } :=
    h.of_perm (List.perm_middle.symm.trans (moved.symm.append_left _)) rfl rfl rfl h.valid
      fun _ => List.Subset.refl _
  exact readied.sameCrew (.conclude c pass answer)

/-- A worker leaves only a closed queue, and the last one ends the run. -/
theorem leave (h : c.Manned) {worker : Nat} (mem : .worker worker ∈ c.crew)
    (closed : c.queue.keys.closed = true)
    (crew : (c.polled worker).crew.Perm (c.crew.erase (.worker worker)))
    (valid : (c.polled worker).queue.wakeup.Valid)
    (waiting : (c.polled worker).queue.wakeup.waiting ⊆ c.queue.wakeup.waiting) :
    Manned { c.polled worker with workers := c.workers - 1 }.settleExit := by
  -- the queue is closed by a shutdown only, and somebody is still there
  have draining : c.phase = .draining := by
    rcases h.phase_of_mem mem with hrunning | hdraining
    · rcases h.phase_of_closed closed with hphase | hphase <;> rw [hphase] at hrunning <;>
        cases hrunning
    · exact hdraining
  have length : (c.polled worker).crew.length = c.workers - 1 := by
    rw [crew.length_eq, List.length_erase_of_mem mem, h.length]
  have isWorker : ∀ g ∈ (c.polled worker).crew, ∃ id, g = .worker id :=
    fun g hg => h.isWorker g (List.mem_of_mem_erase (crew.mem_iff.mp hg))
  have nobody : (c.polled worker).queue.wakeup.waiting = [] := by
    rw [h.waiting_of_closed closed] at waiting
    exact List.subset_nil.mp waiting
  have nodup := crew.nodup_iff.mpr (h.nodup.erase _)
  unfold settleExit
  split
  · rename_i hlast
    refine ⟨valid, nodup, length, isWorker, ?_, fun _ => .inr rfl, fun _ => nobody⟩
    constructor
    · exact fun hne => absurd hlast.2 hne
    · rintro (hphase | hphase) <;> cases hphase
  · rename_i hothers
    refine ⟨valid, nodup, length, isWorker, ?_, fun _ => .inl draining, fun _ => nobody⟩
    exact ⟨fun _ => .inr draining, fun _ hnone => hothers ⟨draining, hnone⟩⟩

/-- A turn moves one worker, or lets it go. It falls asleep at an empty queue, begins a pass, is
ready again, or leaves a closed queue for good. -/
theorem turn (h : c.Manned) {worker : Nat}
    (enabled : .worker worker ∈ c.ready ∨ .worker worker ∈ c.queue.wakeup.woken)
    (turned : c.Turn worker c') : c'.Manned := by
  obtain ⟨mem, valid, asleep, awake⟩ := h.crew_polled enabled
  have closed := closed_polled c worker
  have back : ∀ {k}, (c.queue.poll (.worker worker)).2 = .key k →
      (.worker worker :: (c.polled worker).crew).Perm c.crew := by
    intro k hk
    have crew := (awake (by simp [hk])).1
    exact (crew.cons _).trans (List.perm_cons_erase mem).symm
  have waiting : ∀ {k}, (c.queue.poll (.worker worker)).2 = .key k →
      (c.polled worker).queue.wakeup.waiting ⊆ c.queue.wakeup.waiting :=
    fun hk => (awake (by simp [hk])).2
  cases turned with
  | sleeps hp =>
    -- nobody sleeps at a closed queue
    refine h.of_perm (asleep hp) rfl rfl closed valid fun hclosed => ?_
    rw [WorkQueue.polled_poll, KeyQueue.hand_fst_eq_asleep_iff] at hp
    rw [hp.2] at hclosed
    cases hclosed
  | leaves hp =>
    obtain ⟨crew, waiting⟩ := awake (by simp [hp])
    refine h.leave mem ?_ crew valid waiting
    rw [WorkQueue.polled_poll, KeyQueue.hand_fst_eq_closed_iff] at hp
    exact hp.2
  | settles hp =>
    have readied : Manned { c.polled worker with
        ready := .worker worker :: (c.polled worker).ready } :=
      h.of_perm (back hp) rfl rfl closed valid fun _ => waiting hp
    exact readied.sameCrew (.finish (c.polled worker) worker _ _)
  | begins hp =>
    refine h.of_perm ?_ rfl rfl closed valid fun _ => waiting hp
    refine List.Perm.trans ?_ (back hp)
    simp only [crew, polled, List.map_append, List.map_cons, List.map_nil, ← List.append_assoc]
    exact List.perm_append_singleton _ _

/-- The shutdown of a running controller closes the queue and leaves everyone where they are. -/
theorem drain (h : c.Manned) (running : c.phase = .running) :
    c.drain = { c with queue := c.queue.shutDown, phase := .draining } ∧ c.drain.Manned := by
  have hworkers : c.workers ≠ 0 := h.workers_ne_zero_iff.mpr (.inl running)
  have hdrain : c.drain = { c with queue := c.queue.shutDown, phase := .draining } :=
    if_neg fun hlast => hworkers hlast.2
  have hperm : (c.ready ++ c.queue.wakeup.wakeAll.registered ++
      c.passes.map fun pass => Getter.worker pass.worker).Perm c.crew :=
    ((Wakeup.registered_wakeAll_perm c.queue.wakeup).append_left _).append_right _
  refine ⟨hdrain, ?_⟩
  rw [hdrain]
  refine ⟨h.valid.wakeAll, hperm.nodup_iff.mpr h.nodup, hperm.length_eq.trans h.length, ?_, ?_, ?_,
    ?_⟩
  · exact fun g hg => h.isWorker g (hperm.mem_iff.mp hg)
  · exact ⟨fun _ => .inr rfl, fun _ => hworkers⟩
  · exact fun _ => .inl rfl
  · exact fun _ => rfl

/-- The workers that a launch starts run next, and are closed down at once if shutdown was
requested before. -/
theorem launch (h : c.Manned) (hr : c.phase ≠ .running) (hd : c.phase ≠ .draining)
    (he : c.phase ≠ .ended .completed) (workers : Nat) :
    ((c.launch workers).phase = .running ∨ (c.launch workers).phase = .draining) ∧
      (c.launch workers).Manned := by
  have hcrew := h.crew_eq_nil hr hd
  simp only [crew, List.append_eq_nil_iff] at hcrew
  obtain ⟨⟨hready, hregistered⟩, hpasses⟩ := hcrew
  have hopen : ¬ c.queue.keys.closed = true := fun hclosed =>
    (h.phase_of_closed hclosed).elim hd he
  -- as started, before a shutdown that was requested meanwhile is looked at
  have started : Manned { c with
      workers := max workers 1
      ready := c.ready ++ (List.range (max workers 1)).map Getter.worker
      phase := .running } := by
    have hcrew : Controller.crew { c with
        workers := max workers 1
        ready := c.ready ++ (List.range (max workers 1)).map Getter.worker
        phase := .running } = (List.range (max workers 1)).map Getter.worker := by
      simp only [crew, hready, hregistered, hpasses, List.nil_append, List.append_nil]
    refine ⟨h.valid, ?_, ?_, ?_, ?_, fun hc => absurd hc hopen, fun hc => absurd hc hopen⟩
    · rw [hcrew]
      exact List.nodup_range.map fun _ _ heq => Getter.worker.inj heq
    · rw [hcrew, List.length_map, List.length_range]
    · rw [hcrew]
      intro g hg
      obtain ⟨id, -, rfl⟩ := List.mem_map.mp hg
      exact ⟨id, rfl⟩
    · have hone : max workers 1 ≠ 0 := by omega
      exact ⟨fun _ => .inl rfl, fun _ => hone⟩
  unfold Controller.launch
  dsimp only
  split
  · obtain ⟨hdrain, manned⟩ := started.drain rfl
    exact ⟨.inr (by rw [hdrain]), manned⟩
  · exact ⟨.inl rfl, started⟩

/-- A run that has not started its workers goes on without them, or ends. -/
theorem withPhase (h : c.Manned) (hr : c.phase ≠ .running) (hd : c.phase ≠ .draining)
    (he : c.phase ≠ .ended .completed) {phase : Phase} (hr' : phase ≠ .running)
    (hd' : phase ≠ .draining) : Manned { c with phase } := by
  have hopen : ¬ c.queue.keys.closed = true := fun hclosed =>
    (h.phase_of_closed hclosed).elim hd he
  refine ⟨h.valid, h.nodup, h.length, h.isWorker, ?_, fun hc => absurd hc hopen,
    fun hc => absurd hc hopen⟩
  exact ⟨fun hne => absurd (h.workers_eq_zero hr hd) hne, fun hphase => (hphase.elim hr' hd').elim⟩

/-- A look at the caches starts all workers at once, or none. -/
theorem pollCaches (h : c.Manned) (hr : c.phase ≠ .running) (hd : c.phase ≠ .draining)
    (he : c.phase ≠ .ended .completed) (workers : Nat) (deadline : Option Nat) :
    (c.pollCaches workers deadline).Manned := by
  have resting : ∀ {phase : Phase}, phase ≠ .running → phase ≠ .draining →
      Manned { c with phase } := fun hr' hd' => h.withPhase hr hd he hr' hd'
  unfold Controller.pollCaches
  split
  · exact (h.launch hr hd he workers).2
  · split
    · exact resting (by simp) (by simp)
    · split <;> exact resting (by simp) (by simp)

end Manned

/-- **Nobody is lost.** Every step keeps each worker in one place. -/
theorem Step.manned {a : Action} (step : c.Step a c') (h : c.Manned) : c'.Manned := by
  cases step with
  | routine same => exact h.sameCrew same
  | turn enabled turned => exact h.turn enabled turned
  | land mem caches answer =>
    exact (h.sameCrew (.withCaches c caches)).conclude mem answer
  | fail mem fault => exact h.conclude mem _
  | start phase | refused phase =>
    refine h.withPhase ?_ ?_ ?_ (by simp) (by simp) <;> rw [phase] <;> nofun
  | look looks workers deadline =>
    obtain ⟨hr, hd, he⟩ := looks.phase
    exact h.pollCaches hr hd he workers deadline
  | giveUp phase =>
    have same : c.SameCrew { c with cancelled := true } := .withCancelled c
    refine (h.sameCrew same).withPhase ?_ ?_ ?_ (by simp) (by simp) <;> rw [same.phase, phase] <;>
      nofun
  | shutDown phase =>
    exact ((h.sameCrew (.withCancelled c)).drain phase).2

end Controller

namespace System

/-- Every step leaves the controller manned. -/
theorem manned_next {s : System} {a : Action} (h : s.controller.Manned) (enabled : s.Enabled a) :
    (s.next a).controller.Manned :=
  (controller_step enabled).manned h

/-- A run leaves the controller manned. -/
theorem Run.manned {allowed : Action → Prop} {s s' : System} (run : Run allowed s s')
    (h : s.controller.Manned) : s'.controller.Manned := by
  induction run with
  | refl => exact h
  | tail _ step ih =>
    obtain ⟨a, -, enabled, rfl⟩ := step
    exact manned_next ih enabled

theorem manned_fresh (config : ControllerConfig) (metrics : Option Metrics) (caches : Caches)
    (store : MemoryStore) : (fresh config metrics caches store).controller.Manned := by
  refine ⟨Wakeup.valid_empty, List.nodup_nil, rfl, fun g hg => absurd hg List.not_mem_nil, ?_,
    nofun, nofun⟩
  exact ⟨fun hne => absurd rfl hne, fun hphase => by rcases hphase with h | h <;> cases h⟩

end System

end StorageFeatures
