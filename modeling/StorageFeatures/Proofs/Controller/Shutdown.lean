import StorageFeatures.Proofs.Controller.Exclusion
import StorageFeatures.Proofs.Controller.Trace

/-!
# Shutdown

When shutdown is requested the queue is closed, and what it has accepted until then is finished:

* a closed queue accepts nothing, so no timer, event or retry adds to what is left;
* each key that was dirty is taken once more, also one that was parked behind an open pass, for the
  worker of that pass comes back to the queue before it leaves;
* the last worker leaves when nothing is pending and no pass is open, and that ends the run.

What is left is the `Load` of a system. Whenever a worker runs or the write of a pass is answered it
becomes lighter (`Load.Step.weight_lt`), and as long as the run has not ended one of the two can
happen. The main result is `System.drains_of_trace`.
-/

namespace StorageFeatures

/-! ### The load of a closed queue -/

/-- What is left to be done: the keys, the open passes and the workers that have not left. -/
structure Load where
  keys : KeyQueue
  passes : List Pass
  workers : Nat

namespace Load

/-- A worker runs beside a closed queue, or the write of a pass is answered; the first index is the
key that is taken. -/
inductive Step (l : Load) : Option String → Load → Prop where
  | leaves (empty : l.keys.pending = []) : Step l none { l with workers := l.workers - 1 }
  /-- A pass that ends at once. -/
  | settles {k : String} {keys : KeyQueue} (take : l.keys.take? = some (k, keys)) :
      Step l (some k) { l with keys := (keys.done k).1 }
  | begins {keys : KeyQueue} (pass : Pass) (take : l.keys.take? = some (pass.key, keys)) :
      Step l (some pass.key) { l with keys, passes := l.passes ++ [pass] }
  | answers {pass : Pass} (mem : pass ∈ l.passes) :
      Step l none { l with
        keys := (l.keys.done pass.key).1
        passes := l.passes.erase pass }

/-- A dirty key weighs two, for it is taken and then its pass is answered. -/
def weight (l : Load) : Nat := 2 * l.keys.dirty.size + l.passes.length + l.workers

variable {l l' : Load} {taken : Option String}

theorem Step.closed (step : Step l taken l') : l'.keys.closed = l.keys.closed := by
  cases step with
  | leaves => rfl
  | settles take | begins pass take =>
    obtain ⟨ks, -, rfl⟩ := KeyQueue.take?_eq_some_iff.mp take
    simp
  | answers => exact KeyQueue.closed_done _ _

/-- **Every dirty key is taken once.** A key ceases to be dirty when it is taken, and no key becomes
dirty. -/
theorem Step.perm_dirty (step : Step l taken l') (h : l.keys.Consistent) :
    l.keys.dirty.keys.Perm (taken.toList ++ l'.keys.dirty.keys) := by
  have erased : ∀ {k keys}, l.keys.take? = some (k, keys) →
      l.keys.dirty.keys.Perm (k :: keys.dirty.keys) := by
    intro k keys take
    have hdirty := (h.of_take? take).1
    obtain ⟨ks, -, rfl⟩ := KeyQueue.take?_eq_some_iff.mp take
    exact NameMap.perm_keys_erase hdirty
  cases step with
  | leaves => exact .refl _
  | settles take =>
    rw [KeyQueue.dirty_done]
    exact erased take
  | begins pass take => exact erased take
  | answers =>
    rw [KeyQueue.dirty_done]
    exact .refl _

/-- **The load becomes lighter.** -/
theorem Step.weight_lt (step : Step l taken l') (h : l.keys.Consistent)
    (staffed : l.workers ≠ 0) : l'.weight < l.weight := by
  have hdirty := (step.perm_dirty h).length_eq
  rw [List.length_append, NameMap.length_keys, NameMap.length_keys] at hdirty
  unfold weight
  cases step with
  | leaves =>
    dsimp only
    omega
  | settles take =>
    simp only [Option.toList, List.length_singleton] at hdirty ⊢
    omega
  | begins pass take =>
    simp only [Option.toList, List.length_singleton, List.length_append] at hdirty ⊢
    omega
  | answers mem =>
    have hpos := List.length_pos_of_mem mem
    simp only [Option.toList, List.length_nil, List.length_erase_of_mem mem] at hdirty ⊢
    omega

/-- The last worker leaves when nothing is pending. -/
theorem Step.pending_of_workers (step : Step l taken l') (staffed : l.workers ≠ 0)
    (h : l'.workers = 0) : l'.keys.pending = [] := by
  cases step with
  | leaves empty => exact empty
  | settles | begins | answers => exact absurd h staffed

end Load

/-! ### A closed queue -/

namespace KeyQueue

variable {q : KeyQueue}

theorem addAll_of_closed (h : q.closed = true) (ks : List String) : q.addAll ks = q := by
  induction ks with
  | nil => rfl
  | cons k ks ih =>
    rw [addAll, List.foldl_cons, add_of_closed h]
    exact ih

end KeyQueue

/-- **Retries are dropped.** However a pass ends beside a closed queue, its key is not added. -/
theorem Controller.keys_finish_of_closed {c : Controller} (h : c.queue.keys.closed = true)
    (worker : Nat) (k : String) (result : Except Fault Sync.Outcome) :
    (c.finish worker k result).queue.keys = (c.queue.keys.done k).1 := by
  obtain ⟨metrics, hfinish⟩ := c.finish_eq k worker result
  have hagain : c.again? k result = none := by simp [again?, h]
  rw [hfinish, hagain, noted_none]
  rfl

namespace Controller

variable {c c' : Controller}

/-- What is left to be done. -/
def load (c : Controller) : Load := ⟨c.queue.keys, c.passes, c.workers⟩

theorem SameCrew.load (same : c.SameCrew c') (keys : c'.queue.keys = c.queue.keys) :
    c'.load = c.load := by
  unfold Controller.load
  rw [keys, same.passes, same.workers]

/-- The end of a pass releases its key, and that is all beside a closed queue. -/
theorem load_finish_of_closed (h : c.queue.keys.closed = true) (worker : Nat) (k : String)
    (result : Except Fault Sync.Outcome) :
    (c.finish worker k result).load = { c.load with keys := (c.queue.keys.done k).1 } := by
  have same := SameCrew.finish c worker k result
  unfold load
  rw [same.passes, same.workers, keys_finish_of_closed h]

/-- A write that is answered. -/
theorem load_conclude_of_closed (h : c.queue.keys.closed = true) {pass : Pass}
    (mem : pass ∈ c.passes) (answer : Except Fault Unit) :
    Load.Step c.load none (c.conclude pass answer).load := by
  unfold conclude
  rw [load_finish_of_closed (c := { c with passes := c.passes.erase pass }) h]
  exact .answers (l := c.load) mem

/-- A worker that runs beside a closed queue has a key, or leaves. -/
theorem Turn.load_of_closed {worker : Nat} (turned : c.Turn worker c')
    (closed : c.queue.keys.closed = true) :
    Load.Step c.load (c.queue.poll (.worker worker)).2.key? c'.load := by
  have hkeys : (c.polled worker).queue.keys = c.queue.keys.hand.2 := WorkQueue.keys_poll _ _
  have hclosed := (closed_polled c worker).trans closed
  have take : ∀ {k}, (c.queue.poll (.worker worker)).2 = .key k →
      c.load.keys.take? = some (k, (c.polled worker).queue.keys) := by
    intro k hp
    rw [WorkQueue.polled_poll] at hp
    rw [hkeys]
    exact KeyQueue.hand_fst_eq_key_iff.mp hp
  cases turned with
  | sleeps hp =>
    -- nobody sleeps beside a closed queue
    rw [WorkQueue.polled_poll, KeyQueue.hand_fst_eq_asleep_iff] at hp
    rw [hp.2] at closed
    cases closed
  | leaves hp =>
    rw [hp]
    rw [WorkQueue.polled_poll] at hp
    have empty := (KeyQueue.hand_fst_eq_closed_iff.mp hp).1
    have same : (c.polled worker).queue.keys = c.queue.keys := by
      rw [hkeys]
      exact KeyQueue.hand_snd_of_ne_key (by simp [hp])
    have left := Load.Step.leaves (l := c.load) empty
    rw [settleExit_eq]
    rw [load, ← same] at left ⊢
    exact left
  | settles hp =>
    rw [hp, load_finish_of_closed hclosed]
    exact .settles (l := c.load) (take hp)
  | begins hp =>
    rw [hp]
    exact .begins (l := c.load) ⟨worker, _, _⟩ (take hp)

/-- Only workers and those who answer them have an effect beside a closed queue. -/
theorem Step.load_of_not_isMove {a : Action} (step : c.Step a c') (h : c.Manned)
    (closed : c.queue.keys.closed = true) (ha : a.isMove = false) : c'.load = c.load := by
  have phase := h.phase_of_closed closed
  cases step with
  | routine same ks keys =>
    rw [KeyQueue.addAll_of_closed closed] at keys
    exact same.load keys
  | turn | land | fail => cases ha
  | start => rfl
  | refused hphase =>
    rcases phase with hp | hp <;> rw [hp] at hphase <;> cases hphase
  | look looks =>
    obtain ⟨-, hd, he⟩ := looks.phase
    exact absurd phase (not_or.mpr ⟨hd, he⟩)
  | giveUp hphase | shutDown hphase =>
    rcases phase with hp | hp <;> rw [hp] at hphase <;> cases hphase

end Controller

namespace System

variable {s s' : System} {a : Action}

/-- A worker that moves beside a closed queue makes a step of its load. -/
theorem load_next_of_isMove (h : s.controller.Manned)
    (closed : s.controller.queue.keys.closed = true) (enabled : s.Enabled a)
    (ha : a.isMove = true) :
    s.controller.workers ≠ 0 ∧
      Load.Step s.controller.load (Moment.mk s a).taken? (s.next a).controller.load := by
  have staffed : ∀ {g}, g ∈ s.controller.crew → s.controller.workers ≠ 0 := by
    intro g hg
    rw [← h.length]
    exact Nat.ne_of_gt (List.length_pos_of_mem hg)
  have step := controller_step enabled
  generalize (s.next a).controller = c' at step ⊢
  cases step with
  | turn enabled turned =>
    exact ⟨staffed (h.crew_polled enabled).1, turned.load_of_closed closed⟩
  | land mem caches answer =>
    refine ⟨staffed (List.mem_append_right _ (List.mem_map_of_mem mem)), ?_⟩
    exact Controller.load_conclude_of_closed (c := { s.controller with caches }) closed mem _
  | fail mem fault =>
    refine ⟨staffed (List.mem_append_right _ (List.mem_map_of_mem mem)), ?_⟩
    exact Controller.load_conclude_of_closed closed mem _
  | routine _ _ _ quiet =>
    rw [ha] at quiet
    cases quiet
  | look looks =>
    rw [looks.isMove] at ha
    cases ha
  | start | refused | giveUp | shutDown => cases ha

end System

/-! ### The moment of shutdown -/

namespace Controller

variable {c c' : Controller}

/-- A look at the caches leaves the queue open, unless shutdown was requested before. -/
theorem Manned.closed_pollCaches (h : c.Manned) {a : Action} (looks : c.Looks a) (workers : Nat)
    (deadline : Option Nat) :
    (c.pollCaches workers deadline).phase = .draining ∨
      (c.pollCaches workers deadline).queue.keys.closed = c.queue.keys.closed := by
  obtain ⟨hr, hd, he⟩ := looks.phase
  unfold Controller.pollCaches
  split
  · obtain ⟨hphase, manned⟩ := h.launch hr hd he workers
    refine hphase.symm.imp_right fun hrunning => ?_
    have open_of : ∀ {c : Controller}, c.Manned → c.phase ≠ .draining →
        c.phase ≠ .ended .completed → c.queue.keys.closed = false := by
      intro c hc hd he
      exact Bool.eq_false_iff.mpr fun hclosed => (hc.phase_of_closed hclosed).elim hd he
    rw [open_of h hd he]
    exact open_of manned (by rw [hrunning]; nofun) (by rw [hrunning]; nofun)
  · split
    · exact .inr rfl
    · split <;> exact .inr rfl

/-- **Only a shutdown closes the queue.** -/
theorem Step.draining_or_closed {a : Action} (step : c.Step a c') (h : c.Manned) :
    c'.phase = .draining ∨ c'.queue.keys.closed = c.queue.keys.closed := by
  cases step with
  | routine same => exact .inr same.queue.closed
  | @turn worker _ enabled turned =>
    refine .inr ?_
    cases turned with
    | sleeps | begins => exact closed_polled c worker
    | leaves =>
      rw [settleExit_eq]
      exact closed_polled c worker
    | settles =>
      have finished := SameCrew.finish (c.polled worker) worker
      exact (finished _ _).queue.closed.trans (closed_polled c worker)
  | land mem caches answer => exact .inr (SameCrew.conclude { c with caches } _ _).queue.closed
  | fail mem fault => exact .inr (SameCrew.conclude c _ _).queue.closed
  | start | refused | giveUp => exact .inr rfl
  | look looks workers deadline => exact h.closed_pollCaches looks workers deadline
  | shutDown phase =>
    exact .inl (by rw [((h.sameCrew (.withCancelled c)).drain phase).1])

end Controller

/-- What closes the queue changes no key. -/
theorem Work.Step.keys_of_closes {w w' : Work} {a : Action} (step : Work.Step w a w')
    (before : w.keys.closed = false) (after : w'.keys.closed = true) : w'.keys = w.keys.close := by
  have changes : w'.keys.closed ≠ w.keys.closed := by
    rw [before, after]
    exact Bool.noConfusion
  have taken : ∀ {k keys}, w.keys.take? = some (k, keys) → keys.closed = w.keys.closed := by
    intro k keys take
    obtain ⟨ks, -, rfl⟩ := KeyQueue.take?_eq_some_iff.mp take
    rfl
  cases step with
  | observe | resync | add | bringBack => exact absurd (KeyQueue.closed_addAll _ _) changes
  | inject | idle => exact absurd rfl changes
  | close => rfl
  | settle take synced ask ended => exact absurd (ended.closed.trans (taken take)) changes
  | begin take => exact absurd (taken take) changes
  | land pass mem run ended => exact absurd ended.closed changes
  | fail pass mem ended => exact absurd ended.closed changes

namespace System

variable {s s' before : System} {a : Action} {past moments : List Moment} {keys : NameSet}

/-! ### Until the run ends -/

/-- What every moment after a shutdown keeps; `keys` are those that were dirty then. -/
structure Draining (keys : NameSet) (before : System) (past : List Moment) (s : System) : Prop where
  manned : s.controller.Manned
  staffed : s.controller.Staffed
  orderly : s.work.Orderly []
  closed : s.controller.queue.keys.closed = true
  once : (Moment.takenKeys past ++ s.controller.queue.keys.dirty.keys).Perm keys.keys
  weight : past.countP (·.action.isMove) + s.controller.load.weight ≤ before.controller.load.weight
  /-- The last worker has seen that nothing is pending. -/
  vacant : s.controller.workers = 0 → s.controller.queue.keys.pending = []

/-- What a shutdown comes to; `keys` are those that were dirty when it was requested, and `moments`
those since then. -/
structure Drains (keys : NameSet) (before : System) (moments : List Moment) (s : System) :
    Prop where
  /-- Each of the keys has been taken once or is still dirty, and no other key has been taken. -/
  once : (Moment.takenKeys moments ++ s.controller.queue.keys.dirty.keys).Perm keys.keys
  /-- No more passes begin than there were keys. -/
  few : (Moment.takenKeys moments).length ≤ keys.size
  /-- Passes that were open or have begun since then have ended or are open. -/
  passes : moments.countP (·.verdict?.isSome) + s.controller.passes.length =
    before.controller.passes.length + (Moment.takenKeys moments).length
  /-- The run ends when nothing is left, and each of the keys has been taken. -/
  finished : ∀ exit, s.controller.exit? = some exit → exit = .completed ∧
    s.controller.passes = [] ∧ s.controller.queue.keys = { closed := true } ∧
    (Moment.takenKeys moments).Perm keys.keys
  /-- Until then a worker can run or an open pass waits for an answer. -/
  progress : s.controller.exit? = none → ∃ a, a.isMove = true ∧ s.Enabled a
  /-- And that happens a limited number of times. -/
  bounded : moments.countP (·.action.isMove) ≤
    2 * keys.size + before.controller.passes.length + before.controller.workers

/-- **The drain goes on.** -/
theorem Draining.next (h : Draining keys before past s) (enabled : s.Enabled a) :
    Draining keys before (past ++ [⟨s, a⟩]) (s.next a) := by
  have consistent : s.controller.load.keys.Consistent := h.orderly.consistent
  have orderly := (step_work h.staffed enabled).orderly h.orderly
  have counted : (past ++ [Moment.mk s a]).countP (·.action.isMove) =
      past.countP (·.action.isMove) + if a.isMove then 1 else 0 := by
    rw [List.countP_append, List.countP_singleton]
  -- what depends on whether a worker moves: the keys and the weight
  have kept : (s.next a).controller.queue.keys.closed = true ∧
      s.controller.queue.keys.dirty.keys.Perm
        ((Moment.mk s a).taken?.toList ++ (s.next a).controller.queue.keys.dirty.keys) ∧
      (if a.isMove then 1 else 0) + (s.next a).controller.load.weight ≤
        s.controller.load.weight ∧
      ((s.next a).controller.workers = 0 → (s.next a).controller.queue.keys.pending = []) := by
    cases ha : a.isMove with
    | false =>
      have hload : (s.next a).controller.load = s.controller.load :=
        (controller_step enabled).load_of_not_isMove h.manned h.closed ha
      have htaken : (Moment.mk s a).taken? = none := Moment.taken?_of_not_isMove ha
      have hkeys : (s.next a).controller.queue.keys = s.controller.queue.keys :=
        congrArg Load.keys hload
      have hworkers : (s.next a).controller.workers = s.controller.workers :=
        congrArg Load.workers hload
      rw [hkeys, hworkers, htaken, hload]
      exact ⟨h.closed, .refl _, by simp, h.vacant⟩
    | true =>
      obtain ⟨staffed, step⟩ := load_next_of_isMove h.manned h.closed enabled ha
      have hweight := step.weight_lt consistent staffed
      refine ⟨step.closed.trans h.closed, step.perm_dirty consistent, ?_,
        step.pending_of_workers staffed⟩
      rw [if_pos rfl]
      omega
  obtain ⟨closed, once, weight, vacant⟩ := kept
  refine ⟨manned_next h.manned enabled, staffed_next h.staffed enabled, orderly, closed, ?_, ?_,
    vacant⟩
  · rw [Moment.takenKeys_concat, List.append_assoc]
    exact (once.symm.append_left _).trans h.once
  · have hbefore := h.weight
    rw [counted]
    omega

/-- When nobody works any more, nothing is left. -/
theorem Draining.keys_eq (h : Draining keys before past s) (hr : s.controller.phase ≠ .running)
    (hd : s.controller.phase ≠ .draining) :
    s.controller.passes = [] ∧ s.controller.queue.keys = { closed := true } := by
  have hcrew := h.manned.crew_eq_nil hr hd
  have hworkers : s.controller.workers = 0 := by
    rw [← h.manned.length, hcrew]
    rfl
  have hpasses : s.controller.passes = [] :=
    List.map_eq_nil_iff.mp (List.append_eq_nil_iff.mp hcrew).2
  have hpending := h.vacant hworkers
  have hprocessing := NameSet.eq_empty_iff.mpr (h.orderly.processing_of_idle hpasses)
  have hdirty := NameSet.eq_empty_iff.mpr (h.orderly.dirty_of_idle hpasses hpending)
  refine ⟨hpasses, ?_⟩
  calc s.controller.queue.keys
      = ⟨s.controller.queue.keys.pending, s.controller.queue.keys.dirty,
          s.controller.queue.keys.processing, s.controller.queue.keys.closed⟩ := rfl
    _ = { closed := true } := by
        rw [hpending, show s.controller.queue.keys.dirty = ∅ from hdirty,
          show s.controller.queue.keys.processing = ∅ from hprocessing, h.closed]

/-- A worker is ready, has been woken, or waits for the answer to its write. -/
theorem Draining.exists_move (h : Draining keys before past s)
    (hd : s.controller.phase = .draining) : ∃ a : Action, a.isMove = true ∧ s.Enabled a := by
  have hworkers : s.controller.workers ≠ 0 := h.manned.workers_ne_zero_iff.mpr (.inr hd)
  have hcrew : s.controller.crew ≠ [] := by
    intro hnil
    rw [← h.manned.length, hnil] at hworkers
    exact hworkers rfl
  obtain ⟨g, hg⟩ := List.exists_mem_of_ne_nil _ hcrew
  obtain ⟨worker, rfl⟩ := h.manned.isWorker g hg
  rcases List.mem_append.mp hg with hg | hg
  · refine ⟨.turn worker, rfl, ?_⟩
    rcases List.mem_append.mp hg with hready | hregistered
    · exact .inl hready
    · -- nobody waits at a closed queue
      refine .inr ?_
      rw [Wakeup.registered, h.manned.waiting_of_closed h.closed] at hregistered
      exact hregistered
  · obtain ⟨pass, hpass, -⟩ := List.mem_map.mp hg
    exact ⟨.land pass, rfl, hpass⟩

variable {config : ControllerConfig} {metrics : Option Metrics} {caches : Caches}
  {store : MemoryStore}

/-- What holds when shutdown is requested. -/
theorem draining_of_closes (keyed : caches.Keyed)
    (run : Run (fun _ => True) (fresh config metrics caches store) s)
    (hopen : s.controller.queue.keys.closed = false) (enabled : s.Enabled a)
    (closes : (s.next a).controller.queue.keys.closed = true) :
    Draining s.controller.queue.keys.dirty (s.next a) [] (s.next a) := by
  have manned := Run.manned run (manned_fresh config metrics caches store)
  have staffed := run.staffed (staffed_fresh config metrics caches store)
  have orderly : s.work.Orderly [] :=
    run.preserves (staffed_fresh config metrics caches store) (fun _ step => step.orderly)
      (orderly_fresh keyed config metrics store)
  have step := step_work staffed enabled
  have hkeys : (s.next a).controller.queue.keys = s.controller.queue.keys.close :=
    step.keys_of_closes hopen closes
  have manned' := manned_next manned enabled
  refine ⟨manned', staffed_next staffed enabled, step.orderly orderly, closes, ?_, ?_, ?_⟩
  · rw [hkeys]
    exact .refl _
  · exact Nat.le_of_eq (Nat.zero_add _)
  · -- the workers are still there
    intro hnone
    rcases (controller_step enabled).draining_or_closed manned with hd | hsame
    · exact absurd hnone (manned'.workers_ne_zero_iff.mpr (.inr hd))
    · rw [hsame, hopen] at closes
      cases closes

/-- **A shutdown finishes what was accepted.** From the moment at which the queue is closed, every
key that was dirty gets exactly one more pass and no other key gets any; the run ends when all
passes have ended and nothing is left, and it does end, provided that workers run and writes are
answered. -/
theorem drains_of_trace (keyed : caches.Keyed)
    (run : Run (fun _ => True) (fresh config metrics caches store) s)
    (hopen : s.controller.queue.keys.closed = false) (enabled : s.Enabled a)
    (closes : (s.next a).controller.queue.keys.closed = true)
    (trace : Trace (s.next a) moments s') :
    Drains s.controller.queue.keys.dirty (s.next a) moments s' := by
  have start := draining_of_closes keyed run hopen enabled closes
  have h : Draining s.controller.queue.keys.dirty (s.next a) moments s' := by
    induction trace with
    | start => exact start
    | step _ enabled' ih => exact ih.next enabled'
  have phase := h.manned.phase_of_closed h.closed
  refine ⟨h.once, ?_, trace.passes, fun exit hexit => ?_, fun hexit => ?_, ?_⟩
  · have hlength := h.once.length_eq
    rw [List.length_append, NameMap.length_keys, NameMap.length_keys] at hlength
    omega
  · have hended := Controller.exit?_eq_some_iff.mp hexit
    have hexit : exit = .completed := by
      rcases phase with hp | hp
      · rw [hp] at hended
        cases hended
      · exact (Phase.ended.inj (hp.symm.trans hended)).symm
    obtain ⟨hpasses, hkeys⟩ := h.keys_eq (by rw [hended]; nofun) (by rw [hended]; nofun)
    refine ⟨hexit, hpasses, hkeys, ?_⟩
    have once := h.once
    rw [hkeys] at once
    rwa [show (KeyQueue.dirty { closed := true }).keys = [] from rfl, List.append_nil] at once
  · rcases phase with hp | hp
    · exact h.exists_move hp
    · unfold Controller.exit? at hexit
      rw [hp] at hexit
      cases hexit
  · have hweight := h.weight
    have hdirty := start.once.length_eq
    rw [List.length_append, NameMap.length_keys, NameMap.length_keys] at hdirty
    have hbefore : (s.next a).controller.load.weight =
        2 * (s.next a).controller.queue.keys.dirty.size + (s.next a).controller.passes.length +
          (s.next a).controller.workers := rfl
    simp only [Moment.takenKeys, List.filterMap_nil, List.length_nil, Nat.zero_add] at hdirty
    omega

/-- What happens until shutdown: one worker makes a write, and its key is added once more; another
key wakes the worker that has nothing to do. -/
def accepting : List Action :=
  [.observe .storageClass (.restarted [sampleClass]), .observe .snapshotClass (.restarted []),
    .observe .provisionerCapability (.restarted [sampleProvisioner]),
    .observe .classCapability (.restarted []), .start 2, .discovered (.ok "v1.29.3"), .turn 0,
    .turn 1, .add "fast", .add "gone"]

/-- What happens afterwards: the idle worker leaves first, the write fails, and its key, which was
parked, is taken again. -/
def finishing : List Action :=
  [.add "late", .turn 1, .turn 1, .fail samplePass (.internal "timeout"), .turn 0, .add "late",
    .land samplePass, .turn 0]

/-- A shutdown amid a pass drains what was dirty: the key that is open and reported again gets one
further pass, then the run completes. -/
theorem drains_finishing : ∃ s s', Run (fun _ => True) (fresh {} none {} {}) s ∧
    s.controller.queue.keys.closed = false ∧
    (s.next .cancel).controller.queue.keys.closed = true ∧
    Trace (s.next .cancel) ((s.next .cancel).moments finishing) s' ∧
    s'.controller.exit? = some .completed ∧
    Drains s.controller.queue.keys.dirty (s.next .cancel) ((s.next .cancel).moments finishing)
      s' := by
  have accepted : ((fresh {} none {} {}).follow accepting).map (fun s =>
      (s.controller.queue.keys.closed, (s.next .cancel).controller.queue.keys.closed,
        ((s.next .cancel).follow finishing).map (·.controller.exit?))) =
          some (false, true, some (some .completed)) := by
    decide +kernel
  obtain ⟨s, hfollow, hs⟩ := Option.map_eq_some_iff.mp accepted
  simp only [Prod.mk.injEq] at hs
  obtain ⟨hopen, closes, hfinished⟩ := hs
  obtain ⟨s', hfollow', hexit⟩ := Option.map_eq_some_iff.mp hfinished
  have run : Run (fun _ => True) (fresh {} none {} {}) s :=
    run_of_follow (fun _ _ => trivial) hfollow
  have trace := trace_of_follow hfollow'
  exact ⟨s, s', run, hopen, closes, trace, hexit,
    drains_of_trace Caches.keyed_empty run hopen trivial closes trace⟩

end System

end StorageFeatures
