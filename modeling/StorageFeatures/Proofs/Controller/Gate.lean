import StorageFeatures.Proofs.Controller.Trace

/-!
# The gate at the start of a run

A cold cache that was taken for an empty one would have every capability deleted, so no worker may
look at the caches before all four have synced, nor before the version of the cluster has been
found new enough. The main result is `System.gated_of_trace`, for every version that the cluster
reports, every order in which the caches sync, and every time at which keys are added, time passes
or shutdown is requested:

* before a key is taken or a write is answered, the gate was opened (`Opened`);
* a run that is refused or gives up has taken no key and made no write;
* a cache that has synced stays synced, so no pass ever fails because a cache is cold.

The phases of a run can only advance in the ways that `Controller.Advance` lists. All statements
about the gate are read off that list, for workers exist only while a controller runs or drains
(`Controller.Manned`).
-/

namespace StorageFeatures

/-! ### Faults of a pass -/

namespace Sync

/-- **Synced caches are not to blame.** A look at synced caches fails only for what the objects in
them are, and such a fault is not met with a retry. -/
theorem action_of_decide {caches : Caches} (synced : caches.allSynced = true) {k : String}
    {fault : Fault} (h : decide caches k = .error fault) : fault.action = .noRequeue := by
  have ways := decides caches k
  generalize decide caches k = r at h ways
  cases ways with
  | cold kind cold =>
    rw [Caches.allSynced_iff.mp synced kind] at cold
    cases cold
  | absent | orphan | unserved => cases h
  | unnamed =>
    cases h
    rfl
  | served =>
    unfold serve at h
    split at h
    · cases h
    · unfold ClassCapability.merge at h
      split at h
      · cases h
      · -- the capability is stored under another name than the class
        cases h
        rfl

/-- A pass that fails by the answer to its write fails with that answer. -/
theorem eq_error_of_conclude {call : StoreCall} {answer : Except Fault Unit} {fault : Fault}
    (h : conclude call answer = .error fault) : answer = .error fault := by
  cases answer with
  | ok =>
    cases call <;> cases h
  | error fault' =>
    cases call with
    | deleteCapability n => cases h
    | _ => exact congrArg Except.error (Except.error.inj h)

end Sync

/-- A call fails for the fault that was laid out, or because an object exists or is missing. -/
theorem MemoryStore.fault_of_run {store : MemoryStore} {caches : Caches} {call : StoreCall}
    {fault : Fault} (h : (store.run caches call).2.2 = .error fault) :
    store.failNext = some fault ∨ ∃ kind name,
      fault = .alreadyExists kind name ∨ fault = .notFound kind name := by
  rcases run_cases caches call store with ⟨_, fault', hfail, hrun⟩ | ⟨store', -, hrun⟩
  · rw [hrun] at h
    obtain rfl := Except.error.inj h
    exact .inl hfail
  · rw [hrun] at h
    refine .inr ?_
    cases call with
    | getProvisioner | getCapability => cases h
    | createProvisioner a | createCapability a =>
      simp only [perform, create, answer] at h
      split at h
      · obtain rfl := Except.error.inj h
        exact ⟨_, _, .inl rfl⟩
      · cases h
    | updateProvisioner a | updateCapability a =>
      simp only [perform, update, answer] at h
      split at h
      · obtain rfl := Except.error.inj h
        exact ⟨_, _, .inr rfl⟩
      · cases h
    | deleteCapability n =>
      simp only [perform, delete, answer] at h
      split at h
      · cases h
      · obtain rfl := Except.error.inj h
        exact ⟨_, _, .inr rfl⟩

/-! ### How a run advances -/

namespace Controller

variable {c c' : Controller}

/-- The phase that an action leads to. -/
inductive Advance (c : Controller) : Action → Phase → Prop where
  | stays (a : Action) : Advance c a c.phase
  | starts {workers : Nat} (phase : c.phase = .idle) :
      Advance c (.start workers) (.discovery workers)
  | refused {workers : Nat} {reported : Except Fault String} {exit : Exit}
      (phase : c.phase = .discovery workers)
      (obstacle : c.config.obstacle c.now reported = some exit) :
      Advance c (.discovered reported) (.ended exit)
  | launches {a : Action} {phase : Phase} (looks : c.Looks a)
      (synced : c.caches.allSynced = true) (launched : phase = .running ∨ phase = .draining) :
      Advance c a phase
  | waits {a : Action} (looks : c.Looks a) (workers : Nat) (deadline : Option Nat)
      (nextPoll : Nat) : Advance c a (.sync workers deadline nextPoll)
  | givesUp {a : Action} (looks : c.Looks a) (exit : Exit) : Advance c a (.ended exit)
  | cancelled {workers : Nat} {deadline : Option Nat} {nextPoll : Nat}
      (phase : c.phase = .sync workers deadline nextPoll) : Advance c .cancel (.ended .completed)
  | drains (phase : c.phase = .running) : Advance c .cancel .draining
  /-- The last worker leaves. -/
  | ends {worker : Nat} (phase : c.phase = .draining) :
      Advance c (.turn worker) (.ended .completed)

/-- A look at the caches launches the workers, gives up or goes on waiting. -/
theorem Manned.advance_pollCaches (h : c.Manned) {a : Action} (looks : c.Looks a) (workers : Nat)
    (deadline : Option Nat) : c.Advance a (c.pollCaches workers deadline).phase := by
  obtain ⟨hr, hd, he⟩ := looks.phase
  unfold Controller.pollCaches
  split
  · rename_i synced
    exact .launches looks synced (h.launch hr hd he workers).1
  · split
    · exact .givesUp looks _
    · split
      · exact .givesUp looks _
      · exact .waits looks _ _ _

/-- **Phases advance in a few ways only.** -/
theorem Step.advance {a : Action} (step : c.Step a c') (h : c.Manned) :
    c.Advance a c'.phase := by
  cases step with
  | routine same =>
    rw [same.phase]
    exact .stays a
  | turn enabled turned =>
    cases turned with
    | sleeps | begins => exact .stays _
    | leaves =>
      unfold settleExit
      split
      · rename_i hlast
        exact .ends hlast.1
      · exact .stays _
    | settles =>
      rw [(SameCrew.finish (c.polled _) _ _ _).phase]
      exact .stays _
  | land mem caches answer =>
    rw [(SameCrew.conclude { c with caches } _ _).phase]
    exact .stays _
  | fail mem fault =>
    rw [(SameCrew.conclude c _ _).phase]
    exact .stays _
  | start phase => exact .starts phase
  | refused phase obstacle => exact .refused phase obstacle
  | look looks workers deadline => exact h.advance_pollCaches looks workers deadline
  | giveUp phase => exact .cancelled phase
  | shutDown phase =>
    rw [((h.sameCrew (.withCancelled c)).drain phase).1]
    exact .drains phase

end Controller

namespace System

variable {s s' : System} {a : Action}

/-! ### What the gate keeps out -/

/-- A version that can be read and is new enough was reported when it was asked for. -/
def Accepted (config : ControllerConfig) (past : List Moment) : Prop :=
  ∃ m ∈ past, ∃ workers raw v, m.system.controller.phase = .discovery workers ∧
    m.action = .discovered (.ok raw) ∧ Version.read raw = .ok v ∧
    v.atLeast config.minVersion = true

/-- All caches had synced at some moment. -/
def Warmed (past : List Moment) : Prop := ∃ m ∈ past, m.system.controller.caches.allSynced = true

/-- What the gate at the start keeps out of a run. -/
structure Gated (config : ControllerConfig) (store : MemoryStore) (moments : List Moment)
    (s : System) : Prop where
  /-- Before a key is taken or a write is answered, a version was accepted and all caches had
  synced. -/
  opened : ∀ past m rest, moments = past ++ m :: rest → m.Works → Accepted config past ∧ Warmed past
  /-- A run that is refused or gives up has taken no key and made no write. -/
  idle : ∀ exit, s.controller.exit? = some exit → exit ≠ .completed →
    (∀ m ∈ moments, ¬ m.Works) ∧ s.store.calls = store.calls ∧ s.landed = []
  /-- A cache that has synced stays synced. -/
  synced : ∀ m ∈ moments, ∀ k, m.system.controller.caches.isSynced k = true →
    s.controller.caches.isSynced k = true
  /-- A pass that fails because a cache is cold has this from the answer to its write. -/
  warm : ∀ m ∈ moments, ∀ kind, m.verdict? = some (.error (.cacheNotSynced kind)) →
    ∃ pass, m.action = .fail pass (.cacheNotSynced kind) ∨
      (m.action = .land pass ∧ m.system.store.failNext = some (.cacheNotSynced kind))

/-- What every moment of a run keeps of the gate. -/
structure Guarded (config : ControllerConfig) (store : MemoryStore) (past : List Moment)
    (s : System) : Prop where
  settings : s.controller.config = config
  manned : s.controller.Manned
  staffed : s.controller.Staffed
  /-- The caches are waited for only once a version was accepted. -/
  waiting : ∀ workers deadline nextPoll, s.controller.phase = .sync workers deadline nextPoll →
    Accepted config past
  working : s.controller.phase = .running ∨ s.controller.phase = .draining →
    Accepted config past ∧ Warmed past
  idle : s.controller.phase ≠ .running → s.controller.phase ≠ .draining →
    s.controller.phase ≠ .ended .completed →
    (∀ m ∈ past, ¬ m.Works) ∧ s.store.calls = store.calls ∧ s.landed = []

variable {config : ControllerConfig} {store : MemoryStore} {past rest : List Moment}

/-- What was accepted stays accepted. -/
theorem Accepted.append (h : Accepted config past) : Accepted config (past ++ rest) := by
  obtain ⟨m, hm, h⟩ := h
  exact ⟨m, List.mem_append_left _ hm, h⟩

/-- What had synced at some moment has done so ever since. -/
theorem Warmed.append (h : Warmed past) : Warmed (past ++ rest) := by
  obtain ⟨m, hm, h⟩ := h
  exact ⟨m, List.mem_append_left _ hm, h⟩

/-- Whoever looks at the caches has accepted a version. -/
theorem Guarded.accepted_of_looks (h : Guarded config store past s) (looks : s.controller.Looks a) :
    Accepted config (past ++ [⟨s, a⟩]) := by
  cases looks with
  | @discovered workers raw phase admitted =>
    rw [h.settings] at admitted
    have accepted := (ControllerConfig.obstacle_eq_none_iff.mp admitted).1
    obtain ⟨v, hread, hleast⟩ := ControllerConfig.refusal_eq_none_iff.mp accepted
    exact ⟨_, List.mem_append_right _ (List.mem_singleton_self _), workers, raw, v, phase, rfl,
      hread, hleast⟩
  | poll phase => exact (h.waiting _ _ _ phase).append

/-- Without workers nothing is done. -/
theorem not_works_of_resting (h : s.controller.Manned) (enabled : s.Enabled a)
    (hr : s.controller.phase ≠ .running) (hd : s.controller.phase ≠ .draining) :
    ¬ (Moment.mk s a).Works ∧ (s.next a).store.calls = s.store.calls ∧
      (s.next a).landed = s.landed := by
  have hcrew := h.crew_eq_nil hr hd
  have nobody : ∀ g, g ∉ s.controller.crew := by
    rw [hcrew]
    exact fun g => List.not_mem_nil
  cases a with
  | turn worker => exact absurd (h.crew_polled enabled).1 (nobody _)
  | land pass | fail pass fault =>
    have mem : .worker pass.worker ∈ s.controller.crew :=
      List.mem_append_right _ (List.mem_map_of_mem enabled)
    exact absurd mem (nobody _)
  | _ => exact ⟨id, rfl, rfl⟩

/-- **The gate holds.** Every action keeps what was kept out. -/
theorem Guarded.next (h : Guarded config store past s) (enabled : s.Enabled a) :
    Guarded config store (past ++ [⟨s, a⟩]) (s.next a) := by
  have step := controller_step enabled
  have advance := step.advance h.manned
  refine ⟨step.config.trans h.settings, step.manned h.manned,
    staffed_next h.staffed enabled, ?_, ?_, ?_⟩
  all_goals generalize (s.next a).controller.phase = phase at advance
  · intro workers deadline nextPoll hphase
    cases advance with
    | stays => exact (h.waiting _ _ _ hphase).append
    | waits looks => exact h.accepted_of_looks looks
    | launches looks synced launched => exact h.accepted_of_looks looks
    | starts | refused | givesUp | cancelled | drains | ends => cases hphase
  · intro hphase
    cases advance with
    | stays => exact ⟨(h.working hphase).1.append, (h.working hphase).2.append⟩
    | launches looks synced launched =>
      have here : Moment.mk s a ∈ past ++ [⟨s, a⟩] :=
        List.mem_append_right _ (List.mem_singleton_self _)
      exact ⟨h.accepted_of_looks looks, _, here, synced⟩
    | drains running =>
      exact ⟨(h.working (.inl running)).1.append, (h.working (.inl running)).2.append⟩
    | starts | refused | givesUp | cancelled | waits | ends =>
      rcases hphase with hp | hp <;> cases hp
  · intro hr hd he
    -- the controller did not work before, either
    have before : s.controller.phase ≠ .running ∧ s.controller.phase ≠ .draining ∧
        s.controller.phase ≠ .ended .completed := by
      cases advance with
      | stays => exact ⟨hr, hd, he⟩
      | starts hp | refused hp =>
        rw [hp]
        exact ⟨nofun, nofun, nofun⟩
      | launches looks | waits looks | givesUp looks => exact looks.phase
      | cancelled | ends => exact absurd rfl he
      | drains => exact absurd rfl hd
    obtain ⟨hnone, hcalls, hlanded⟩ := h.idle before.1 before.2.1 before.2.2
    obtain ⟨hworks, hcalls', hlanded'⟩ :=
      not_works_of_resting h.manned enabled before.1 before.2.1
    refine ⟨fun m hm => ?_, hcalls'.trans hcalls, hlanded'.trans hlanded⟩
    rcases List.mem_append.mp hm with hm | hm
    · exact hnone m hm
    · obtain rfl := List.mem_singleton.mp hm
      exact hworks

variable {metrics : Option Metrics} {caches : Caches}

/-- Every moment of a run is guarded, from the first one on. -/
theorem guarded_of_trace (trace : Trace (fresh config metrics caches store) past s) :
    Guarded config store past s := by
  induction trace with
  | start =>
    refine ⟨rfl, manned_fresh config metrics caches store,
      staffed_fresh config metrics caches store, nofun, ?_,
      fun _ _ _ => ⟨fun m hm => absurd hm List.not_mem_nil, rfl, rfl⟩⟩
    rintro (hphase | hphase) <;> cases hphase
  | step _ enabled ih => exact ih.next enabled

/-- A worker that has something to do shows that the gate was opened. -/
theorem Guarded.opened (h : Guarded config store past s) (enabled : s.Enabled a)
    (works : (Moment.mk s a).Works) : Accepted config past ∧ Warmed past := by
  refine h.working ?_
  by_cases hr : s.controller.phase = .running
  · exact .inl hr
  · by_cases hd : s.controller.phase = .draining
    · exact .inr hd
    · exact absurd works (not_works_of_resting h.manned enabled hr hd).1

/-- A pass that fails because a cache is cold has this from its store. -/
theorem Guarded.warm (h : Guarded config store past s) (enabled : s.Enabled a) {kind : String}
    (verdict : (Moment.mk s a).verdict? = some (.error (.cacheNotSynced kind))) :
    ∃ pass, a = .fail pass (.cacheNotSynced kind) ∨
      (a = .land pass ∧ s.store.failNext = some (.cacheNotSynced kind)) := by
  cases a with
  | turn worker =>
    -- a worker has its turn beside synced caches, where no decision finds a cold one
    have synced := allSynced_of_turn h.staffed enabled
    obtain ⟨k, -, hk⟩ := Option.bind_eq_some_iff.mp verdict
    simp only [Sync.verdict?] at hk
    cases hdecide : Sync.decide s.controller.caches k with
    | ok d =>
      rw [hdecide] at hk
      dsimp only at hk
      split at hk <;> cases hk
    | error fault =>
      rw [hdecide] at hk
      obtain rfl := Except.error.inj (Option.some.inj hk)
      cases Sync.action_of_decide synced hdecide
  | land pass =>
    have hanswer : (s.store.run s.controller.caches pass.call).2.2.map (fun _ => ()) = _ :=
      Sync.eq_error_of_conclude (Option.some.inj verdict)
    cases hrun : (s.store.run s.controller.caches pass.call).2.2 with
    | ok answer =>
      rw [hrun] at hanswer
      cases hanswer
    | error fault =>
      rw [hrun] at hanswer
      obtain rfl := Except.error.inj hanswer
      -- by itself the store refuses only names that are taken or free
      rcases MemoryStore.fault_of_run hrun with hfail | ⟨_, _, hfault | hfault⟩
      · exact ⟨pass, .inr ⟨rfl, hfail⟩⟩
      · cases hfault
      · cases hfault
  | fail pass fault =>
    have hanswer := Sync.eq_error_of_conclude (Option.some.inj verdict)
    obtain rfl := Except.error.inj hanswer
    exact ⟨pass, .inl rfl⟩
  | _ => cases verdict

/-- **The startup gate.** Nothing is taken from the queue and nothing is written before the version
of the cluster was accepted and all caches had synced, whatever happens in whichever order. -/
theorem gated_of_trace {moments : List Moment}
    (trace : Trace (fresh config metrics caches store) moments s) :
    Gated config store moments s := by
  refine ⟨?_, fun exit hexit hne => ?_, ?_, fun m hm kind hverdict => ?_⟩
  · rintro past m rest rfl works
    obtain ⟨before, enabled⟩ := trace.split
    exact (guarded_of_trace before).opened enabled works
  · have hphase := Controller.exit?_eq_some_iff.mp hexit
    refine (guarded_of_trace trace).idle ?_ ?_ ?_ <;> rw [hphase]
    · nofun
    · nofun
    · exact fun heq => hne (Phase.ended.inj heq)
  · induction trace with
    | start => exact fun m hm => absurd hm List.not_mem_nil
    | @step past s' a trace enabled ih =>
      intro m hm k hk
      have staffed := (guarded_of_trace trace).staffed
      have kept : s'.controller.caches.isSynced k = true →
          (s'.next a).controller.caches.isSynced k = true :=
        (step_work staffed enabled).isSynced
      rcases List.mem_append.mp hm with hm | hm
      · exact kept (ih m hm k hk)
      · obtain rfl := List.mem_singleton.mp hm
        exact kept hk
  · obtain ⟨past, rest, rfl⟩ := List.append_of_mem hm
    obtain ⟨before, enabled⟩ := trace.split
    exact (guarded_of_trace before).warm enabled hverdict

/-- A key is added to a cold controller, the caches sync one after the other while they are waited
for, and the key gets its pass. -/
def opening : List Action :=
  [.add "fast", .start 1, .discovered (.ok "v1.20.0"),
    .observe .classCapability (.restarted []), .poll,
    .observe .storageClass (.restarted [sampleClass]),
    .observe .provisionerCapability (.restarted [sampleProvisioner]), .wait 100, .poll,
    .observe .snapshotClass (.restarted []), .poll, .turn 0, .land samplePass]

/-- The gate keeps to its rules in a run that opens it. -/
theorem gated_opening : ∃ s,
    Trace (fresh {} none {} {}) ((fresh {} none {} {}).moments opening) s ∧ s.landed.length = 1 ∧
    Gated {} {} ((fresh {} none {} {}).moments opening) s := by
  have computed : ((fresh {} none {} {}).follow opening).map (·.landed.length) = some 1 := by
    decide +kernel
  obtain ⟨s, hfollow, hlanded⟩ := Option.map_eq_some_iff.mp computed
  have trace := trace_of_follow hfollow
  exact ⟨s, trace, hlanded, gated_of_trace trace⟩

end System

end StorageFeatures
