import StorageFeatures.Cli.Command
import StorageFeatures.Simulation.Sidecar

/-!
# The loop of a publisher

A sidecar publishes again and again until it is shut down. `Sidecar.Move` is one step of its loop,
or of what surrounds it: time passes, the plugin and what is stored change, calls hang or fail, and
the store meets faults in reading and in writing. `Sidecar.Lasting` says that only shutdown ends
the loop. It does so for every length of the period but one (`Sidecar.lasting_iff`): an interval of
length zero is none, and a loop with such a period breaks down before its first tick.

What carries the argument is that the loop always has a time at which it goes on
(`Sidecar.Live`), and that its phase tells which events it has gone through (`Sidecar.stage?`).
-/

namespace StorageFeatures

/-! ### Events of a loop -/

/-- What a loop does that can be seen. -/
inductive LoopEvent where
  | began
  | ended (result : Except Fault Publish.Outcome)
  | stopped

/-- Where a loop stands. -/
inductive LoopStage where
  | between
  | during
  | past
  deriving DecidableEq

/-- Where an event leads: a tick begins between two others and ends before the next one begins,
and nothing happens after the end. -/
def LoopStage.after : LoopStage → LoopEvent → Option LoopStage
  | between, .began => some during
  | during, .ended _ => some between
  | between, .stopped => some past
  | _, _ => none

namespace Sidecar

variable {s s' : Sidecar} {e : Option LoopEvent} {events : List LoopEvent}

/-! ### Calls -/

/-- Every call is over within its deadline. -/
theorem due_call_le (s : Sidecar) (probe : Probe) :
    (s.call probe).2.due ≤ s.now + s.timeout :=
  Nat.add_le_add_left (CallScript.ends_le _ _) _

/-- A probe that goes on makes one more call. -/
theorem call_of_resolve {c c' : OpenCall} (h : s.resolve c = (s', .ok c')) :
    ∃ probe, s.call probe = (s', c') := by
  unfold resolve at h
  split at h
  · cases h
  · cases h
  · rename_i probe _
    obtain ⟨hs, hc⟩ := Prod.mk.inj h
    exact ⟨probe, Prod.ext hs (Except.ok.inj hc)⟩

/-- A probe that is over leaves everything as it is. -/
theorem eq_of_resolve {c : OpenCall} {probed : Except Fault ProvisionerCapability}
    (h : s.resolve c = (s', .error probed)) : s' = s := by
  unfold resolve at h
  split at h <;> cases h <;> rfl

/-! ### Moves -/

/-- What can happen to a sidecar: its loop goes on, or something around it changes. When a tick is
due and shutdown was requested, either of them may be seen first. -/
inductive Move (s : Sidecar) : Option LoopEvent → Sidecar → Prop where
  | stop {due : Nat} (phase : s.phase = .resting due) (cancelled : s.cancelled = true) :
      Move s (some .stopped) { s with phase := .stopped }
  | begin {due : Nat} (phase : s.phase = .resting due) (le : due ≤ s.now) :
      Move s (some .began) { (s.call .pluginInfo).1 with
        phase := .ticking (s.call .pluginInfo).2 (s.tickAfter due) }
  /-- A call is over and another one follows. -/
  | ask {c c' : OpenCall} {next : Nat} {s' : Sidecar} (phase : s.phase = .ticking c next)
      (le : c.due ≤ s.now) (resolve : s.resolve c = (s', .ok c')) :
      Move s none { s' with phase := .ticking c' next }
  /-- The probe is over and its result is published. -/
  | finish {c : OpenCall} {next : Nat} {s' : Sidecar} {probed : Except Fault ProvisionerCapability}
      (phase : s.phase = .ticking c next) (le : c.due ≤ s.now)
      (resolve : s.resolve c = (s', .error probed)) :
      Move s (some (.ended (s'.publisher.publish probed).2))
        { s' with publisher := s'.publisher.tick probed, phase := .resting next }
  /-- The same on a store that answers in any way at all. -/
  | finishOn (store : CapabilityStore Id) {c : OpenCall} {next : Nat} {s' : Sidecar}
      {probed : Except Fault ProvisionerCapability} (phase : s.phase = .ticking c next)
      (le : c.due ≤ s.now) (resolve : s.resolve c = (s', .error probed)) :
      Move s (some (.ended (Publish.sync store s'.publisher.driverName probed)))
        { s' with phase := .resting next }
  | wait (time : Nat) (le : s.now ≤ time) : Move s none { s with now := time }
  | replug (plugin : ScriptedPlugin) : Move s none { s with plugin }
  | restore (store : MemoryStore) (caches : Caches) :
      Move s none { s with publisher := { s.publisher with store, caches } }
  | cancel : Move s none s.cancel

/-- What can happen in the course of time, with the events in order. -/
inductive Runs (s : Sidecar) : List LoopEvent → Sidecar → Prop where
  | refl : Runs s [] s
  | tail {events : List LoopEvent} {e : Option LoopEvent} {s' s'' : Sidecar}
      (run : Runs s events s') (move : s'.Move e s'') : Runs s (events ++ e.toList) s''

/-- What the loop does at some time is a move, and takes no time. -/
theorem move_of_step? (h : s.step? = some s') : (∃ e, s.Move e s') ∧ s'.now = s.now := by
  unfold step? at h
  split at h
  · rename_i due hphase
    split at h
    · rename_i hcancelled
      cases h
      exact ⟨⟨_, .stop hphase hcancelled⟩, rfl⟩
    · split at h
      · rename_i hdue
        cases h
        exact ⟨⟨_, .begin hphase hdue⟩, rfl⟩
      · cases h
  · rename_i c next hphase
    split at h
    · rename_i hdue
      split at h
      · rename_i s'' c' hresolve
        cases h
        obtain ⟨probe, hcall⟩ := call_of_resolve hresolve
        have hnow : s''.now = s.now := (congrArg (·.1.now) hcall).symm
        exact ⟨⟨_, .ask hphase hdue hresolve⟩, hnow⟩
      · rename_i s'' probed hresolve
        cases h
        have hnow : s''.now = s.now := congrArg now (eq_of_resolve hresolve)
        exact ⟨⟨_, .finish hphase hdue hresolve⟩, hnow⟩
    · cases h
  · cases h

/-! ### What the virtual clock lets happen -/

theorem Runs.trans {s'' : Sidecar} {later : List LoopEvent} (h : s.Runs events s')
    (h' : s'.Runs later s'') : s.Runs (events ++ later) s'' := by
  induction h' with
  | refl => rwa [List.append_nil]
  | tail _ move ih =>
    rw [← List.append_assoc]
    exact ih.tail move

theorem runs_of_move (h : s.Move e s') : s.Runs e.toList s' := Runs.refl.tail h

/-- Whatever the clock lets happen at one time is a course of events, and takes no time. -/
theorem runs_runSteps (steps : Nat) (s : Sidecar) :
    (∃ events, s.Runs events (runSteps steps s)) ∧ (runSteps steps s).now = s.now := by
  induction steps generalizing s with
  | zero => exact ⟨⟨[], .refl⟩, rfl⟩
  | succ steps ih =>
    unfold runSteps
    split
    · rename_i s' hstep
      obtain ⟨⟨e, hmove⟩, hnow⟩ := move_of_step? hstep
      obtain ⟨⟨events, hruns⟩, hnow'⟩ := ih s'
      exact ⟨⟨_, (runs_of_move hmove).trans hruns⟩, hnow'.trans hnow⟩
    · exact ⟨⟨[], .refl⟩, rfl⟩

/-- What the clock lets happen until a time is made of moves. -/
theorem runs_advanceTo {time : Nat} (h : s.now ≤ time) :
    ∃ events, s.Runs events (s.advanceTo time) := by
  have key (fuel : Nat) : ∀ s : Sidecar, s.now ≤ time →
      ∃ events, s.Runs events (Clocked.runUntil fuel time s) := by
    induction fuel with
    | zero => exact fun s h => ⟨_, runs_of_move (.wait time h)⟩
    | succ fuel ih =>
      intro s h
      unfold Clocked.runUntil
      split
      · rename_i due _
        split
        · rename_i hdue
          -- the clock moves on, the loop does what is due, and more may be due later
          have hwait := runs_of_move (.wait (max due s.now) (Nat.le_max_right due s.now))
          obtain ⟨⟨events, hsettle⟩, hnow⟩ :=
            runs_runSteps (6 * (tolerance + 2)) { s with now := max due s.now }
          have hle : (settle { s with now := max due s.now }).now ≤ time :=
            Nat.le_trans (Nat.le_of_eq hnow) (Nat.max_le.mpr ⟨hdue, h⟩)
          obtain ⟨later, hlater⟩ := ih _ hle
          exact ⟨_, (hwait.trans hsettle).trans hlater⟩
        · exact ⟨_, runs_of_move (.wait time h)⟩
      · exact ⟨_, runs_of_move (.wait time h)⟩
  exact key _ s h

/-! ### The loop goes on -/

/-- The loop is shut down, or there is a time at which it goes on. -/
def Live (s : Sidecar) : Prop :=
  match s.phase with
  | .resting due => due ≤ s.now + s.period
  | .ticking c next => c.due ≤ s.now + s.timeout ∧ next ≤ s.now + s.period
  | .stopped => s.cancelled = true
  | .idle | .broken => False

/-- What the phase says about the events so far. -/
def stage? (s : Sidecar) : Option LoopStage :=
  match s.phase with
  | .resting _ => some .between
  | .ticking .. => some .during
  | .stopped => some .past
  | .idle | .broken => none

/-- The next tick is at most a period ahead. -/
theorem tickAfter_le {due : Nat} (h : due ≤ s.now) : s.tickAfter due ≤ s.now + s.period := by
  unfold tickAfter
  split
  · exact Nat.le_refl _
  · exact Nat.add_le_add_right h _

/-- A loop that publishes is alive if its call times out and its next tick comes soon enough. -/
theorem live_of_ticking {c : OpenCall} {next : Nat} (phase : s.phase = .ticking c next) :
    s.Live ↔ c.due ≤ s.now + s.timeout ∧ next ≤ s.now + s.period := by
  simp only [Live, phase]

/-- **A live loop stays alive.** -/
theorem Move.live (h : s.Move e s') (live : s.Live) : s'.Live := by
  cases h with
  | stop phase cancelled => exact cancelled
  | begin phase le => exact ⟨due_call_le s .pluginInfo, tickAfter_le le⟩
  | ask phase le resolve =>
    obtain ⟨probe, hcall⟩ := call_of_resolve resolve
    obtain ⟨rfl, rfl⟩ := Prod.mk.inj hcall
    exact ⟨due_call_le s probe, ((live_of_ticking phase).mp live).2⟩
  | finish phase le resolve | finishOn store phase le resolve =>
    obtain rfl := eq_of_resolve resolve
    exact ((live_of_ticking phase).mp live).2
  | wait time le =>
    cases hphase : s.phase <;> simp only [Live, hphase] at live ⊢
    case resting due => omega
    case ticking c next => omega
    case stopped => exact live
  | replug | restore => exact live
  | cancel =>
    cases hphase : s.phase <;> simp only [Live, Sidecar.cancel, hphase] at live ⊢
    case resting due => exact live
    case ticking c next => exact live

/-- The phase keeps up with the events. -/
theorem Move.stage (h : s.Move e s') {stage : LoopStage} (hs : s.stage? = some stage) :
    e.toList.foldlM LoopStage.after stage = s'.stage? := by
  cases h with
  | stop phase | begin phase =>
    simp only [stage?, phase] at hs
    cases hs
    rfl
  | ask phase le resolve =>
    simp only [stage?, phase] at hs
    cases hs
    rfl
  | finish phase | finishOn _ phase =>
    simp only [stage?, phase] at hs
    cases hs
    rfl
  | wait | replug | restore | cancel => exact hs.symm

/-- A loop with a period is alive when it starts. -/
theorem live_start (h : s.period ≠ 0) : s.start.Live := by
  simp only [Live, start, if_neg h]
  omega

/-- A loop with a period rests before its first tick, which is due at once. -/
theorem stage_start (h : s.period ≠ 0) : s.start.stage? = some .between := by
  simp only [stage?, start, if_neg h]

theorem Runs.live (h : s.Runs events s') (live : s.Live) : s'.Live := by
  induction h with
  | refl => exact live
  | tail _ move ih => exact move.live ih

/-- The phase of a live loop says where it stands. -/
theorem Live.exists_stage (h : s.Live) : ∃ stage, s.stage? = some stage := by
  cases hphase : s.phase with
  | idle | broken => simp [Live, hphase] at h
  | resting | ticking | stopped => exact ⟨_, by simp only [stage?, hphase]; rfl⟩

/-- **The phase says what has happened.** -/
theorem Runs.stage (h : s.Runs events s') (live : s.Live) {stage : LoopStage}
    (hs : s.stage? = some stage) : events.foldlM LoopStage.after stage = s'.stage? := by
  induction h with
  | refl => exact hs.symm
  | @tail events e s' s'' run move ih =>
    obtain ⟨stage', hstage⟩ := (run.live live).exists_stage
    rw [List.foldlM_append, ih, hstage]
    exact move.stage hstage

/-! ### Only shutdown ends the loop -/

/-- Only shutdown ends the loop, however the plugin and the store behave. -/
structure Lasting (s : Sidecar) : Prop where
  /-- The first tick begins at once. -/
  first : s.cancelled = false →
    ∃ s', s.start.step? = some s' ∧ s.start.Move (some .began) s' ∧ s'.now = s.now
  /-- No tick begins in another one. -/
  ordered : ∀ {events s'}, s.start.Runs events s' →
    ∃ stage, events.foldlM LoopStage.after .between = some stage
  /-- Whatever a tick comes to, the next one begins after a period at most. -/
  survives : ∀ {events result s'}, s.start.Runs (events ++ [.ended result]) s' →
    ∃ due ≤ s'.now + s'.period, ∀ time ≥ due,
      ∃ s'', { s' with now := time }.Move (some .began) s''
  /-- A loop that has not stopped goes on after a period or a deadline at most. -/
  goes_on : ∀ {events s'}, s.start.Runs events s' → s'.phase ≠ .stopped →
    ∃ due ≤ s'.now + max s'.period s'.timeout, ∀ time ≥ due,
      { s' with now := time }.step?.isSome = true
  /-- A loop that has stopped was shut down. -/
  stops : ∀ {events s'}, s.start.Runs events s' → s'.phase = .stopped → s'.cancelled = true
  unbroken : ∀ {events s'}, s.start.Runs events s' → s'.phase ≠ .broken

/-- A loop that rests begins to publish when its tick is due. -/
theorem step?_of_due {due : Nat} (phase : s.phase = .resting due) (le : due ≤ s.now)
    (running : s.cancelled = false) :
    s.step? = some { (s.call .pluginInfo).1 with
      phase := .ticking (s.call .pluginInfo).2 (s.tickAfter due) } := by
  simp [step?, phase, running, le]

theorem isSome_step?_of_resting {due : Nat} (phase : s.phase = .resting due) (le : due ≤ s.now) :
    s.step?.isSome = true := by
  cases hcancelled : s.cancelled with
  | true => simp [step?, phase, hcancelled]
  | false => rw [step?_of_due phase le hcancelled, Option.isSome_some]

theorem isSome_step?_of_ticking {c : OpenCall} {next : Nat} (phase : s.phase = .ticking c next)
    (le : c.due ≤ s.now) : s.step?.isSome = true := by
  simp only [step?, phase, if_pos le]
  split <;> rfl

/-- A live loop is due at some time, and from then on it goes on. -/
theorem Live.goes_on (h : s.Live) (running : s.phase ≠ .stopped) :
    ∃ due ≤ s.now + max s.period s.timeout, ∀ time ≥ due,
      { s with now := time }.step?.isSome = true := by
  cases hphase : s.phase with
  | idle | broken => simp [Live, hphase] at h
  | stopped => exact absurd hphase running
  | resting due =>
    simp only [Live, hphase] at h
    refine ⟨due, by omega, fun time htime => ?_⟩
    rw [← hphase]
    exact isSome_step?_of_resting hphase htime
  | ticking c next =>
    have hdue := ((live_of_ticking hphase).mp h).1
    refine ⟨c.due, by omega, fun time htime => ?_⟩
    rw [← hphase]
    exact isSome_step?_of_ticking hphase htime

/-- After a tick the loop rests. -/
theorem Runs.resting {result : Except Fault Publish.Outcome}
    (h : s.Runs (events ++ [.ended result]) s') (live : s.Live) {stage : LoopStage}
    (hs : s.stage? = some stage) : ∃ due, s'.phase = .resting due := by
  have hstage := h.stage live hs
  obtain ⟨stage', hs'⟩ := (h.live live).exists_stage
  rw [hs', List.foldlM_append] at hstage
  obtain ⟨before, -, hlast⟩ := Option.bind_eq_some_iff.mp hstage
  have hafter : before.after (.ended result) = some stage' := by simpa using hlast
  -- an end leads nowhere but between two ticks
  have hbetween : stage' = .between := by
    cases before <;> cases hafter
    rfl
  cases hphase : s'.phase with
  | resting due => exact ⟨due, rfl⟩
  | idle | ticking | stopped | broken => simp [stage?, hphase, hbetween] at hs'

/-- A loop with a period never breaks off: it publishes at once, then again and again until
shutdown. -/
theorem lasting_of_period_ne_zero (h : s.period ≠ 0) : s.Lasting where
  first := by
    intro hcancelled
    have hphase : s.start.phase = .resting s.now := by simp only [start, if_neg h]
    have hdue : s.now ≤ s.start.now := Nat.le_refl _
    exact ⟨_, step?_of_due hphase hdue hcancelled, .begin hphase hdue, rfl⟩
  ordered := by
    intro events s' hrun
    obtain ⟨stage, hstage⟩ := (hrun.live (live_start h)).exists_stage
    exact ⟨stage, (hrun.stage (live_start h) (stage_start h)).trans hstage⟩
  survives := by
    intro events result s' hrun
    have hlive := hrun.live (live_start h)
    obtain ⟨due, hphase⟩ := hrun.resting (live_start h) (stage_start h)
    simp only [Live, hphase] at hlive
    exact ⟨due, hlive, fun time htime => ⟨_, .begin hphase htime⟩⟩
  goes_on := fun hrun running => (hrun.live (live_start h)).goes_on running
  stops := by
    intro events s' hrun hphase
    simpa only [Live, hphase] using hrun.live (live_start h)
  unbroken := by
    intro events s' hrun hphase
    simpa only [Live, hphase] using hrun.live (live_start h)

/-- An interval of length zero is none. -/
theorem not_lasting_of_period_eq_zero (h : s.period = 0) : ¬ s.Lasting := by
  intro lasting
  refine lasting.unbroken .refl ?_
  simp only [start, if_pos h]

end Sidecar

/-! ### Every command line -/

/-- The sidecar with some settings beside a plugin. -/
def Cli.SidecarSettings.sidecar (settings : SidecarSettings) (plugin : ScriptedPlugin)
    (store : MemoryStore) (caches : Caches) : Sidecar where
  publisher := { driverName := settings.driverName, store, caches, metrics := some .fresh }
  plugin := plugin
  period := settings.resyncSeconds * 1000
  timeout := settings.timeoutSeconds * 1000

namespace Sidecar

/-- **All periods but one.** With any other period than nothing the loop goes on publishing until it
is shut down, however the plugin and the store behave. With none it breaks off before the first
tick. -/
theorem lasting_iff (settings : Cli.SidecarSettings) (plugin : ScriptedPlugin)
    (store : MemoryStore) (caches : Caches) :
    (settings.sidecar plugin store caches).Lasting ↔ settings.resyncSeconds ≠ 0 := by
  have hperiod : (settings.sidecar plugin store caches).period = settings.resyncSeconds * 1000 :=
    rfl
  constructor
  · intro lasting hzero
    refine not_lasting_of_period_eq_zero ?_ lasting
    omega
  · intro hne
    refine lasting_of_period_ne_zero ?_
    omega

/-- The settings of a sidecar can ask for a period of nothing, and its loop does not last. -/
theorem not_lasting_unrested :
    ¬ (Cli.SidecarSettings.sidecar
      { address := "/run/csi/socket", timeoutSeconds := 60, resyncSeconds := 0, driverName := none,
        metricsAddress := none } {} {} {}).Lasting :=
  not_lasting_of_period_eq_zero rfl

end Sidecar

end StorageFeatures
