import StorageFeatures.Proofs.Controller.Gate
import StorageFeatures.Proofs.Controller.Schedules

/-!
# Waiting for the caches

The main result is `System.waits_iff_of_trace`, for every run of a system whose timers go off when
they are due and which is given a `Schedule`. If the end of the wait can be told
(`Schedule.Tellable`), the wait for the caches ends when and how the schedule says, and it has not
ended before. A timeout that leads beyond the last instant is fatal: the run breaks off before its
first look at the caches, whatever has become of them. Apart from that nothing that happens in the
meantime concerns the wait:

* nothing but time and a cancellation moves the clock of a controller (`System.clock_next`);
* nothing but a look and a cancellation advances the phase of a run that waits
  (`Controller.Advance.eq_of_waits`);
* a look at its time ends the wait if and only if it is conclusive (`Schedule.look_cases`).

Where a run stands between two looks is its `Schedule.Stage`, and `Schedule.Stage.next` is the one
step from which the rest follows by induction.
-/

namespace StorageFeatures

/-! ### The clock of a controller -/

namespace Controller

variable {c : Controller}

/-- The time, and whether shutdown was requested. -/
def clock (c : Controller) : Nat × Bool := (c.now, c.cancelled)

theorem clock_routeAll {α : Type} [Watched α] (c : Controller) (events : List (Event α)) :
    (events.foldl route c).clock = c.clock := by
  have routed : ∀ (ks : List String) (c : Controller), (ks.foldl enqueue c).clock = c.clock := by
    intro ks
    induction ks with
    | nil => exact fun _ => rfl
    | cons k ks ih => exact fun c => ih (c.enqueue k)
  induction events generalizing c with
  | nil => rfl
  | cons e events ih => exact (ih (c.route e)).trans (routed _ c)

theorem clock_finish (c : Controller) (worker : Nat) (k : String)
    (result : Except Fault Sync.Outcome) : (c.finish worker k result).clock = c.clock := by
  obtain ⟨metrics, hfinish⟩ := c.finish_eq k worker result
  rw [hfinish]
  rfl

theorem clock_turn (c : Controller) (worker : Nat) :
    (c.turn (.worker worker)).1.clock = c.clock := by
  have turned := c.turn_worker worker
  generalize (c.turn (.worker worker)).1 = c' at turned ⊢
  cases turned with
  | sleeps | begins => rfl
  | leaves =>
    rw [settleExit_eq]
    rfl
  | settles => exact clock_finish (c.polled worker) _ _ _

theorem clock_pollCaches (c : Controller) (workers : Nat) (deadline : Option Nat) :
    (c.pollCaches workers deadline).clock = c.clock := by
  obtain ⟨_, _, _, _, hlook⟩ := c.pollCaches_eq workers deadline
  rw [hlook]
  rfl

end Controller

/-- The clock after an action. -/
def Action.tick (clock : Nat × Bool) : Action → Nat × Bool
  | .wait time => (time, clock.2)
  | .cancel => (clock.1, true)
  | _ => clock

/-- **Nothing else moves the clock.** -/
theorem System.clock_next (s : System) (a : Action) :
    (s.next a).controller.clock = a.tick s.controller.clock := by
  cases a with
  | observe k change => exact Controller.clock_routeAll _ _
  | resync k => exact Controller.clock_routeAll _ _
  | add | bringBack | wait | inject | start => rfl
  | turn worker => exact Controller.clock_turn _ worker
  | land pass => exact Controller.clock_finish _ _ _ _
  | fail pass fault => exact Controller.clock_finish _ _ _ _
  | discovered reported =>
    show (s.controller.discovered reported).clock = s.controller.clock
    unfold Controller.discovered
    split
    · split
      · rfl
      · exact Controller.clock_pollCaches _ _ _
    · rfl
  | poll =>
    show s.controller.poll.clock = s.controller.clock
    unfold Controller.poll
    split
    · exact Controller.clock_pollCaches _ _ _
    · rfl
  | cancel =>
    show s.controller.cancel.clock = (s.controller.now, true)
    unfold Controller.cancel
    dsimp only
    split
    · rfl
    · rw [Controller.drain_eq]
      rfl
    · rfl

/-! ### Runs with a schedule -/

namespace Controller

/-- When a run that waits for its caches looks at them next. -/
def nextLook? (c : Controller) : Option Nat :=
  match c.phase with
  | .sync _ _ nextPoll => some nextPoll
  | _ => none

/-- How a run goes on after the wait: the workers start, at least one, or the run ends without
them. -/
def GoesOn (c : Controller) (workers : Nat) : Option Exit → Prop
  | none => c.phase = .running ∧ c.workers = max workers 1
  | some exit => c.exit? = some exit ∧ c.workers = 0

end Controller

/-- The wait ends in a moment, before which no worker has started. -/
structure Moment.EndsWait (m : Moment) (workers time : Nat) (exit : Option Exit) : Prop where
  now : m.system.controller.now = time
  unended : m.system.controller.exit? = none
  idle : m.system.controller.workers = 0
  goesOn : (m.system.next m.action).controller.GoesOn workers exit

namespace Schedule

variable (w : Schedule)

/-- What has become of a schedule at the time of a controller. -/
structure Shows (c : Controller) : Prop where
  synced : ∀ k, ∀ time ∈ w.synced k, time ≤ w.start ∨ time < c.now → c.caches.isSynced k = true
  unsynced : ∀ k, c.caches.isSynced k = true → ∃ time ∈ w.synced k, time ≤ c.now
  cancelled : ∀ time ∈ w.shutdown, time < c.now → c.cancelled = true

/-- No look at the caches is missed or made early, and shutdown is requested on schedule. -/
def OnTime (m : Moment) : Prop :=
  match m.action with
  | .wait time => ∀ nextPoll ∈ m.system.controller.nextLook?, time ≤ nextPoll
  | .poll => ∀ nextPoll ∈ m.system.controller.nextLook?, nextPoll ≤ m.system.controller.now
  | .cancel => m.system.controller.now ∈ w.shutdown
  | _ => True

/-- A system begins to wait when the version of the cluster arrives. -/
structure Begins (workers : Nat) (s : System) (raw : String) : Prop where
  phase : s.controller.phase = .discovery workers
  accepted : s.controller.config.refusal (.ok raw) = none
  uncancelled : s.controller.cancelled = false
  start : s.controller.now = w.start
  timeout : s.controller.config.syncTimeout = w.timeout

/-- Some moments that end in a system go by a schedule. -/
structure Followed (moments : List Moment) (s : System) : Prop where
  onTime : ∀ m ∈ moments, w.OnTime m
  shows : ∀ m ∈ moments, w.Shows m.system.controller
  last : w.Shows s.controller

instance (c : Controller) : Decidable (w.Shows c) :=
  decidable_of_iff
    ((∀ k ∈ Kind.all,
        (∀ time ∈ w.synced k, time ≤ w.start ∨ time < c.now → c.caches.isSynced k = true) ∧
        (c.caches.isSynced k = true → ∃ time ∈ w.synced k, time ≤ c.now)) ∧
      ∀ time ∈ w.shutdown, time < c.now → c.cancelled = true)
    ⟨fun h => ⟨fun k => (h.1 k (by cases k <;> decide)).1,
      fun k => (h.1 k (by cases k <;> decide)).2, h.2⟩,
      fun h => ⟨fun k _ => ⟨h.synced k, h.unsynced k⟩, h.cancelled⟩⟩

instance : DecidablePred w.OnTime
  | ⟨s, .wait time⟩ =>
    inferInstanceAs (Decidable (∀ nextPoll ∈ s.controller.nextLook?, time ≤ nextPoll))
  | ⟨s, .poll⟩ =>
    inferInstanceAs (Decidable (∀ nextPoll ∈ s.controller.nextLook?, nextPoll ≤ s.controller.now))
  | ⟨s, .cancel⟩ => inferInstanceAs (Decidable (s.controller.now ∈ w.shutdown))
  | ⟨_, .observe ..⟩ | ⟨_, .resync _⟩ | ⟨_, .add _⟩ | ⟨_, .bringBack _⟩ | ⟨_, .turn _⟩
  | ⟨_, .land _⟩ | ⟨_, .fail ..⟩ | ⟨_, .inject _⟩ | ⟨_, .start _⟩ | ⟨_, .discovered _⟩ =>
    inferInstanceAs (Decidable True)

instance (moments : List Moment) (s : System) : Decidable (w.Followed moments s) :=
  decidable_of_iff
    ((∀ m ∈ moments, w.OnTime m) ∧ (∀ m ∈ moments, w.Shows m.system.controller) ∧
      w.Shows s.controller)
    ⟨fun ⟨onTime, shows, last⟩ => ⟨onTime, shows, last⟩,
      fun h => ⟨h.onTime, h.shows, h.last⟩⟩

/-! ### One look -/

variable {w} {c : Controller} {i : Nat}

/-- The time until which a run waits at most. -/
def deadline (w : Schedule) : Option Nat := w.timeout.map (w.start + ·)

/-- A deadline that has passed is a timeout that has elapsed. -/
theorem any_deadline_iff (w : Schedule) (time : Nat) :
    w.deadline.any (· ≤ time) = true ↔ w.ElapsedBy time := by
  unfold deadline ElapsedBy
  cases w.timeout <;> simp

/-- At the time of a look the caches have synced that are due until then. -/
theorem Shows.allSynced_iff (shows : w.Shows c) (apart : w.Apart) (now : c.now = w.lookTime i) :
    c.caches.allSynced = true ↔ w.SyncedBy (w.lookTime i) := by
  rw [Caches.allSynced_iff, ← now]
  refine ⟨fun h k => shows.unsynced k (h k), fun h k => ?_⟩
  obtain ⟨time, mem, hle⟩ := h k
  refine shows.synced k time mem ?_
  rcases Nat.lt_or_ge w.start time with hlater | hle'
  · have hne := apart.synced k time mem hlater i
    rw [← now] at hne
    exact .inr (Nat.lt_of_le_of_ne hle hne)
  · exact .inl hle'

/-- No shutdown is overdue as long as none was requested. -/
theorem Shows.le_of_uncancelled (shows : w.Shows c) (uncancelled : c.cancelled = false)
    {time : Nat} (mem : time ∈ w.shutdown) : c.now ≤ time := by
  by_contra hlt
  have hcancelled := shows.cancelled time mem (Nat.lt_of_not_le hlt)
  rw [uncancelled] at hcancelled
  cases hcancelled

/-- Before the next look the end of the wait has not passed, as long as nothing has ended it. -/
theorem Leads.le_of_inconclusive {time : Nat} {exit : Option Exit} (h : w.Leads time exit)
    (shows : w.Shows c) (uncancelled : c.cancelled = false) (due : c.now ≤ w.lookTime i)
    (inconclusive : ∀ j < i, ¬ w.Conclusive j) : c.now ≤ time := by
  cases h with
  | shutDown requested => exact shows.le_of_uncancelled uncancelled requested
  | launch first | giveUp first =>
    exact Nat.le_trans due (lookTime_mono (first.le_of_inconclusive inconclusive))

/-- **A look ends the wait or not.** It does if and only if it is conclusive. -/
theorem look_cases (shows : w.Shows c) (apart : w.Apart) (now : c.now = w.lookTime i)
    (uncancelled : c.cancelled = false) (idle : c.workers = 0)
    (inconclusive : ∀ j < i, ¬ w.Conclusive j) (workers : Nat) :
    (∃ exit, w.Leads (w.lookTime i) exit ∧
      (c.pollCaches workers w.deadline).GoesOn workers exit) ∨
    (¬ w.Conclusive i ∧
      (c.pollCaches workers w.deadline).phase =
        .sync workers w.deadline (w.lookTime (i + 1))) := by
  -- nothing has been requested yet, and nothing is requested at the time of a look
  have before : ∀ time ∈ w.shutdown, w.lookTime i < time := by
    intro time mem
    have hle := shows.le_of_uncancelled uncancelled mem
    rw [now] at hle
    exact Nat.lt_of_le_of_ne hle (apart.shutdown time mem i).symm
  have synced := shows.allSynced_iff apart now
  have elapsed := any_deadline_iff w (w.lookTime i)
  rw [← now] at elapsed
  unfold Controller.pollCaches
  split
  · rename_i hsynced
    have hconclusive : w.Conclusive i := .inl (synced.mp hsynced)
    refine .inl ⟨none, .launch ⟨hconclusive, inconclusive⟩ before (synced.mp hsynced), ?_⟩
    unfold Controller.launch
    simp only [uncancelled]
    exact ⟨rfl, rfl⟩
  · rename_i hunsynced
    rw [synced] at hunsynced
    split
    · rename_i helapsed
      rw [elapsed, now] at helapsed
      refine .inl ⟨_, .giveUp ⟨.inr helapsed, inconclusive⟩ before hunsynced, ?_⟩
      rw [uncancelled]
      exact ⟨rfl, idle⟩
    · rename_i hpending
      rw [elapsed, now] at hpending
      rw [uncancelled]
      refine .inr ⟨fun hconclusive => hconclusive.elim hunsynced hpending, ?_⟩
      show Phase.sync workers w.deadline (c.now + Controller.pollInterval) = _
      rw [now]
      rfl

end Schedule

/-! ### The phases of a wait -/

/-- The phases that follow the wait. -/
def Phase.IsLate : Phase → Prop
  | .running | .draining | .ended _ => True
  | .idle | .discovery _ | .sync .. => False

namespace Controller

variable {c : Controller} {a : Action} {phase : Phase}

/-- Only a look at the caches and a cancellation concern a run that waits. -/
theorem Advance.eq_of_waits {workers : Nat} {deadline : Option Nat} {nextPoll : Nat}
    (h : c.Advance a phase) (waits : c.phase = .sync workers deadline nextPoll)
    (poll : a ≠ .poll) (cancel : a ≠ .cancel) : phase = c.phase := by
  cases h with
  | stays => rfl
  | starts hp | refused hp | drains hp | ends hp => cases hp.symm.trans waits
  | launches looks | waits looks | givesUp looks =>
    cases looks with
    | discovered hp => cases hp.symm.trans waits
    | poll => exact absurd rfl poll
  | cancelled => exact absurd rfl cancel

theorem nextLook?_of_waits {workers : Nat} {deadline : Option Nat} {nextPoll : Nat}
    (waits : c.phase = .sync workers deadline nextPoll) : c.nextLook? = some nextPoll := by
  unfold nextLook?
  rw [waits]

theorem nextLook?_of_isLate (late : c.phase.IsLate) : c.nextLook? = none := by
  unfold nextLook?
  split
  · rename_i waits
    rw [waits] at late
    exact late.elim
  · rfl

theorem Looks.not_isLate (looks : c.Looks a) : ¬ c.phase.IsLate := by
  cases looks with
  | discovered hp | poll hp =>
    rw [hp]
    exact id

/-- No run goes back to the wait, and a run that has ended is left as it is. -/
theorem Advance.isLate (h : c.Advance a phase) (late : c.phase.IsLate) :
    phase.IsLate ∧ ∀ exit, c.phase = .ended exit → phase = .ended exit := by
  cases h with
  | stays => exact ⟨late, fun _ => id⟩
  | starts hp | refused hp | cancelled hp =>
    rw [hp] at late
    exact late.elim
  | launches looks | waits looks | givesUp looks => exact absurd late looks.not_isLate
  | drains hp | ends hp => exact ⟨trivial, fun _ hended => nomatch hp.symm.trans hended⟩

end Controller

namespace Schedule

variable {w : Schedule} {workers : Nat} {moments : List Moment} {s : System} {a : Action}

/-- Where a run stands that goes by a schedule. -/
inductive Stage (w : Schedule) (workers : Nat) (moments : List Moment) (c : Controller) : Prop where
  /-- The look `i` was the last one, and no look was conclusive so far. -/
  | waits {i : Nat} (phase : c.phase = .sync workers w.deadline (w.lookTime (i + 1)))
      (due : c.now ≤ w.lookTime (i + 1)) (inconclusive : ∀ j < i + 1, ¬ w.Conclusive j)
      (uncancelled : c.cancelled = false)
  | finished {time : Nat} {exit : Option Exit} {m : Moment} (leads : w.Leads time exit)
      (mem : m ∈ moments) (ends : m.EndsWait workers time exit) (late : c.phase.IsLate)
      (ended : ∀ e ∈ exit, c.phase = .ended e)

/-- What the schedule leads to is where the run stands once it has gone on as the schedule says. -/
theorem Stage.of_goesOn {exit : Option Exit} (leads : w.Leads s.controller.now exit)
    (unended : s.controller.exit? = none) (idle : s.controller.workers = 0)
    (goesOn : (s.next a).controller.GoesOn workers exit) :
    w.Stage workers (moments ++ [⟨s, a⟩]) (s.next a).controller := by
  have mem : Moment.mk s a ∈ moments ++ [⟨s, a⟩] :=
    List.mem_append_right _ (List.mem_singleton_self _)
  have ends : Moment.EndsWait ⟨s, a⟩ workers s.controller.now exit :=
    ⟨rfl, unended, idle, goesOn⟩
  cases exit with
  | none =>
    refine .finished leads mem ends ?_ nofun
    rw [goesOn.1]
    trivial
  | some exit =>
    have hended := Controller.exit?_eq_some_iff.mp goesOn.1
    refine .finished leads mem ends ?_ ?_
    · rw [hended]
      trivial
    · rintro e ⟨⟩
      exact hended

/-- The stage after a look. -/
theorem Stage.of_look {i : Nat} (shows : w.Shows s.controller) (apart : w.Apart)
    (now : s.controller.now = w.lookTime i) (uncancelled : s.controller.cancelled = false)
    (idle : s.controller.workers = 0) (inconclusive : ∀ j < i, ¬ w.Conclusive j)
    (unended : s.controller.exit? = none)
    (next : (s.next a).controller = s.controller.pollCaches workers w.deadline)
    (tick : a.tick s.controller.clock = s.controller.clock) :
    w.Stage workers (moments ++ [⟨s, a⟩]) (s.next a).controller := by
  have clock := (s.clock_next a).trans tick
  have hnow : (s.next a).controller.now = w.lookTime i := (congrArg Prod.fst clock).trans now
  rcases look_cases shows apart now uncancelled idle inconclusive workers with
    ⟨exit, leads, goesOn⟩ | ⟨hunconclusive, hphase⟩
  · rw [← now] at leads
    rw [← next] at goesOn
    exact .of_goesOn leads unended idle goesOn
  · rw [← next] at hphase
    refine .waits hphase ?_ (fun j hj => ?_) ((congrArg Prod.snd clock).trans uncancelled)
    · rw [hnow]
      exact lookTime_mono (Nat.le_succ i)
    · rcases Nat.lt_succ_iff_lt_or_eq.mp hj with hlt | rfl
      · exact inconclusive j hlt
      · exact hunconclusive

/-- What every moment of a run keeps that goes by a schedule. -/
structure Progress (w : Schedule) (workers : Nat) (moments : List Moment) (s : System) : Prop where
  manned : s.controller.Manned
  looks : ∀ m ∈ moments, m.system.controller.Looks m.action →
    ∃ i, m.system.controller.now = w.lookTime i
  stage : w.Stage workers moments s.controller

/-- **One action.** A wait goes on, or it ends as its schedule says. -/
theorem Stage.next (stage : w.Stage workers moments s.controller) (apart : w.Apart)
    (manned : s.controller.Manned) (enabled : s.Enabled a) (onTime : w.OnTime ⟨s, a⟩)
    (shows : w.Shows s.controller) :
    w.Stage workers (moments ++ [⟨s, a⟩]) (s.next a).controller := by
  have advance := (System.controller_step enabled).advance manned
  have clock := s.clock_next a
  cases stage with
  | @waits i phase due inconclusive uncancelled =>
    have unended : s.controller.exit? = none := by simp [Controller.exit?, phase]
    have idle := manned.workers_eq_zero (by simp [phase]) (by simp [phase])
    by_cases hpoll : a = .poll
    · subst hpoll
      -- time has not passed the look, so it is made when it is due
      have now := Nat.le_antisymm due (onTime _ (Controller.nextLook?_of_waits phase))
      refine .of_look shows apart now uncancelled idle inconclusive unended ?_ rfl
      show s.controller.poll = _
      unfold Controller.poll
      rw [phase]
    by_cases hcancel : a = .cancel
    · subst hcancel
      refine .of_goesOn (.shutDown onTime fun j hfirst => ?_) unended idle ?_
      · -- the first conclusive look is still to come
        have hle : w.lookTime (i + 1) ≤ _ := lookTime_mono (hfirst.le_of_inconclusive inconclusive)
        exact Nat.lt_of_le_of_ne (Nat.le_trans due hle) (apart.shutdown _ onTime j)
      · show s.controller.cancel.GoesOn workers _
        unfold Controller.cancel
        simp only [phase]
        exact ⟨rfl, idle⟩
    · have hphase := (advance.eq_of_waits phase hpoll hcancel).trans phase
      have uncancelled' : (s.next a).controller.cancelled = false := by
        refine (congrArg Prod.snd clock).trans (Eq.trans ?_ uncancelled)
        cases a <;> first | rfl | exact absurd rfl hcancel
      refine .waits hphase ?_ inconclusive uncancelled'
      have hnow : (s.next a).controller.now = _ := congrArg Prod.fst clock
      rw [hnow]
      cases a with
      | wait time => exact onTime _ (Controller.nextLook?_of_waits phase)
      | _ => exact due
  | finished leads mem ends late ended =>
    obtain ⟨late', stays⟩ := advance.isLate late
    exact .finished leads (List.mem_append_left _ mem) ends late' fun e he => stays e (ended e he)

/-- A run keeps to its schedule with every action that is on time. -/
theorem Progress.next (h : w.Progress workers moments s) (apart : w.Apart)
    (enabled : s.Enabled a) (onTime : w.OnTime ⟨s, a⟩) (shows : w.Shows s.controller) :
    w.Progress workers (moments ++ [⟨s, a⟩]) (s.next a) := by
  refine ⟨System.manned_next h.manned enabled, fun m hm looks => ?_,
    h.stage.next apart h.manned enabled onTime shows⟩
  rcases List.mem_append.mp hm with hm | hm
  · exact h.looks m hm looks
  · obtain rfl := List.mem_singleton.mp hm
    cases h.stage with
    | waits phase due =>
      cases looks with
      | discovered hp => cases hp.symm.trans phase
      | poll => exact ⟨_, Nat.le_antisymm due (onTime _ (Controller.nextLook?_of_waits phase))⟩
    | finished _ _ _ late => exact absurd late looks.not_isLate

/-- A controller can wait if the end of the wait of its schedule can be told. -/
theorem Begins.canWait_iff {raw : String} (begins : w.Begins workers s raw) :
    s.controller.config.canWait s.controller.now = true ↔ w.Tellable := by
  unfold ControllerConfig.canWait Tellable
  rw [begins.timeout, begins.start]
  cases w.timeout <;> simp

/-- The first look is made when the wait begins. -/
theorem progress_of_begins {raw : String} (begins : w.Begins workers s raw)
    (tellable : w.Tellable) (apart : w.Apart) (manned : s.controller.Manned)
    (shows : w.Shows s.controller) :
    w.Progress workers [⟨s, .discovered (.ok raw)⟩] (s.next (.discovered (.ok raw))) := by
  have now : s.controller.now = w.lookTime 0 := begins.start
  have unended : s.controller.exit? = none := by simp [Controller.exit?, begins.phase]
  have idle := manned.workers_eq_zero (by simp [begins.phase]) (by simp [begins.phase])
  have next : (s.next (.discovered (.ok raw))).controller =
      s.controller.pollCaches workers w.deadline := by
    have admitted : s.controller.config.obstacle s.controller.now (.ok raw) = none :=
      ControllerConfig.obstacle_eq_none_iff.mpr ⟨begins.accepted, begins.canWait_iff.mpr tellable⟩
    show s.controller.discovered (.ok raw) = _
    unfold Controller.discovered
    simp only [begins.phase, admitted]
    rw [begins.start, begins.timeout]
    rfl
  have stage : w.Stage workers ([] ++ [⟨s, .discovered (.ok raw)⟩]) _ :=
    .of_look shows apart now begins.uncancelled idle nofun unended next rfl
  refine ⟨System.manned_next manned trivial, fun m hm _ => ?_, stage⟩
  obtain rfl := List.mem_singleton.mp hm
  exact ⟨0, now⟩

/-- A run keeps to its schedule over a whole wait, if everything is on time. -/
theorem progress_of_trace {m : Moment} {wait : List Moment} {s' : System}
    (trace : System.Trace s wait s') (first : w.Progress workers [m] s) (apart : w.Apart)
    (onTime : ∀ m ∈ wait, w.OnTime m) (shows : ∀ m ∈ wait, w.Shows m.system.controller) :
    w.Progress workers (m :: wait) s' := by
  induction trace with
  | start => exact first
  | @step past s' a trace enabled ih =>
    have here : Moment.mk s' a ∈ past ++ [⟨s', a⟩] :=
      List.mem_append_right _ (List.mem_singleton_self _)
    have before := ih (fun m hm => onTime m (List.mem_append_left _ hm))
      fun m hm => shows m (List.mem_append_left _ hm)
    exact before.next apart enabled (onTime _ here) (shows _ here)

end Schedule

namespace System

variable {config : ControllerConfig} {metrics : Option Metrics} {caches : Caches}
variable {store : MemoryStore} {s₀ s : System} {w : Schedule} {workers : Nat}

/-- The wait for the caches goes by a schedule. -/
structure WaitsBy (w : Schedule) (workers : Nat) (moments : List Moment) (s : System) :
    Prop where
  /-- The caches are looked at every `Controller.pollInterval`. -/
  looks : ∀ m ∈ moments, m.system.controller.Looks m.action →
    ∃ i, m.system.controller.now = w.lookTime i
  /-- A run that still waits has started no worker, and the end of the wait has not passed. -/
  waits : s.controller.nextLook? ≠ none →
    s.controller.workers = 0 ∧ ∀ time exit, w.Leads time exit → s.controller.now ≤ time
  /-- The wait has ended when the schedule says, and the run goes on or has ended as it says. -/
  finished : s.controller.nextLook? = none →
    ∃ time exit, w.Leads time exit ∧ (∃ m ∈ moments, m.EndsWait workers time exit) ∧
      ∀ e ∈ exit, s.controller.exit? = some e ∧ s.controller.workers = 0
  /-- The schedule says it once. -/
  unique : ∀ time exit time' exit', w.Leads time exit → w.Leads time' exit' →
    time = time' ∧ exit = exit'
  /-- A timeout ends the wait, at the next look after it at the latest. -/
  bounded : ∀ timeout ∈ w.timeout, ∀ i, timeout ≤ Controller.pollInterval * i →
    (∃ time exit, w.Leads time exit ∧ time ≤ w.lookTime i) ∧
      (s.controller.nextLook? ≠ none → s.controller.now ≤ w.lookTime i)
  /-- Without a timeout only a shutdown and synced caches end the wait. -/
  unlimited : w.timeout = none → ∀ time exit, w.Leads time exit →
    (exit = some .completed ∧ time ∈ w.shutdown) ∨ (exit = none ∧ w.SyncedBy time)

/-- A wait whose end can be told goes by its schedule. -/
theorem waitsBy_of_tellable {before wait : List Moment} {raw : String}
    (trace : Trace (fresh config metrics caches store)
      (before ++ ⟨s₀, .discovered (.ok raw)⟩ :: wait) s)
    (begins : w.Begins workers s₀ raw) (tellable : w.Tellable) (apart : w.Apart)
    (followed : w.Followed (⟨s₀, .discovered (.ok raw)⟩ :: wait) s) :
    WaitsBy w workers (⟨s₀, .discovered (.ok raw)⟩ :: wait) s := by
  have manned := (guarded_of_trace trace.split.1).manned
  have progress : w.Progress workers (⟨s₀, .discovered (.ok raw)⟩ :: wait) s :=
    Schedule.progress_of_trace trace.tail
      (Schedule.progress_of_begins begins tellable apart manned
        (followed.shows _ List.mem_cons_self)) apart
      (fun m hm => followed.onTime m (List.mem_cons_of_mem _ hm))
      fun m hm => followed.shows m (List.mem_cons_of_mem _ hm)
  -- what can be said while the wait goes on
  have waits : s.controller.nextLook? ≠ none →
      s.controller.workers = 0 ∧ ∀ time exit, w.Leads time exit → s.controller.now ≤ time := by
    intro hwaits
    cases progress.stage with
    | waits phase due inconclusive uncancelled =>
      exact ⟨progress.manned.workers_eq_zero (by simp [phase]) (by simp [phase]),
        fun time exit leads => leads.le_of_inconclusive followed.last uncancelled due inconclusive⟩
    | finished _ _ _ late => exact absurd (Controller.nextLook?_of_isLate late) hwaits
  refine ⟨progress.looks, waits, fun hfinished => ?_,
    fun time exit time' exit' leads leads' => leads.unique leads', ?_,
    fun unlimited time exit leads => leads.of_unlimited unlimited⟩
  · cases progress.stage with
    | waits phase =>
      rw [Controller.nextLook?_of_waits phase] at hfinished
      cases hfinished
    | finished leads mem ends late ended =>
      refine ⟨_, _, leads, ⟨_, mem, ends⟩, fun e he => ?_⟩
      have hphase := ended e he
      exact ⟨Controller.exit?_eq_some_iff.mpr hphase,
        progress.manned.workers_eq_zero (by simp [hphase]) (by simp [hphase])⟩
  · intro timeout hsome i hle
    obtain ⟨time, exit, leads, hend⟩ :=
      (Schedule.conclusive_of_timeout hsome hle).exists_leads apart
    exact ⟨⟨time, exit, leads, hend⟩,
      fun hwaits => Nat.le_trans ((waits hwaits).2 time exit leads) hend⟩

/-! ### Ends that cannot be told -/

/-- A run breaks off: it ends with the first of some moments, before it has looked at the caches,
taken a key or made a write. -/
structure BreaksOff (moments : List Moment) (s : System) : Prop where
  ended : s.controller.exit? = some .broken
  idle : s.controller.workers = 0
  still : ∀ m ∈ moments, ¬ m.Works ∧ ¬ m.system.controller.Looks m.action
  /-- It has ended after each of the moments. -/
  stays : ∀ m ∈ moments, (m.system.next m.action).controller.exit? = some .broken

/-- **What has ended stays so.** -/
theorem Trace.ended {past : List Moment} (trace : Trace s₀ past s)
    (manned : s₀.controller.Manned) {exit : Exit} (ended : s₀.controller.phase = .ended exit) :
    s.controller.Manned ∧ s.controller.phase = .ended exit ∧
      ∀ m ∈ past, m.system.controller.phase = .ended exit ∧
        (m.system.next m.action).controller.phase = .ended exit := by
  induction trace with
  | start => exact ⟨manned, ended, fun m hm => absurd hm List.not_mem_nil⟩
  | @step past s a _ enabled ih =>
    obtain ⟨manned, ended, before⟩ := ih
    have late : s.controller.phase.IsLate := by
      rw [ended]
      trivial
    have stays := ((controller_step enabled).advance manned).isLate late
    have ended' := stays.2 exit ended
    refine ⟨manned_next manned enabled, ended', fun m hm => ?_⟩
    rcases List.mem_append.mp hm with hm | hm
    · exact before m hm
    · obtain rfl := List.mem_singleton.mp hm
      exact ⟨ended, ended'⟩

/-- A run whose wait has an end that cannot be told breaks off. -/
theorem breaksOff_of_not_tellable {before wait : List Moment} {raw : String}
    (trace : Trace (fresh config metrics caches store)
      (before ++ ⟨s₀, .discovered (.ok raw)⟩ :: wait) s)
    (begins : w.Begins workers s₀ raw) (untold : ¬ w.Tellable) :
    BreaksOff (⟨s₀, .discovered (.ok raw)⟩ :: wait) s := by
  obtain ⟨first, enabled⟩ := trace.split
  have manned := (guarded_of_trace first).manned
  have obstacle : s₀.controller.config.obstacle s₀.controller.now (.ok raw) = some .broken := by
    simp [ControllerConfig.obstacle, begins.accepted, begins.canWait_iff, untold]
  have broken : (s₀.next (.discovered (.ok raw))).controller.phase = .ended .broken := by
    show (s₀.controller.discovered (.ok raw)).phase = _
    unfold Controller.discovered
    simp only [begins.phase, obstacle]
    rfl
  obtain ⟨manned', ended, later⟩ := trace.tail.ended (manned_next manned enabled) broken
  have guarded := guarded_of_trace trace
  have nothing := (guarded.idle (by simp [ended]) (by simp [ended]) (by simp [ended])).1
  refine ⟨Controller.exit?_eq_some_iff.mpr ended,
    manned'.workers_eq_zero (by simp [ended]) (by simp [ended]), fun m hm => ?_, fun m hm => ?_⟩
  · refine ⟨nothing m (List.mem_append_right _ hm), fun looks => ?_⟩
    rcases List.mem_cons.mp hm with rfl | hm
    · cases looks with
      | discovered _ admitted => cases obstacle.symm.trans admitted
    · -- later there is nothing to look for: the run has ended
      refine looks.not_isLate ?_
      rw [(later m hm).1]
      trivial
  · refine Controller.exit?_eq_some_iff.mpr ?_
    rcases List.mem_cons.mp hm with rfl | hm
    · exact broken
    · exact (later m hm).2

/-- No schedule lets a run break off. -/
theorem BreaksOff.not_waitsBy {moments : List Moment} (h : BreaksOff moments s) :
    ¬ WaitsBy w workers moments s := by
  intro waits
  have finished : s.controller.nextLook? = none := by
    have hphase := Controller.exit?_eq_some_iff.mp h.ended
    simp [Controller.nextLook?, hphase]
  obtain ⟨time, exit, leads, ⟨m, hm, ends⟩, hexit⟩ := waits.finished finished
  cases exit with
  | none =>
    have hphase := Controller.exit?_eq_some_iff.mp (h.stays m hm)
    cases hphase.symm.trans ends.goesOn.1
  | some exit =>
    obtain rfl := Option.some.inj ((hexit exit rfl).1.symm.trans h.ended)
    cases leads

/-- **The wait ends when it should, if its end can be told.** A run that is given such a schedule
looks at the caches in time, starts its workers at the first look at which all caches have synced,
gives up at the first look after the timeout if they have not, and ends at once if shutdown is
requested before. Otherwise the run breaks off before its first look. -/
theorem waits_iff_of_trace {before wait : List Moment} {raw : String}
    (trace : Trace (fresh config metrics caches store)
      (before ++ ⟨s₀, .discovered (.ok raw)⟩ :: wait) s)
    (begins : w.Begins workers s₀ raw) (apart : w.Apart)
    (followed : w.Followed (⟨s₀, .discovered (.ok raw)⟩ :: wait) s) :
    (WaitsBy w workers (⟨s₀, .discovered (.ok raw)⟩ :: wait) s ↔ w.Tellable) ∧
      (¬ w.Tellable → BreaksOff (⟨s₀, .discovered (.ok raw)⟩ :: wait) s) := by
  have breaks : ¬ w.Tellable → BreaksOff (⟨s₀, .discovered (.ok raw)⟩ :: wait) s :=
    breaksOff_of_not_tellable trace begins
  refine ⟨⟨fun waits => ?_, fun tellable => ?_⟩, breaks⟩
  · by_contra untold
    exact (breaks untold).not_waitsBy waits
  · exact waitsBy_of_tellable trace begins tellable apart followed

/-- The caches take their time: the last one syncs after the timeout, but before the look that
follows. -/
def lateSync : Schedule where
  start := 10
  timeout := some 150
  synced
    | .classCapability => some 0
    | .storageClass => some 30
    | .provisionerCapability => some 120
    | .snapshotClass => some 190
  shutdown := some 1000

/-- A system whose caches sync late, before it starts. -/
def lateFresh : System := fresh { syncTimeout := some 150 } none {} {}

/-- One cache has synced before the wait begins. -/
def lateOpening : List Action :=
  [.observe .classCapability (.restarted []), .wait 10, .start 3]

/-- The others sync one after the other while they are waited for. -/
def lateWait : List Action :=
  [.discovered (.ok "v1.20.0"), .wait 30, .observe .storageClass (.restarted [sampleClass]),
    .wait 110, .poll, .wait 120,
    .observe .provisionerCapability (.restarted [sampleProvisioner]), .wait 190,
    .observe .snapshotClass (.restarted []), .wait 210, .poll]

/-- The system when the version of its cluster arrives. -/
def lateStart : System := lateOpening.foldl next lateFresh

/-- The workers start at the look at which the caches have synced, although the time is over. -/
theorem waits_lateSync : ∃ s,
    Trace lateFresh (lateFresh.moments lateOpening ++ lateStart.moments lateWait) s ∧
    WaitsBy lateSync 3 (lateStart.moments lateWait) s ∧
    s.controller.phase = .running ∧ s.controller.workers = 3 ∧ s.controller.now = 210 := by
  have computed : (lateFresh.follow (lateOpening ++ lateWait)).any (fun s => decide
      (lateSync.Followed (lateStart.moments lateWait) s ∧ s.controller.phase = .running ∧
        s.controller.workers = 3 ∧ s.controller.now = 210)) = true := by
    decide +kernel
  obtain ⟨s, hfollow, hlast⟩ := (Option.any_eq_true _ _).mp computed
  obtain ⟨followed, hphase, hworkers, hnow⟩ := of_decide_eq_true hlast
  have trace : Trace lateFresh (lateFresh.moments lateOpening ++ lateStart.moments lateWait) s :=
    trace_of_follow hfollow
  have begins : lateSync.Begins 3 lateStart "v1.20.0" :=
    ⟨rfl, by decide +kernel, rfl, rfl, rfl⟩
  have apart : lateSync.Apart := by
    refine ⟨?_, fun k => ?_⟩
    · rintro time ⟨⟩ i
      show 1000 ≠ 10 + 100 * i
      omega
    · cases k <;> rintro time ⟨⟩ hlater i <;> show _ ≠ 10 + 100 * i <;> omega
  have tellable : lateSync.Tellable := by
    rintro timeout ⟨⟩
    decide
  exact ⟨s, trace, (waits_iff_of_trace trace begins apart followed).1.mpr tellable, hphase,
    hworkers, hnow⟩

/-- The longest timeout that can be asked for, in whole seconds of 64 bits, and caches that have
synced before the wait begins. -/
def endless : Schedule where
  start := 10
  timeout := some ((UInt64.size - 1) * 1000)
  synced _ := some 0
  shutdown := none

/-- A system with the longest timeout, before it starts. -/
def endlessFresh : System :=
  fresh { syncTimeout := some ((UInt64.size - 1) * 1000) } none {} {}

/-- All caches sync before the wait for them begins. -/
def endlessOpening : List Action :=
  [.observe .storageClass (.restarted []), .observe .snapshotClass (.restarted []),
    .observe .provisionerCapability (.restarted []), .observe .classCapability (.restarted []),
    .wait 10, .start 1]

/-- The system when the version of its cluster arrives. -/
def endlessStart : System := endlessOpening.foldl next endlessFresh

/-- **The longest timeout breaks the run off.** Its caches have synced, so the workers should start
at once. -/
theorem not_waits_endless : ∃ s,
    Trace endlessFresh (endlessFresh.moments endlessOpening ++
      [⟨endlessStart, .discovered (.ok "v1.20.0")⟩]) s ∧
    endless.Begins 1 endlessStart "v1.20.0" ∧ endless.Apart ∧
    endless.Followed [⟨endlessStart, .discovered (.ok "v1.20.0")⟩] s ∧
    endless.Leads 10 none ∧ s.controller.exit? = some .broken ∧
    ¬ WaitsBy endless 1 [⟨endlessStart, .discovered (.ok "v1.20.0")⟩] s := by
  have computed : (endlessFresh.follow (endlessOpening ++ [.discovered (.ok "v1.20.0")])).any
      (fun s => decide
        (endless.Followed [⟨endlessStart, .discovered (.ok "v1.20.0")⟩] s)) = true := by
    decide +kernel
  obtain ⟨s, hfollow, hfollowed⟩ := (Option.any_eq_true _ _).mp computed
  have followed := of_decide_eq_true hfollowed
  have trace : Trace endlessFresh (endlessFresh.moments endlessOpening ++
      [⟨endlessStart, .discovered (.ok "v1.20.0")⟩]) s :=
    trace_of_follow hfollow
  have begins : endless.Begins 1 endlessStart "v1.20.0" :=
    ⟨rfl, by decide +kernel, rfl, rfl, rfl⟩
  have apart : endless.Apart := by
    refine ⟨nofun, fun k => ?_⟩
    rintro time ⟨⟩ hlater
    cases hlater
  have untold : ¬ endless.Tellable := fun h => absurd (h _ rfl) (by decide)
  have leads : endless.Leads 10 none := by
    have synced : endless.SyncedBy (endless.lookTime 0) := fun k => ⟨0, rfl, Nat.zero_le _⟩
    have first : endless.First 0 := ⟨.inl synced, nofun⟩
    exact .launch first nofun synced
  have breaks : BreaksOff _ s := breaksOff_of_not_tellable trace begins untold
  exact ⟨s, trace, begins, apart, followed, leads, breaks.ended, breaks.not_waitsBy⟩

end System

end StorageFeatures
