import StorageFeatures.Proofs.Controller.Crew
import StorageFeatures.Proofs.Queue.Order
import Mathlib.Data.List.Induction

/-!
# Traces of a system

`System.Run` says that a run exists; a `System.Trace` also lists its moments, so that what happened
in a run can be told and counted: which keys were taken (`Moment.taken?`), which moments did any
work (`Moment.Works`), and over which key a pass ended and how (`Moment.ended?`, `Moment.verdict?`).
-/

namespace StorageFeatures

/-- An action and the system in which it is taken. -/
structure Moment where
  system : System
  action : Action

namespace Moment

/-- The key that a worker takes from the queue. -/
def taken? (m : Moment) : Option String :=
  match m.action with
  | .turn worker => (m.system.controller.queue.poll (.worker worker)).2.key?
  | _ => none

/-- How the pass has ended that ends in this moment. -/
def verdict? (m : Moment) : Option (Except Fault Sync.Outcome) :=
  match m.action with
  | .turn _ => m.taken?.bind (Sync.verdict? m.system.controller.caches)
  | .land pass => some (Sync.conclude pass.call
      ((m.system.store.run m.system.controller.caches pass.call).2.2.map fun _ => ()))
  | .fail pass fault => some (Sync.conclude pass.call (.error fault))
  | _ => none

/-- Whether a key is taken, or a write of a pass is answered. -/
def Works (m : Moment) : Prop :=
  match m.action with
  | .turn _ => m.taken?.isSome
  | .land _ | .fail .. => True
  | _ => False

/-- The keys that are taken in some moments, in order. -/
def takenKeys (moments : List Moment) : List String := moments.filterMap taken?

/-- Only a worker that moves takes a key. -/
theorem taken?_of_not_isMove {m : Moment} (h : m.action.isMove = false) : m.taken? = none := by
  obtain ⟨s, a⟩ := m
  cases a <;> first | rfl | cases h

theorem takenKeys_concat (moments : List Moment) (m : Moment) :
    takenKeys (moments ++ [m]) = takenKeys moments ++ m.taken?.toList := by
  rw [takenKeys, List.filterMap_append, List.filterMap_cons]
  cases m.taken? <;> rfl

/-- The pass that ends in this moment: its key, and how it has ended. -/
def ended? (m : Moment) : Option (String × Except Fault Sync.Outcome) :=
  match m.action with
  | .turn _ => m.taken?.bind fun k => (Sync.verdict? m.system.controller.caches k).map (k, ·)
  | .land pass | .fail pass _ => m.verdict?.map (pass.key, ·)
  | _ => none

/-- The controller when the pass of this moment ends: a worker that has its turn has taken its key
before. -/
def holding (m : Moment) : Controller :=
  match m.action with
  | .turn worker => m.system.controller.polled worker
  | _ => m.system.controller

/-- **A pass is finished with its verdict.** Since the key was taken nothing has happened to the
queue and to the keys that are kept. -/
theorem finish_of_ended? {m : Moment} {k : String} {result : Except Fault Sync.Outcome}
    (h : m.ended? = some (k, result)) :
    ∃ c worker, (m.system.next m.action).controller = Controller.finish c worker k result ∧
      c.queue = m.holding.queue ∧ c.requeues = m.holding.requeues ∧ c.now = m.holding.now := by
  obtain ⟨s, a⟩ := m
  cases a with
  | turn worker =>
    obtain ⟨k', hk, hend⟩ := Option.bind_eq_some_iff.mp h
    obtain ⟨result', hv, heq⟩ := Option.map_eq_some_iff.mp hend
    obtain ⟨rfl, rfl⟩ := Prod.mk.inj heq
    have turned := s.controller.turn_worker worker
    show ∃ c worker', (s.controller.turn (.worker worker)).1 = Controller.finish c worker' _ _ ∧ _
    simp only [taken?] at hk
    generalize (s.controller.turn (.worker worker)).1 = c' at turned ⊢
    cases turned with
    | sleeps hp | leaves hp =>
      rw [hp] at hk
      cases hk
    | settles hp hv' =>
      rw [hp] at hk
      obtain rfl := Option.some.inj hk
      obtain rfl := Option.some.inj (hv'.symm.trans hv)
      exact ⟨_, _, rfl, rfl, rfl, rfl⟩
    | begins hp hv' =>
      rw [hp] at hk
      obtain rfl := Option.some.inj hk
      -- a pass that begins has no verdict yet
      cases hv.symm.trans hv'
  | land pass | fail pass fault =>
    obtain ⟨rfl, rfl⟩ := Prod.mk.inj (Option.some.inj h)
    exact ⟨_, _, rfl, rfl, rfl, rfl⟩
  | _ => cases h

end Moment

namespace System

variable {s s' : System} {a : Action} {past : List Moment}

/-- A run with all its moments, the earliest first. -/
inductive Trace (s : System) : List Moment → System → Prop where
  | start : Trace s [] s
  | step {past : List Moment} {s' : System} {a : Action} (trace : Trace s past s')
      (enabled : s'.Enabled a) : Trace s (past ++ [⟨s', a⟩]) (s'.next a)

/-- Every run has a trace, and every trace is one of a run. -/
theorem run_iff_exists_trace : Run (fun _ => True) s s' ↔ ∃ past, Trace s past s' := by
  constructor
  · intro run
    induction run with
    | refl => exact ⟨[], .start⟩
    | tail _ step ih =>
      obtain ⟨past, trace⟩ := ih
      obtain ⟨a, -, enabled, rfl⟩ := step
      exact ⟨_, trace.step enabled⟩
  · rintro ⟨past, trace⟩
    induction trace with
    | start => exact .refl
    | step _ enabled ih => exact ih.tail ⟨_, trivial, enabled, rfl⟩

/-- The last moment of a trace. -/
theorem Trace.last {m : Moment} (trace : Trace s (past ++ [m]) s') :
    Trace s past m.system ∧ m.system.Enabled m.action ∧ s' = m.system.next m.action := by
  generalize hl : past ++ [m] = l at trace
  cases trace with
  | start => simp at hl
  | step trace enabled =>
    obtain ⟨rfl, hm⟩ := List.append_inj' hl rfl
    obtain rfl := List.singleton_inj.mp hm
    exact ⟨trace, enabled, rfl⟩

/-- What comes before a moment is a trace, too. -/
theorem Trace.split {m : Moment} {rest : List Moment}
    (trace : Trace s (past ++ m :: rest) s') :
    Trace s past m.system ∧ m.system.Enabled m.action := by
  induction rest using List.reverseRecOn generalizing s' with
  | nil => exact ⟨trace.last.1, trace.last.2.1⟩
  | append_singleton rest m' ih =>
    rw [← List.cons_append, ← List.append_assoc] at trace
    exact ih trace.last.1

/-- What comes after a moment is a trace of the system after it. -/
theorem Trace.tail {m : Moment} {rest : List Moment} (trace : Trace s (past ++ m :: rest) s') :
    Trace (m.system.next m.action) rest s' := by
  induction rest using List.reverseRecOn generalizing s' with
  | nil =>
    obtain ⟨-, -, rfl⟩ := trace.last
    exact .start
  | append_singleton rest m' ih =>
    rw [← List.cons_append, ← List.append_assoc] at trace
    obtain ⟨before, enabled, rfl⟩ := trace.last
    exact .step (ih before) enabled

theorem Trace.head (enabled : s.Enabled a) (trace : Trace (s.next a) past s') :
    Trace s (⟨s, a⟩ :: past) s' := by
  induction trace with
  | start => exact .step .start enabled
  | step _ enabled' ih => exact ih.step enabled'

/-- The moments of a sequence of actions. -/
def moments (s : System) : List Action → List Moment
  | [] => []
  | a :: actions => ⟨s, a⟩ :: (s.next a).moments actions

/-- Actions that can be followed leave their moments as a trace. -/
theorem trace_of_follow {actions : List Action} (h : s.follow actions = some s') :
    Trace s (s.moments actions) s' := by
  induction actions generalizing s with
  | nil =>
    cases h
    exact .start
  | cons a actions ih =>
    unfold follow at h
    split at h
    · rename_i enabled
      exact .head enabled (ih h)
    · cases h

/-! ### Open passes -/

/-- A key that is taken begins a pass, and a verdict ends one. -/
theorem passes_next (enabled : s.Enabled a) :
    (if (Moment.mk s a).verdict?.isSome then 1 else 0) + (s.next a).controller.passes.length =
      s.controller.passes.length + (Moment.mk s a).taken?.toList.length := by
  have step := controller_step enabled
  generalize (s.next a).controller = c' at step ⊢
  -- without a turn or an answer no pass begins or ends
  have quiet : a.isMove = false → c'.passes = s.controller.passes →
      (if (Moment.mk s a).verdict?.isSome then 1 else 0) + c'.passes.length =
        s.controller.passes.length + (Moment.mk s a).taken?.toList.length := by
    intro ha hsame
    rw [hsame]
    cases a <;> first | exact Nat.zero_add _ | cases ha
  -- a pass ends, and its worker runs next
  have ended : ∀ (c : Controller) {pass : Pass} (answer : Except Fault Unit), pass ∈ c.passes →
      1 + (c.conclude pass answer).passes.length = c.passes.length + 0 := by
    intro c pass answer mem
    have hpos := List.length_pos_of_mem mem
    rw [(Controller.SameCrew.conclude c pass answer).passes, List.length_erase_of_mem mem]
    omega
  cases step with
  | routine same ks keys hquiet => exact quiet hquiet same.passes
  | @turn worker _ enabled turned =>
    show (if ((s.controller.queue.poll (.worker worker)).2.key?.bind
        (Sync.verdict? s.controller.caches)).isSome then 1 else 0) + c'.passes.length = _ +
        (s.controller.queue.poll (.worker worker)).2.key?.toList.length
    cases turned with
    | sleeps hp =>
      rw [hp]
      exact Nat.zero_add _
    | leaves hp =>
      rw [hp, Controller.settleExit_eq]
      exact Nat.zero_add _
    | settles hp hv =>
      rw [hp, (Controller.SameCrew.finish (s.controller.polled worker) worker _ _).passes]
      simp only [Polled.key?, Option.bind_some, hv]
      exact Nat.add_comm _ _
    | begins hp hv =>
      rw [hp]
      simp only [Polled.key?, Option.bind_some, hv]
      rw [List.length_append]
      exact Nat.zero_add _
  | land mem caches answer => exact ended { s.controller with caches } answer mem
  | fail mem fault => exact ended s.controller _ mem
  | start | refused | giveUp => exact quiet rfl rfl
  | look looks workers deadline =>
    obtain ⟨_, _, _, _, hlook⟩ := s.controller.pollCaches_eq workers deadline
    exact quiet looks.isMove (by rw [hlook])
  | shutDown => exact quiet rfl (by rw [Controller.drain_eq])

/-- Keys that were taken have a verdict or an open pass. -/
theorem Trace.passes (trace : Trace s past s') :
    past.countP (·.verdict?.isSome) + s'.controller.passes.length =
      s.controller.passes.length + (Moment.takenKeys past).length := by
  induction trace with
  | start => exact Nat.add_comm _ _
  | @step past s' a trace enabled ih =>
    have step := passes_next enabled
    rw [Moment.takenKeys_concat, List.length_append, List.countP_append, List.countP_singleton]
    omega

end System

end StorageFeatures
