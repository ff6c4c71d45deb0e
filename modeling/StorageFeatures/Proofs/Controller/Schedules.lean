import StorageFeatures.Controller.Run
import Mathlib.Logic.Basic
import Mathlib.Tactic.ByContra

/-!
# Schedules of the wait for the caches

Before the workers start, a run looks at the caches every `Controller.pollInterval` until a look is
conclusive: all caches have synced, or the time is over. A `Schedule` lists the times on which the
wait depends, and `Schedule.Leads` says when and how a wait with such a schedule ends:

* at the first conclusive look the workers start if all caches have synced, even if the time is
  over, and otherwise the run gives up;
* a shutdown that is requested before that look ends the run at once.

This file is about the schedules alone: they lead to one end (`Schedule.Leads.unique`), and with a
timeout they lead to it by the next look after the timeout (`Schedule.Conclusive.exists_leads`).
-/

namespace StorageFeatures

/-- The times on which a wait for the caches depends. -/
structure Schedule where
  /-- When the wait begins. -/
  start : Nat
  timeout : Option Nat
  /-- When each cache becomes synced, if it ever does. -/
  synced : Kind → Option Nat
  /-- When shutdown is requested, if it ever is. -/
  shutdown : Option Nat

namespace Schedule

variable (w : Schedule)

/-- The times of the looks at the caches. -/
def lookTime (i : Nat) : Nat := w.start + Controller.pollInterval * i

/-- All caches have become synced until some time. -/
def SyncedBy (time : Nat) : Prop := ∀ k, ∃ t ∈ w.synced k, t ≤ time

/-- There is a timeout, and it has elapsed. -/
def ElapsedBy (time : Nat) : Prop := ∃ timeout ∈ w.timeout, w.start + timeout ≤ time

/-- A look at which the wait cannot go on. -/
def Conclusive (i : Nat) : Prop := w.SyncedBy (w.lookTime i) ∨ w.ElapsedBy (w.lookTime i)

/-- The first look at which the wait cannot go on. -/
def First (i : Nat) : Prop := w.Conclusive i ∧ ∀ j < i, ¬ w.Conclusive j

/-- When a wait ends, and how the run ends with it; `none` lets the workers start. -/
inductive Leads : Nat → Option Exit → Prop where
  | shutDown {time : Nat} (requested : time ∈ w.shutdown)
      (before : ∀ i, w.First i → time < w.lookTime i) : Leads time (some .completed)
  | launch {i : Nat} (first : w.First i) (before : ∀ time ∈ w.shutdown, w.lookTime i < time)
      (synced : w.SyncedBy (w.lookTime i)) : Leads (w.lookTime i) none
  | giveUp {i : Nat} (first : w.First i) (before : ∀ time ∈ w.shutdown, w.lookTime i < time)
      (unsynced : ¬ w.SyncedBy (w.lookTime i)) : Leads (w.lookTime i) (some .cachesNotSynced)

/-- The end of the wait can be told, if there is one. -/
def Tellable : Prop := ∀ timeout ∈ w.timeout, w.start + timeout ≤ lastInstant

/-- Nothing that happens after the beginning happens at the time of a look. -/
structure Apart : Prop where
  shutdown : ∀ time ∈ w.shutdown, ∀ i, time ≠ w.lookTime i
  synced : ∀ k, ∀ time ∈ w.synced k, w.start < time → ∀ i, time ≠ w.lookTime i

variable {w} {i j : Nat}

/-- Later looks come at later times. -/
theorem lookTime_mono (h : i ≤ j) : w.lookTime i ≤ w.lookTime j :=
  Nat.add_le_add_left (Nat.mul_le_mul_left _ h) _

/-- There is one first look at which the wait cannot go on. -/
theorem First.unique (h : w.First i) (h' : w.First j) : i = j := by
  rcases Nat.lt_trichotomy i j with hlt | rfl | hlt
  · exact absurd h.1 (h'.2 i hlt)
  · rfl
  · exact absurd h'.1 (h.2 j hlt)

/-- A wait that went on for some looks ends at a later one. -/
theorem First.le_of_inconclusive (h : w.First j) (inconclusive : ∀ l < i, ¬ w.Conclusive l) :
    i ≤ j := by
  by_contra hlt
  exact inconclusive j (Nat.lt_of_not_le hlt) h.1

/-- Some conclusive look is the first one. -/
theorem Conclusive.exists_first (h : w.Conclusive i) : ∃ j ≤ i, w.First j := by
  induction i using Nat.strongRecOn with
  | ind i ih =>
    by_cases hfirst : ∀ j < i, ¬ w.Conclusive j
    · exact ⟨i, Nat.le_refl i, h, hfirst⟩
    · obtain ⟨j, hj, hconclusive⟩ : ∃ j < i, w.Conclusive j := by simpa using hfirst
      obtain ⟨l, hl, hlfirst⟩ := ih j hj hconclusive
      exact ⟨l, Nat.le_trans hl (Nat.le_of_lt hj), hlfirst⟩

/-- **A schedule leads to one end.** -/
theorem Leads.unique {time time' : Nat} {exit exit' : Option Exit} (h : w.Leads time exit)
    (h' : w.Leads time' exit') : time = time' ∧ exit = exit' := by
  cases h with
  | shutDown requested before =>
    cases h' with
    | shutDown requested' => exact ⟨Option.mem_unique requested requested', rfl⟩
    | launch first before' | giveUp first before' =>
      exact absurd (before _ first) (Nat.lt_asymm (before' _ requested))
  | launch first before synced =>
    cases h' with
    | shutDown requested before' =>
      exact absurd (before' _ first) (Nat.lt_asymm (before _ requested))
    | launch first' => exact ⟨congrArg _ (first.unique first'), rfl⟩
    | giveUp first' before' unsynced =>
      obtain rfl := first.unique first'
      exact absurd synced unsynced
  | giveUp first before unsynced =>
    cases h' with
    | shutDown requested before' =>
      exact absurd (before' _ first) (Nat.lt_asymm (before _ requested))
    | launch first' before' synced =>
      obtain rfl := first.unique first'
      exact absurd synced unsynced
    | giveUp first' => exact ⟨congrArg _ (first.unique first'), rfl⟩

/-- The wait is over at every conclusive look. -/
theorem Leads.le_lookTime {time : Nat} {exit : Option Exit} (h : w.Leads time exit)
    (conclusive : w.Conclusive i) : time ≤ w.lookTime i := by
  obtain ⟨j, hj, hfirst⟩ := conclusive.exists_first
  refine Nat.le_trans ?_ (lookTime_mono hj)
  cases h with
  | shutDown requested before => exact Nat.le_of_lt (before j hfirst)
  | launch first | giveUp first => exact Nat.le_of_eq (congrArg _ (first.unique hfirst))

/-- A timeout makes every look conclusive after it. -/
theorem conclusive_of_timeout {timeout : Nat} (h : timeout ∈ w.timeout)
    (le : timeout ≤ Controller.pollInterval * i) : w.Conclusive i :=
  .inr ⟨timeout, h, Nat.add_le_add_left le _⟩

/-- Every conclusive look shows that the wait ends, at that look or before. -/
theorem Conclusive.exists_leads (apart : w.Apart) (h : w.Conclusive i) :
    ∃ time exit, w.Leads time exit ∧ time ≤ w.lookTime i := by
  obtain ⟨j, -, hfirst⟩ := h.exists_first
  suffices hleads : ∃ time exit, w.Leads time exit by
    obtain ⟨time, exit, hleads⟩ := hleads
    exact ⟨time, exit, hleads, hleads.le_lookTime h⟩
  by_cases hbefore : ∀ time ∈ w.shutdown, w.lookTime j < time
  · by_cases hsynced : w.SyncedBy (w.lookTime j)
    · exact ⟨_, _, .launch hfirst hbefore hsynced⟩
    · exact ⟨_, _, .giveUp hfirst hbefore hsynced⟩
  · simp only [not_forall, Nat.not_lt] at hbefore
    obtain ⟨time, requested, hle⟩ := hbefore
    refine ⟨time, _, .shutDown requested fun l hl => ?_⟩
    rw [hl.unique hfirst]
    exact Nat.lt_of_le_of_ne hle (apart.shutdown time requested j)

/-- Without a timeout only synced caches and a shutdown end the wait. -/
theorem Leads.of_unlimited {time : Nat} {exit : Option Exit} (h : w.Leads time exit)
    (unlimited : w.timeout = none) :
    (exit = some .completed ∧ time ∈ w.shutdown) ∨ (exit = none ∧ w.SyncedBy time) := by
  cases h with
  | shutDown requested => exact .inl ⟨rfl, requested⟩
  | launch first before synced => exact .inr ⟨rfl, synced⟩
  | giveUp first before unsynced =>
    rcases first.1 with synced | ⟨timeout, hsome, -⟩
    · exact absurd synced unsynced
    · rw [unlimited] at hsome
      cases hsome

end Schedule

end StorageFeatures
