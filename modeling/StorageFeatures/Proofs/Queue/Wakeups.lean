import StorageFeatures.Queue.Wakeup
import Mathlib.Data.List.Nodup
import Mathlib.Data.List.Perm.Subperm

/-!
# Wake-ups are not lost

`Wakeup.Valid` is what the operations keep: a permit is stored only while nobody waits, the
getters that were woken one at a time are among the woken ones, and no getter is registered
twice. `Wakeup.Alert` says that one wake-up is outstanding, as a permit or as a getter that was
woken by it. Waking one getter makes the wake-ups alert, and of the operations only `enter` and
`consume` can end that: each of them starts a run of the getter that used the wake-up.
-/

namespace StorageFeatures

namespace Wakeup

variable {γ : Type} {w : Wakeup γ}

/-- The getters that wait or were woken. -/
def registered (w : Wakeup γ) : List γ := w.waiting ++ w.woken

/-- What the operations keep. -/
structure Valid (w : Wakeup γ) : Prop where
  waiting_of_permit : w.permit = true → w.waiting = []
  owed : w.owed.Subperm w.woken
  nodup : w.registered.Nodup

/-- A wake-up for one getter is outstanding. -/
def Alert (w : Wakeup γ) : Prop := w.permit = true ∨ w.owed ≠ []

/-- Wake-ups are valid while nobody waits and nothing is owed. -/
theorem valid_empty : ({} : Wakeup γ).Valid :=
  ⟨fun _ => rfl, List.nil_subperm, List.nodup_nil⟩

/-! ### Waking -/

/-- Waking one moves a getter within the list of the registered ones. -/
theorem registered_wakeOne_perm (w : Wakeup γ) : w.wakeOne.registered.Perm w.registered := by
  unfold wakeOne registered
  split
  · exact .refl _
  · rename_i g gs h
    rw [h, List.cons_append]
    exact (List.perm_append_comm_assoc _ _ _).trans
      (List.perm_append_comm.trans (by simp))

theorem registered_wakeAll_perm (w : Wakeup γ) : w.wakeAll.registered.Perm w.registered := by
  show (w.woken ++ w.waiting).Perm (w.waiting ++ w.woken)
  exact List.perm_append_comm

/-- After one was woken, nobody joins those who wait. -/
theorem waiting_wakeOne_sublist (w : Wakeup γ) : w.wakeOne.waiting.Sublist w.waiting := by
  unfold wakeOne
  split
  · exact .refl _
  · rename_i g gs h
    rw [h]
    exact List.sublist_cons_self g gs

/-- After one was woken a wake-up is outstanding, be it a permit. -/
theorem alert_wakeOne (w : Wakeup γ) : w.wakeOne.Alert := by
  unfold wakeOne Alert
  split <;> simp

/-- Waking one keeps the wake-ups valid. -/
protected theorem Valid.wakeOne (h : w.Valid) : w.wakeOne.Valid := by
  refine ⟨?_, ?_, (registered_wakeOne_perm w).nodup_iff.mpr h.nodup⟩
  · intro hp
    unfold wakeOne at hp ⊢
    split at hp
    · assumption
    · rename_i g gs hg
      simp [h.waiting_of_permit hp] at hg
  · unfold wakeOne
    split
    · exact h.owed
    · exact (List.subperm_append_right _).mpr h.owed

protected theorem Valid.wakeAll (h : w.Valid) : w.wakeAll.Valid :=
  ⟨fun _ => rfl, h.owed.trans (List.sublist_append_left _ _).subperm,
    (registered_wakeAll_perm w).nodup_iff.mpr h.nodup⟩

/-! ### Entering and leaving -/

/-- A permit is used by whoever enters. -/
theorem permit_enter (w : Wakeup γ) (g : γ) : (w.enter g).1.permit = false := by
  unfold enter
  split <;> simp_all

@[simp]
theorem snd_enter (w : Wakeup γ) (g : γ) : (w.enter g).2 = w.permit := by
  unfold enter
  split <;> simp_all

@[simp]
theorem woken_enter (w : Wakeup γ) (g : γ) : (w.enter g).1.woken = w.woken := by
  unfold enter
  split <;> rfl

@[simp]
theorem owed_enter (w : Wakeup γ) (g : γ) : (w.enter g).1.owed = w.owed := by
  unfold enter
  split <;> rfl

/-- A getter that finds no permit is registered. -/
theorem registered_enter (w : Wakeup γ) (g : γ) :
    (w.enter g).1.registered = w.waiting ++ (if w.permit then [] else [g]) ++ w.woken := by
  unfold registered
  rw [waiting_enter, woken_enter]

/-- Only who enters without a permit joins the registered ones. -/
theorem mem_registered_enter {x g : γ} :
    x ∈ (w.enter g).1.registered ↔ x ∈ w.registered ∨ (x = g ∧ w.permit = false) := by
  rw [registered_enter]
  unfold registered
  cases w.permit <;> simp [or_comm, or_left_comm]

/-- A getter that is not registered can enter. -/
protected theorem Valid.enter (h : w.Valid) {g : γ} (hg : g ∉ w.registered) :
    (w.enter g).1.Valid := by
  refine ⟨fun hp => ?_, ?_, ?_⟩
  · rw [permit_enter] at hp
    exact Bool.noConfusion hp
  · rw [owed_enter, woken_enter]
    exact h.owed
  · rw [registered_enter]
    cases w.permit with
    | true =>
      have hnd : (w.waiting ++ w.woken).Nodup := h.nodup
      simpa using hnd
    | false =>
      -- the new getter stands between those who wait and those who were woken
      have hperm : (w.waiting ++ [g] ++ w.woken).Perm (g :: w.registered) := by
        rw [List.append_assoc]
        exact List.perm_middle
      exact hperm.nodup_iff.mpr (List.nodup_cons.mpr ⟨hg, h.nodup⟩)

variable [DecidableEq γ]

/-- A getter that runs is no longer registered. -/
theorem mem_registered_consume (h : w.Valid) {x g : γ} (hg : g ∈ w.woken) :
    x ∈ (w.consume g).registered ↔ x ∈ w.registered ∧ x ≠ g := by
  have hnd := List.nodup_append.mp h.nodup
  show x ∈ w.waiting ++ w.woken.erase g ↔ x ∈ w.waiting ++ w.woken ∧ x ≠ g
  rw [List.mem_append, List.mem_append, hnd.2.1.mem_erase_iff]
  constructor
  · rintro (hx | ⟨hne, hx⟩)
    · exact ⟨.inl hx, hnd.2.2 x hx g hg⟩
    · exact ⟨.inr hx, hne⟩
  · rintro ⟨hx | hx, hne⟩
    · exact .inl hx
    · exact .inr ⟨hne, hx⟩

/-- Using a wake-up keeps the wake-ups valid. -/
protected theorem Valid.consume (h : w.Valid) (g : γ) : (w.consume g).Valid :=
  ⟨h.waiting_of_permit, h.owed.erase g,
    h.nodup.sublist ((List.erase_sublist).append_left w.waiting)⟩

theorem consume_of_notMem (h : w.Valid) {g : γ} (hg : g ∉ w.woken) : w.consume g = w := by
  unfold consume
  rw [List.erase_of_not_mem hg, List.erase_of_not_mem fun ho => hg (h.owed.subset ho)]

/-- A getter may go away at any time: a wake-up it was owed goes to the next. -/
protected theorem Valid.leave (h : w.Valid) (g : γ) : (w.leave g).Valid := by
  unfold leave
  split
  · exact (h.consume g).wakeOne
  · -- the getter owes no wake-up, so it is just forgotten
    rename_i ho
    refine ⟨fun hp => ?_, ?_, ?_⟩
    · simp [h.waiting_of_permit hp]
    · have := h.owed.erase g
      rwa [List.erase_of_not_mem ho] at this
    · exact h.nodup.sublist (List.erase_sublist.append List.erase_sublist)

/-- **A wake-up outlives its getter.** A getter that goes away hands its wake-up on. -/
theorem Alert.leave (h : w.Alert) (g : γ) : (w.leave g).Alert := by
  unfold Wakeup.leave
  split
  · exact alert_wakeOne _
  · exact h

/-- Who waits after a getter has gone away waited before, and is not that getter. -/
theorem mem_waiting_leave (h : w.Valid) {x g : γ} (hx : x ∈ (w.leave g).waiting) :
    x ∈ w.waiting ∧ x ≠ g := by
  have hnd := List.nodup_append.mp h.nodup
  unfold leave at hx
  split at hx
  · rename_i ho
    have hxw : x ∈ w.waiting := (waiting_wakeOne_sublist (w.consume g)).subset hx
    exact ⟨hxw, hnd.2.2 x hxw g (h.owed.subset ho)⟩
  · exact ⟨List.mem_of_mem_erase hx, (hnd.1.mem_erase_iff.mp hx).1⟩

theorem mem_registered_leave (h : w.Valid) {x g : γ} (hx : x ∈ (w.leave g).registered) :
    x ∈ w.registered ∧ x ≠ g := by
  unfold leave at hx
  split at hx
  · rename_i ho
    rw [(registered_wakeOne_perm _).mem_iff] at hx
    exact (mem_registered_consume h (h.owed.subset ho)).mp hx
  · have hnd := List.nodup_append.mp h.nodup
    unfold registered at hx ⊢
    rcases List.mem_append.mp hx with hx | hx
    · exact ⟨List.mem_append_left _ (List.mem_of_mem_erase hx), (hnd.1.mem_erase_iff.mp hx).1⟩
    · exact ⟨List.mem_append_right _ (List.mem_of_mem_erase hx), (hnd.2.1.mem_erase_iff.mp hx).1⟩

/-- A getter that was not woken may wake another one before or after it goes away. -/
theorem leave_wakeOne {g : γ} (hk : g ∉ w.woken) (ho : g ∉ w.owed) :
    w.wakeOne.leave g = (w.leave g).wakeOne := by
  cases hw : w.waiting with
  | nil => simp [wakeOne, leave, hw, ho, List.erase_of_not_mem hk]
  | cons x xs =>
    by_cases hx : x = g
    · -- it wakes itself, and hands that wake-up on
      subst hx
      simp [wakeOne, leave, consume, hw, ho, List.erase_append_right, hk, List.erase_of_not_mem]
    · simp [wakeOne, leave, hw, ho, hx, Ne.symm hx, hk,
        List.erase_of_not_mem]

end Wakeup

end StorageFeatures
