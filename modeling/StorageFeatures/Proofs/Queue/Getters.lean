import StorageFeatures.Proofs.Queue.Keys
import StorageFeatures.Proofs.Queue.Wakeups

/-!
# Who is registered with a queue

A getter is registered with a queue while it waits or has been woken. Only getters themselves
change that:

* adding, releasing and deferring keys wakes getters and registers or drops nobody
  (`WorkQueue.Rouses`);
* a getter that runs is registered afterwards if it has gone to sleep, and is not otherwise
  (`WorkQueue.registered_poll_of_asleep`, `WorkQueue.registered_poll_of_ne_asleep`).
-/

namespace StorageFeatures

/-! ### Going away -/

namespace Wakeup

variable {γ : Type} [DecidableEq γ] {w : Wakeup γ}

/-- Who leaves is no longer registered, and everyone else still is. -/
theorem mem_registered_leave_iff (h : w.Valid) {x g : γ} :
    x ∈ (w.leave g).registered ↔ x ∈ w.registered ∧ x ≠ g := by
  refine ⟨mem_registered_leave h, ?_⟩
  rintro ⟨hx, hne⟩
  unfold leave
  split
  · rename_i ho
    rw [(registered_wakeOne_perm _).mem_iff]
    exact (mem_registered_consume h (h.owed.subset ho)).mpr ⟨hx, hne⟩
  · rcases List.mem_append.mp hx with hx | hx
    · exact List.mem_append_left _ ((List.mem_erase_of_ne hne).mpr hx)
    · exact List.mem_append_right _ ((List.mem_erase_of_ne hne).mpr hx)

/-- Nobody but the getter that goes away ceases to be registered. -/
theorem registered_leave_perm (h : w.Valid) (g : γ) :
    (w.leave g).registered.Perm (w.registered.erase g) := by
  refine (List.perm_ext_iff_of_nodup (h.leave g).nodup (h.nodup.erase g)).mpr fun x => ?_
  rw [mem_registered_leave_iff h, h.nodup.mem_erase_iff, and_comm]

/-- A getter that does not wait is registered only by a wake-up, which it uses when it runs. -/
theorem registered_consume {g : γ} (hg : g ∉ w.waiting) :
    (w.consume g).registered = w.registered.erase g :=
  (List.erase_append_right _ hg).symm

theorem notMem_registered_consume (h : w.Valid) {g : γ} (hg : g ∉ w.waiting) :
    g ∉ (w.consume g).registered := by
  rw [registered_consume hg]
  exact fun hm => (h.nodup.mem_erase_iff.mp hm).1 rfl

omit [DecidableEq γ] in
/-- Without a permit a getter is registered when it enters. -/
theorem registered_enter_perm {g : γ} (h : w.permit = false) :
    (w.enter g).1.registered.Perm (g :: w.registered) := by
  rw [registered_enter, h, List.append_assoc]
  exact List.perm_middle

end Wakeup

namespace WorkQueue

variable {γ : Type}

/-! ### Waking -/

/-- Getters may have been woken, and nothing else has happened to them. -/
structure Rouses (q q' : WorkQueue γ) : Prop where
  closed : q'.keys.closed = q.keys.closed
  valid : q.wakeup.Valid → q'.wakeup.Valid
  registered : q'.wakeup.registered.Perm q.wakeup.registered
  waiting : q'.wakeup.waiting.Sublist q.wakeup.waiting

namespace Rouses

variable {q q' q'' : WorkQueue γ}

theorem refl (q : WorkQueue γ) : q.Rouses q := ⟨rfl, id, .refl _, .refl _⟩

theorem trans (h : q.Rouses q') (h' : q'.Rouses q'') : q.Rouses q'' :=
  ⟨h'.closed.trans h.closed, fun hv => h'.valid (h.valid hv), h'.registered.trans h.registered,
    h'.waiting.trans h.waiting⟩

/-- A change of the keys does no more to the getters than to wake one. -/
theorem settle (q : WorkQueue γ) {r : KeyQueue × Bool} (h : r.1.closed = q.keys.closed) :
    q.Rouses (q.settle r) := by
  obtain ⟨keys, becamePending⟩ := r
  cases becamePending with
  | true =>
    exact ⟨h, fun hv => hv.wakeOne, Wakeup.registered_wakeOne_perm _,
      Wakeup.waiting_wakeOne_sublist _⟩
  | false => exact ⟨h, id, .refl _, .refl _⟩

/-- Adding a key may wake a getter. -/
theorem add (q : WorkQueue γ) (k : String) : q.Rouses (q.add k) :=
  settle q (KeyQueue.closed_add q.keys k)

theorem done (q : WorkQueue γ) (k : String) : q.Rouses (q.done k) :=
  settle q (KeyQueue.closed_done q.keys k)

end Rouses

/-! ### Running -/

section Poll

variable [DecidableEq γ] {q : WorkQueue γ} {g : γ}

/-- A getter that does not sleep after a look goes away. -/
theorem registered_look (h : q.wakeup.Valid) (hl : (q.look g).2 ≠ .asleep) :
    (q.look g).1.wakeup.Valid ∧
      (q.look g).1.wakeup.registered.Perm (q.wakeup.registered.erase g) ∧
      ∀ x ∈ (q.look g).1.wakeup.waiting, x ∈ q.wakeup.waiting ∧ x ≠ g := by
  have valid := h.leave g
  have left := Wakeup.registered_leave_perm h g
  have waits : ∀ x ∈ (q.wakeup.leave g).waiting, x ∈ q.wakeup.waiting ∧ x ≠ g :=
    fun x => Wakeup.mem_waiting_leave h
  unfold look at hl ⊢
  split
  · dsimp only
    split
    · exact ⟨valid, left, waits⟩
    · refine ⟨valid.wakeOne, (Wakeup.registered_wakeOne_perm _).trans left, fun x hx => ?_⟩
      exact waits x ((Wakeup.waiting_wakeOne_sublist _).subset hx)
  · rename_i none
    rw [none] at hl
    dsimp only at hl
    split at hl
    · rename_i hclosed
      rw [if_pos hclosed]
      exact ⟨valid, left, waits⟩
    · exact absurd rfl hl

/-- The queue once a getter has entered. -/
def entered (q : WorkQueue γ) (g : γ) : WorkQueue γ :=
  { q with wakeup := ((q.wakeup.consume g).enter g).1 }

theorem valid_entered (h : q.wakeup.Valid) (hg : g ∉ q.wakeup.waiting) :
    (q.entered g).wakeup.Valid :=
  (h.consume g).enter (Wakeup.notMem_registered_consume h hg)

/-- Entering concerns the registration of that getter only. -/
theorem mem_registered_entered (h : q.wakeup.Valid) (hg : g ∉ q.wakeup.waiting) {x : γ}
    (hx : x ≠ g) : x ∈ (q.entered g).wakeup.registered ↔ x ∈ q.wakeup.registered := by
  unfold entered
  rw [Wakeup.mem_registered_enter, Wakeup.registered_consume hg, h.nodup.mem_erase_iff]
  simp [hx]

theorem mem_waiting_entered {x : γ} (hx : x ≠ g) (hm : x ∈ (q.entered g).wakeup.waiting) :
    x ∈ q.wakeup.waiting := by
  rw [entered, Wakeup.waiting_enter] at hm
  rcases List.mem_append.mp hm with hm | hm
  · exact hm
  · split at hm
    · cases hm
    · exact absurd (List.mem_singleton.mp hm) hx

/-- What a getter finds does not hang on the wake-ups. -/
theorem polled_look (q : WorkQueue γ) (wakeup : Wakeup γ) (g : γ) :
    ({ q with wakeup }.look g).2 = (q.poll g).2 := by
  rw [polled_poll]
  exact congrArg Prod.fst (look_spec { q with wakeup } g).1

/-- **A getter that comes back is not registered.** -/
theorem registered_poll_of_ne_asleep (h : q.wakeup.Valid) (hg : g ∉ q.wakeup.waiting)
    (hp : (q.poll g).2 ≠ .asleep) :
    (q.poll g).1.wakeup.Valid ∧
      (q.poll g).1.wakeup.registered.Perm (q.wakeup.registered.erase g) ∧
      (q.poll g).1.wakeup.waiting ⊆ q.wakeup.waiting := by
  have first : ((q.entered g).look g).2 ≠ .asleep := by
    rw [entered, polled_look]
    exact hp
  -- the first look already has an answer, so there is no second one
  have same : q.poll g = (q.entered g).look g := by
    unfold poll
    dsimp only
    split
    · rename_i heq
      exact absurd (congrArg Prod.snd heq) first
    · rfl
  rw [same]
  have valid := valid_entered h hg
  obtain ⟨valid', left, waits⟩ := registered_look valid first
  refine ⟨valid', ?_, fun x hx => ?_⟩
  · refine (List.perm_ext_iff_of_nodup valid'.nodup (h.nodup.erase g)).mpr fun x => ?_
    rw [left.mem_iff, valid.nodup.mem_erase_iff, h.nodup.mem_erase_iff]
    exact and_congr_right fun hx => mem_registered_entered h hg hx
  · obtain ⟨hx, hne⟩ := waits x hx
    exact mem_waiting_entered hne hx

/-- **A getter that sleeps is registered**, with or without a permit on the way. -/
theorem registered_poll_of_asleep (h : q.wakeup.Valid) (hg : g ∉ q.wakeup.waiting)
    (hp : (q.poll g).2 = .asleep) :
    (q.poll g).1.wakeup.Valid ∧
      (q.poll g).1.wakeup.registered.Perm (g :: q.wakeup.registered.erase g) := by
  have hfresh := Wakeup.notMem_registered_consume h hg
  have valid : ((q.wakeup.consume g).enter g).1.Valid := valid_entered h hg
  have look : ∀ wakeup : Wakeup γ, { q with wakeup }.look g = ({ q with wakeup }, .asleep) := by
    intro wakeup
    have asleep := (polled_look q wakeup g).trans hp
    exact Prod.ext (look_of_asleep asleep) asleep
  rw [← Wakeup.registered_consume hg]
  unfold poll
  dsimp only
  rw [look, Wakeup.snd_enter]
  dsimp only
  cases hpermit : (q.wakeup.consume g).permit with
  | false => exact ⟨valid, Wakeup.registered_enter_perm hpermit⟩
  | true =>
    -- the permit is used up, and the getter enters once more
    have kept : ((q.wakeup.consume g).enter g).1.registered = (q.wakeup.consume g).registered := by
      rw [Wakeup.registered_enter, hpermit]
      simp [Wakeup.registered]
    rw [if_pos rfl, look]
    rw [← kept] at hfresh ⊢
    exact ⟨valid.enter hfresh, Wakeup.registered_enter_perm (Wakeup.permit_enter _ g)⟩

end Poll

end WorkQueue

end StorageFeatures
