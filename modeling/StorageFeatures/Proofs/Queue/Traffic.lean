import StorageFeatures.Proofs.Queue.Order
import StorageFeatures.Proofs.Queue.Wakeups
import Mathlib.Logic.Function.Basic
import Mathlib.Logic.Relation

/-!
# No key waits beside a sleeping getter

Calls on a queue overlap: a call that makes a key pending changes the keys first and wakes a
getter afterwards, and a getter enters, looks at the keys, wakes another one and goes away in
separate steps. `Traffic` is a queue together with the place that every running getter has come
to and with the wake-ups that unfinished calls still owe; `Traffic.Step` is one such step, of
any getter or any call.

`Traffic.Attended` is the invariant: if a key is pending, then somebody is still going to look
at the keys or to wake a getter that will. Every operation of `WorkQueue` is a run of steps
(`Traffic.Steps.call`), so the main result, `Traffic.nothing_of_waiting`, is about calls that
overlap in any way as well as about calls that are made one after the other.
-/

namespace StorageFeatures

/-- The place that a running getter has come to. -/
inductive Place where
  /-- It is about to enter. -/
  | outside
  /-- It has entered, with a permit or not, and is about to look at the keys. -/
  | inside (permitted : Bool)
  /-- It has taken a key, others are left, and it is about to wake another getter. -/
  | announcing
  /-- It has an answer and is about to go away. -/
  | leaving
  deriving DecidableEq

/-- A queue in the middle of any number of calls. -/
structure Traffic (γ : Type) where
  queue : WorkQueue γ
  /-- Where the getters that run have come to. -/
  place : γ → Option Place := fun _ => none
  /-- How many calls have made a key pending and have not woken a getter yet. -/
  notices : Nat := 0
  /-- How many calls have closed the queue and have not woken the getters yet. -/
  alarms : Nat := 0

namespace Traffic

open WorkQueue (Call)

variable {γ : Type}

/-- The traffic with another queue. -/
def swap (t : Traffic γ) (queue : WorkQueue γ) : Traffic γ := { t with queue }

/-- The traffic with other wake-ups. -/
def rouse (t : Traffic γ) (wakeup : Wakeup γ) : Traffic γ := t.swap { t.queue with wakeup }

/-- The traffic once a call has changed the keys. -/
def settle (t : Traffic γ) (r : KeyQueue × Bool) : Traffic γ :=
  { t.swap { t.queue with keys := r.1 } with notices := t.notices + r.2.toNat }

variable [DecidableEq γ]

/-- The traffic once a getter has come to another place. -/
def move (t : Traffic γ) (g : γ) (place : Option Place) : Traffic γ :=
  { t with place := Function.update t.place g place }

/-- Where a getter goes from its look at the keys. -/
def turn (keys : KeyQueue) (permitted : Bool) : Option Place :=
  match keys.hand with
  | (.key _, keys') => some (if keys'.pending.isEmpty then .leaving else .announcing)
  | (.closed, _) => some .leaving
  | (.asleep, _) => if permitted then some .outside else none

/-- One step of a call or of a getter. -/
inductive Step (t : Traffic γ) : Traffic γ → Prop where
  | add (k : String) : Step t (t.settle (t.queue.keys.add k))
  | done (k : String) : Step t (t.settle (t.queue.keys.done k))
  | notify (h : t.notices ≠ 0) :
      Step t { t.rouse t.queue.wakeup.wakeOne with notices := t.notices - 1 }
  | close : Step t
      { t.swap { t.queue with keys := t.queue.keys.close } with alarms := t.alarms + 1 }
  | alarm (h : t.alarms ≠ 0) :
      Step t { t.rouse t.queue.wakeup.wakeAll with alarms := t.alarms - 1 }
  | delay (limiter : Limiter) : Step t (t.swap { t.queue with limiter })
  /-- A new getter arrives. -/
  | arrive (g : γ) (h : t.place g = none) (new : g ∉ t.queue.wakeup.registered) :
      Step t (t.move g (some .outside))
  /-- A getter that was woken runs again. -/
  | resume (g : γ) (h : t.place g = none) (woken : g ∈ t.queue.wakeup.woken) :
      Step t ((t.rouse (t.queue.wakeup.consume g)).move g (some .outside))
  | enter (g : γ) (h : t.place g = some .outside) :
      Step t ((t.rouse (t.queue.wakeup.enter g).1).move g
        (some (.inside (t.queue.wakeup.enter g).2)))
  | look (g : γ) {permitted : Bool} (h : t.place g = some (.inside permitted)) :
      Step t ((t.swap { t.queue with keys := t.queue.keys.hand.2 }).move g
        (turn t.queue.keys permitted))
  | announce (g : γ) (h : t.place g = some .announcing) :
      Step t ((t.rouse t.queue.wakeup.wakeOne).move g (some .leaving))
  | leave (g : γ) (h : t.place g = some .leaving) :
      Step t ((t.rouse (t.queue.wakeup.leave g)).move g none)
  /-- A getter that sleeps or was woken goes away. -/
  | quit (g : γ) (h : t.place g = none) : Step t (t.rouse (t.queue.wakeup.leave g))

/-! ### The invariant -/

/-- Whether a getter is still going to look at the keys or to wake another getter. -/
def Busy (t : Traffic γ) (g : γ) : Prop := t.place g ≠ none ∧ t.place g ≠ some .leaving

/-- What every step keeps. -/
structure Attended (t : Traffic γ) : Prop where
  valid : t.queue.wakeup.Valid
  /-- A getter that is about to enter is not registered. -/
  fresh : ∀ g, t.place g = some .outside ∨ t.place g = some (.inside true) →
    g ∉ t.queue.wakeup.registered
  /-- Pending keys are attended to. -/
  attended : t.queue.keys.pending ≠ [] →
    t.queue.wakeup.Alert ∨ t.notices ≠ 0 ∨ ∃ g, t.Busy g
  /-- Beside a closed queue only those wait that are about to look, or will be woken. -/
  closing : t.queue.isClosed = true → t.alarms ≠ 0 ∨
    ∀ g ∈ t.queue.wakeup.waiting, t.place g ≠ none

section Fields

variable (t : Traffic γ) (g : γ) (place : Option Place) (wakeup : Wakeup γ)

omit [DecidableEq γ] in
@[simp]
theorem place_swap (queue : WorkQueue γ) : (t.swap queue).place = t.place := rfl

omit [DecidableEq γ] in
@[simp]
theorem queue_swap (queue : WorkQueue γ) : (t.swap queue).queue = queue := rfl

omit [DecidableEq γ] in
@[simp]
theorem place_rouse : (t.rouse wakeup).place = t.place := rfl

@[simp]
theorem queue_move : (t.move g place).queue = t.queue := rfl

@[simp]
theorem rouse_move : (t.move g place).rouse wakeup = (t.rouse wakeup).move g place := rfl

@[simp]
theorem swap_move (queue : WorkQueue γ) :
    (t.move g place).swap queue = (t.swap queue).move g place := rfl

omit [DecidableEq γ] in
@[simp]
theorem swap_rouse (queue : WorkQueue γ) : (t.rouse wakeup).swap queue = t.swap queue := rfl

@[simp]
theorem notices_move : (t.move g place).notices = t.notices := rfl

@[simp]
theorem alarms_move : (t.move g place).alarms = t.alarms := rfl

/-- A move concerns one getter. -/
@[simp]
theorem place_move (x : γ) :
    (t.move g place).place x = if x = g then place else t.place x := by
  simp [move, Function.update_apply]

end Fields

variable {t t' : Traffic γ}

/-- A getter that is moved is busy unless it sleeps or goes away there. -/
@[simp]
theorem busy_move_self {g : γ} {place : Option Place} :
    (t.move g place).Busy g ↔ place ≠ none ∧ place ≠ some .leaving := by
  simp [Busy]

/-- The other getters are as busy as before. -/
theorem busy_move_of_ne {g x : γ} {place : Option Place} (hx : x ≠ g) :
    (t.move g place).Busy x ↔ t.Busy x := by
  simp [Busy, hx]

theorem Step.valid (s : Step t t') (h : t.Attended) : t'.queue.wakeup.Valid := by
  cases s with
  | add | done | close | delay | arrive | look => exact h.valid
  | notify | announce => exact h.valid.wakeOne
  | alarm => exact h.valid.wakeAll
  | resume => exact h.valid.consume _
  | enter g hg => exact h.valid.enter (h.fresh g (.inl hg))
  | leave | quit => exact h.valid.leave _

/-- Every step keeps a getter that is about to enter unregistered. Arriving, it is new; woken, it
has used its wake-up; after a look it comes back only if it entered with a permit, and then it was
never registered. -/
theorem Step.fresh (s : Step t t') (h : t.Attended) (g : γ)
    (hg : t'.place g = some .outside ∨ t'.place g = some (.inside true)) :
    g ∉ t'.queue.wakeup.registered := by
  cases s with
  | add | done | close | delay => exact h.fresh g hg
  | notify =>
    intro hm
    exact h.fresh g hg ((Wakeup.registered_wakeOne_perm _).mem_iff.mp hm)
  | alarm =>
    intro hm
    exact h.fresh g hg ((Wakeup.registered_wakeAll_perm _).mem_iff.mp hm)
  | arrive x hp new =>
    by_cases hx : g = x
    · exact hx ▸ new
    · exact h.fresh g (by simpa [hx] using hg)
  | resume x hp woken =>
    intro hm
    obtain ⟨hm, hne⟩ := (Wakeup.mem_registered_consume h.valid woken).mp hm
    exact h.fresh g (by simpa [hne] using hg) hm
  | enter x hp =>
    intro hm
    have hx := h.fresh x (.inl hp)
    rcases Wakeup.mem_registered_enter.mp hm with hm | ⟨rfl, hpermit⟩
    · by_cases hgx : g = x
      · exact hx (hgx ▸ hm)
      · exact h.fresh g (by simpa [hgx] using hg) hm
    · simp [Wakeup.enter, hpermit] at hg
  | @look x permitted hp =>
    by_cases hx : g = x
    · subst hx
      cases permitted with
      | true => exact h.fresh g (.inr hp)
      | false =>
        -- without a permit a look never leads back outside
        unfold turn at hg
        split at hg <;> simp at hg
        split at hg <;> simp at hg
    · exact h.fresh g (by simpa [hx] using hg)
  | announce x hp =>
    intro hm
    have hgx : g ≠ x := by
      rintro rfl
      simp at hg
    exact h.fresh g (by simpa [hgx] using hg)
      ((Wakeup.registered_wakeOne_perm _).mem_iff.mp hm)
  | leave x hp =>
    intro hm
    obtain ⟨hm, hne⟩ := Wakeup.mem_registered_leave h.valid hm
    exact h.fresh g (by simpa [hne] using hg) hm
  | quit x hp =>
    intro hm
    exact h.fresh g hg (Wakeup.mem_registered_leave h.valid hm).1

/-- What a getter still has to do after its look, if it leaves keys behind. -/
theorem turn_of_pending {keys : KeyQueue} (permitted : Bool) (h : keys.hand.2.pending ≠ []) :
    turn keys permitted = some .announcing := by
  unfold turn
  unfold KeyQueue.hand at h ⊢
  split at h
  · simpa using h
  · rename_i hnone
    exact absurd (KeyQueue.take?_eq_none_iff.mp hnone) h

/-- Every step keeps pending keys attended to: whoever makes a key pending owes a notice, and
whoever leaves keys behind is about to wake another getter or hands its wake-up on. -/
theorem Step.attended (s : Step t t') (h : t.Attended)
    (hp : t'.queue.keys.pending ≠ []) :
    t'.queue.wakeup.Alert ∨ t'.notices ≠ 0 ∨ ∃ g, t'.Busy g := by
  -- a key that has become pending is announced by a notice
  have settled : ∀ r : KeyQueue × Bool, (r.2 = false → r.1.pending = t.queue.keys.pending) →
      r.1.pending ≠ [] → (t.settle r).queue.wakeup.Alert ∨ (t.settle r).notices ≠ 0 ∨
        ∃ g, (t.settle r).Busy g := by
    rintro ⟨keys, became⟩ hr hp
    cases became with
    | true => exact .inr (.inl (by simp [settle]))
    | false => simpa [settle, Busy] using h.attended (hr rfl ▸ hp)
  cases s with
  | add k => exact settled _ (fun hr => by simp [KeyQueue.pending_add, hr]) hp
  | done k =>
    refine settled _ (fun hr => ?_) hp
    rw [KeyQueue.done_snd] at hr
    simp [KeyQueue.pending_done, hr]
  | notify => exact .inl (Wakeup.alert_wakeOne _)
  | close | alarm | delay => exact h.attended hp
  | arrive g | resume g | enter g => exact .inr (.inr ⟨g, by simp⟩)
  | look g => exact .inr (.inr ⟨g, by simp [turn_of_pending _ hp]⟩)
  | announce => exact .inl (Wakeup.alert_wakeOne _)
  | leave g hg =>
    -- who leaves was not the busy one, and hands its wake-up on
    refine (h.attended hp).imp (·.leave _) (Or.imp_right ?_)
    rintro ⟨x, hx⟩
    have hne : x ≠ g := by
      rintro rfl
      exact hx.2 hg
    exact ⟨x, (busy_move_of_ne hne).mpr hx⟩
  | quit => exact (h.attended hp).imp_left (·.leave _)

/-- A getter goes to sleep only beside an open queue. -/
theorem turn_of_closed {keys : KeyQueue} (permitted : Bool) (h : keys.closed = true) :
    turn keys permitted ≠ none := by
  have hawake : keys.hand.1 ≠ .asleep := by
    rw [Ne, KeyQueue.hand_fst_eq_asleep_iff, h]
    simp
  unfold turn
  split
  · simp
  · simp
  · rename_i heq
    simp [heq] at hawake

/-- Every step keeps getters from waiting beside a closed queue: closing owes an alarm, the alarm
wakes all who wait, and whoever enters afterwards looks at the keys and does not fall asleep. -/
theorem Step.closing (s : Step t t') (h : t.Attended) (hc : t'.queue.isClosed = true) :
    t'.alarms ≠ 0 ∨ ∀ g ∈ t'.queue.wakeup.waiting, t'.place g ≠ none := by
  cases s with
  | add k => exact h.closing ((KeyQueue.closed_add _ k).symm.trans hc)
  | done k => exact h.closing ((KeyQueue.closed_done _ k).symm.trans hc)
  | notify =>
    exact (h.closing hc).imp_right fun hw g hg =>
      hw g ((Wakeup.waiting_wakeOne_sublist _).subset hg)
  | close => exact .inl (Nat.succ_ne_zero _)
  | alarm => exact .inr fun g hg => nomatch hg
  | delay => exact h.closing hc
  | arrive x | resume x =>
    refine (h.closing hc).imp_right fun hw g hg => ?_
    by_cases hx : g = x
    · simp [hx]
    · simpa [hx] using hw g hg
  | enter x =>
    refine (h.closing hc).imp_right fun hw g hg => ?_
    by_cases hx : g = x
    · simp [hx]
    · have hm : g ∈ t.queue.wakeup.waiting ++ if t.queue.wakeup.permit then [] else [x] :=
        Wakeup.waiting_enter _ x ▸ hg
      simpa [hx] using hw g (by split at hm <;> simpa [hx] using hm)
  | look x =>
    -- beside a closed queue the look does not end in sleep
    have hopen : t.queue.keys.closed = true := (KeyQueue.closed_hand _).symm.trans hc
    refine (h.closing hopen).imp_right fun hw g hg => ?_
    by_cases hx : g = x
    · simpa [hx] using turn_of_closed _ hopen
    · simpa [hx] using hw g hg
  | announce x =>
    refine (h.closing hc).imp_right fun hw g hg => ?_
    by_cases hx : g = x
    · simp [hx]
    · simpa [hx] using hw g ((Wakeup.waiting_wakeOne_sublist _).subset hg)
  | leave x =>
    refine (h.closing hc).imp_right fun hw g hg => ?_
    obtain ⟨hm, hx⟩ := Wakeup.mem_waiting_leave h.valid hg
    simpa [hx] using hw g hm
  | quit x =>
    exact (h.closing hc).imp_right fun hw g hg => hw g (Wakeup.mem_waiting_leave h.valid hg).1

theorem Attended.step (h : t.Attended) (s : Step t t') : t'.Attended :=
  ⟨s.valid h, s.fresh h, s.attended h, s.closing h⟩

/-! ### Whole calls -/

/-- Any number of steps, of any calls and getters. -/
def Steps : Traffic γ → Traffic γ → Prop := Relation.ReflTransGen Step

theorem Attended.steps (h : t.Attended) (s : Steps t t') : t'.Attended := by
  induction s with
  | refl => exact h
  | tail _ s ih => exact ih.step s

@[simp]
theorem move_move (g : γ) (a b : Option Place) : (t.move g a).move g b = t.move g b := by
  simp [move]

/-- A getter that did not run and does not run afterwards has not moved. -/
theorem move_swap_of_none {g : γ} (h : t.place g = none) (queue : WorkQueue γ) :
    (t.swap queue).move g none = t.swap queue := by
  rw [← h]
  simp [move, swap]

/-- A change of the keys and the wake-up that it owes. -/
theorem Steps.settle {r : KeyQueue × Bool} (s : Step t (t.settle r)) :
    Steps t (t.swap (t.queue.settle r)) := by
  obtain ⟨keys, became⟩ := r
  cases became with
  | false => exact .single s
  | true =>
    have notified := Step.notify (t := t.settle (keys, true)) (Nat.succ_ne_zero _)
    exact (Relation.ReflTransGen.single s).tail notified

/-- A getter that has woken another one is about to go away. -/
theorem Step.announced (t : Traffic γ) (g : γ) : Step (t.move g (some .announcing))
    ((t.rouse t.queue.wakeup.wakeOne).move g (some .leaving)) := by
  simpa using Step.announce (t := t.move g (some .announcing)) g (by simp)

/-- A getter goes away, and hands on the wake-up that it owes. -/
theorem Step.left (t : Traffic γ) (g : γ) : Step (t.move g (some .leaving))
    ((t.rouse (t.queue.wakeup.leave g)).move g none) := by
  simpa using Step.leave (t := t.move g (some .leaving)) g (by simp)

/-- A look at the keys, up to the next time that the getter enters, sleeps or is gone. -/
theorem Steps.look {g : γ} {permitted : Bool} (hp : t.place g = some (.inside permitted))
    (hk : g ∉ t.queue.wakeup.woken) (ho : g ∉ t.queue.wakeup.owed) :
    Steps t ((t.swap (t.queue.look g).1).move g
      (if permitted ∧ (t.queue.look g).2 = .asleep then some .outside else none)) := by
  have looked := Step.look g hp
  unfold turn at looked
  cases ht : t.queue.keys.take? with
  | some r =>
    obtain ⟨k, keys⟩ := r
    simp only [KeyQueue.hand_of_take? ht] at looked
    simp only [WorkQueue.look, ht, reduceCtorEq, and_false, if_false]
    cases hmore : keys.pending.isEmpty with
    | true =>
      rw [hmore] at looked
      exact (Relation.ReflTransGen.single looked).tail (.left _ g)
    | false =>
      rw [hmore] at looked
      have steps := ((Relation.ReflTransGen.single looked).tail (.announced _ g)).tail (.left _ g)
      -- the getter wakes another one before it goes away
      rw [← Wakeup.leave_wakeOne hk ho]
      exact steps
  | none =>
    have hhand : t.queue.keys.hand = (if t.queue.keys.closed then .closed else .asleep,
        t.queue.keys) := by
      simp only [KeyQueue.hand, ht]
    simp only [hhand] at looked
    simp only [WorkQueue.look, ht, WorkQueue.isClosed]
    by_cases hc : t.queue.keys.closed = true
    · simp only [hc, if_true] at looked
      simp only [hc, if_true, reduceCtorEq, and_false, if_false]
      exact (Relation.ReflTransGen.single looked).tail (.left _ g)
    · simp only [hc] at looked
      simp only [hc, Bool.false_eq_true, if_false, and_true]
      exact .single looked

/-- A getter enters and takes a look. -/
theorem Steps.enter {g : γ} (hg : t.place g = some .outside) (hk : g ∉ t.queue.wakeup.woken)
    (ho : g ∉ t.queue.wakeup.owed) {q : WorkQueue γ} {permitted : Bool}
    (hq : q = { t.queue with wakeup := (t.queue.wakeup.enter g).1 })
    (hpermitted : permitted = (t.queue.wakeup.enter g).2) :
    Steps t ((t.swap (q.look g).1).move g
      (if permitted ∧ (q.look g).2 = .asleep then some .outside else none)) := by
  subst hq hpermitted
  have entered := Step.enter g hg
  have looked := Steps.look
    (t := (t.rouse (t.queue.wakeup.enter g).1).move g (some (.inside (t.queue.wakeup.enter g).2)))
    ((place_move _ g _ g).trans (if_pos rfl))
    (by simpa [rouse] using hk) (by simpa [rouse] using ho)
  rw [swap_move, swap_rouse, move_move] at looked
  exact (Relation.ReflTransGen.single entered).trans looked

/-- A run of a getter that is about to enter. -/
theorem Steps.poll (h : t.Attended) {g : γ} (hg : t.place g = some .outside) :
    Steps t ((t.swap (t.queue.poll g).1).move g none) := by
  have hnew := h.fresh g (.inl hg)
  have hk : g ∉ t.queue.wakeup.woken := fun hm => hnew (List.mem_append_right _ hm)
  have ho : g ∉ t.queue.wakeup.owed := fun hm => hk (h.valid.owed.subset hm)
  have entered := Steps.enter hg hk ho rfl rfl
  unfold WorkQueue.poll
  rw [Wakeup.consume_of_notMem h.valid hk]
  dsimp only
  generalize hq : WorkQueue.look { t.queue with wakeup := (t.queue.wakeup.enter g).1 } g = r
    at entered ⊢
  obtain ⟨q, polled⟩ := r
  cases polled with
  | key k => simpa using entered
  | closed => simpa using entered
  | asleep =>
    have hsame := WorkQueue.look_of_asleep (congrArg Prod.snd hq)
    rw [hq] at hsame
    dsimp only at hsame
    cases hpermit : t.queue.wakeup.permit with
    | false => simpa [hpermit] using entered
    | true =>
      -- the permit is used up, so the second look is the last one
      subst hsame
      simp only [Wakeup.snd_enter, hpermit, if_true, and_self] at entered ⊢
      refine entered.trans ?_
      have again := Steps.enter (g := g)
        (t := (t.swap { t.queue with wakeup := (t.queue.wakeup.enter g).1 }).move g (some .outside))
        (by simp) (by simpa using hk) (by simpa using ho) rfl rfl
      simp only [Wakeup.snd_enter, Wakeup.permit_enter, queue_move, queue_swap, swap_move,
        move_move, Bool.false_eq_true, false_and, if_false] at again
      exact again

/-! ### Whole calls -/

/-- A getter that runs was woken or is new, and only one that does not run can go away. -/
def Allows (t : Traffic γ) : Call γ → Prop
  | .get g => t.place g = none ∧ g ∉ t.queue.wakeup.waiting
  | .getOnce g => t.place g = none ∧ g ∉ t.queue.wakeup.registered
  | .quit g => t.place g = none
  | _ => True

/-- The traffic after a call that nothing interrupts. -/
def call (t : Traffic γ) (c : Call γ) : Traffic γ := t.swap (c.run t.queue).1

/-- Waiting for a key is a run of steps, whether the getter is new or was woken. -/
theorem Steps.get (h : t.Attended) {g : γ} (hp : t.place g = none)
    (hg : g ∉ t.queue.wakeup.waiting) : Steps t (t.swap (t.queue.poll g).1) := by
  by_cases hk : g ∈ t.queue.wakeup.woken
  · have resumed := Step.resume g hp hk
    have polled := Steps.poll (h.step resumed) ((place_move _ g _ g).trans (if_pos rfl))
    have hgone : g ∉ (t.queue.wakeup.consume g).woken := fun hm =>
      ((Wakeup.mem_registered_consume h.valid hk).mp (List.mem_append_right _ hm)).2 rfl
    have hpoll : WorkQueue.poll { t.queue with wakeup := t.queue.wakeup.consume g } g =
        t.queue.poll g := by
      unfold WorkQueue.poll
      dsimp only
      rw [Wakeup.consume_of_notMem (h.valid.consume g) hgone]
    rw [queue_move, swap_move, swap_rouse, move_move,
      show ((t.rouse _).queue.poll g) = t.queue.poll g from hpoll, move_swap_of_none hp] at polled
    exact (Relation.ReflTransGen.single resumed).trans polled
  · have hnew : g ∉ t.queue.wakeup.registered := fun hm =>
      (List.mem_append.mp hm).elim hg hk
    have arrived := Step.arrive g hp hnew
    have polled := Steps.poll (h.step arrived) ((place_move _ g _ g).trans (if_pos rfl))
    rw [queue_move, swap_move, move_move, move_swap_of_none hp] at polled
    exact (Relation.ReflTransGen.single arrived).trans polled

/-- Asking for a key once is a run of steps: a getter that would sleep goes away. -/
theorem Steps.getOnce (h : t.Attended) {g : γ} (hp : t.place g = none)
    (hg : g ∉ t.queue.wakeup.waiting) : Steps t (t.swap (t.queue.pollOnce g).1) := by
  have polled := Steps.get h hp hg
  unfold WorkQueue.pollOnce
  split
  · rename_i q hq
    rw [hq] at polled
    exact polled.tail (.quit g hp)
  · exact polled

theorem Steps.addAfter (t : Traffic γ) (k : String) (delay : Nat) :
    Steps t (t.swap (t.queue.addAfter k delay).1) := by
  unfold WorkQueue.addAfter
  split
  · exact .refl
  · split
    · exact .settle (.add k)
    · exact .refl

/-- **A call is a run of steps.** What a call does at once, its steps do one after the other. -/
theorem Steps.call (h : t.Attended) (c : Call γ) (allowed : t.Allows c) : Steps t (t.call c) := by
  cases c with
  | add k => exact .settle (.add k)
  | done k => exact .settle (.done k)
  | addAfter k delay => exact .addAfter t k delay
  | addRateLimited k =>
    have delayed := Step.delay (t := t) (t.queue.limiter.next k).2
    exact (Relation.ReflTransGen.single delayed).trans (Steps.addAfter _ k _)
  | get g => exact .get h allowed.1 allowed.2
  | getOnce g =>
    exact .getOnce h allowed.1 fun hm => allowed.2 (List.mem_append_left _ hm)
  | quit g => exact .single (.quit g allowed)
  | forget k => exact .single (.delay _)
  | shutDown => exact (Relation.ReflTransGen.single .close).tail (.alarm (Nat.succ_ne_zero _))

/-! ### At rest -/

/-- What can come of a new queue, by steps of overlapping calls and by whole calls. -/
inductive Reachable (config : BackoffConfig) : Traffic γ → Prop where
  | fresh : Reachable config { queue := .empty config }
  | step {t t' : Traffic γ} (run : Reachable config t) (s : Step t t') : Reachable config t'
  | call {t : Traffic γ} (run : Reachable config t) (c : Call γ) (allowed : t.Allows c) :
      Reachable config (t.call c)

/-- Nobody has anything left to do: no call is half done, no getter runs or was woken. -/
structure AtRest (t : Traffic γ) : Prop where
  place : ∀ g, t.place g = none
  woken : t.queue.wakeup.woken = []
  notices : t.notices = 0
  alarms : t.alarms = 0

omit [DecidableEq γ] in
/-- Nothing waits to be done at a new queue. -/
theorem attended_fresh (config : BackoffConfig) :
    ({ queue := .empty config } : Traffic γ).Attended :=
  ⟨Wakeup.valid_empty, fun _ hg => by simp at hg, fun hp => absurd rfl hp, nofun⟩

variable {config : BackoffConfig}

/-- The invariant holds of everything that can come of a new queue. -/
theorem Reachable.attended (run : Reachable config t) : t.Attended := by
  induction run with
  | fresh => exact attended_fresh config
  | step _ s ih => exact ih.step s
  | call _ c allowed ih => exact ih.steps (.call ih c allowed)

/-- **No wake-up is lost.** When nobody has anything left to do, a getter sleeps only beside an
open queue that has nothing pending. -/
theorem nothing_of_waiting (run : Reachable config t) (rest : t.AtRest) {g : γ}
    (sleeps : g ∈ t.queue.wakeup.waiting) :
    t.queue.keys.pending = [] ∧ t.queue.isClosed = false := by
  have h := run.attended
  constructor
  · by_contra hp
    -- each way in which the pending key is attended to is excluded at rest
    rcases h.attended hp with (hpermit | howed) | hnotices | ⟨x, hx⟩
    · simp [h.valid.waiting_of_permit hpermit] at sleeps
    · obtain ⟨x, hx⟩ := List.exists_mem_of_ne_nil _ howed
      simpa [rest.woken] using h.valid.owed.subset hx
    · exact hnotices rest.notices
    · exact hx.1 (rest.place x)
  · by_contra hc
    rcases h.closing (Bool.not_eq_false _ ▸ hc) with halarms | hw
    · exact halarms rest.alarms
    · exact hw g sleeps (rest.place g)

/-- Of two getters that slept the first was woken for a key, and the second sleeps on. -/
theorem nothing_of_waiting_second : ∃ t : Traffic Nat, Reachable ⟨5, 1000⟩ t ∧ t.AtRest ∧
    1 ∈ t.queue.wakeup.waiting ∧ t.queue.keys.pending = [] ∧ t.queue.isClosed = false := by
  have start : Reachable ⟨5, 1000⟩ { queue := WorkQueue.empty (γ := Nat) ⟨5, 1000⟩ } := .fresh
  have first := start.call (.get 0) ⟨rfl, by decide⟩
  have second := first.call (.get 1) ⟨rfl, by decide⟩
  have added := (second.step (.add "a")).step (.notify (by decide))
  have served := added.call (.get 0) ⟨rfl, by decide⟩
  refine ⟨_, served, ⟨fun _ => rfl, by decide, rfl, rfl⟩, by decide, ?_⟩
  exact nothing_of_waiting served ⟨fun _ => rfl, by decide, rfl, rfl⟩ (g := 1) (by decide)

end Traffic

end StorageFeatures
