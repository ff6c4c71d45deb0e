import StorageFeatures.Proofs.Queue.Keys

/-!
# Runs of a work queue

A `Call` is anything that can be asked of a work queue, and a `Ledger` is a queue together with
the keys that were handed out and are not done. `Ledger.Runs l served l'` says that some sequence
of calls leads from `l` to `l'` and hands out the keys `served`, in this order; the only rule for
callers is that a key is done once for each time it was handed out.

`KeyQueue.Step` lists what a call can do to the keys: add one, hand out the oldest, release one,
close, or nothing (`WorkQueue.Call.step`). Every statement about runs is one case distinction over
it. The main result is `Ledger.sound_of_runs`: whatever is called on a fresh queue, no key is
pending twice or handed out twice, no addition is lost, and keys are handed out in the order in
which they became pending.
-/

namespace StorageFeatures

/-- The key that a getter comes back with. -/
def Polled.key? : Polled → Option String
  | .key k => some k
  | .closed | .asleep => none

namespace WorkQueue

variable {γ : Type}

/-- A call on a work queue. A delay that is over adds its key by `add`. -/
inductive Call (γ : Type) where
  | add (k : String)
  | addAfter (k : String) (delay : Nat)
  | addRateLimited (k : String)
  /-- A getter runs, and sleeps if there is nothing for it. -/
  | get (g : γ)
  /-- A getter runs once and goes away. -/
  | getOnce (g : γ)
  /-- A getter that sleeps goes away. -/
  | quit (g : γ)
  | done (k : String)
  | forget (k : String)
  | shutDown

namespace Call

/-- The key that a call releases. -/
def released? : Call γ → Option String
  | done k => some k
  | _ => none

variable [DecidableEq γ]

/-- Carries out a call; answers also the key that it hands out. -/
def run (q : WorkQueue γ) : Call γ → WorkQueue γ × Option String
  | add k => (q.add k, none)
  | addAfter k delay => ((q.addAfter k delay).1, none)
  | addRateLimited k => ((q.addRateLimited k).1, none)
  | get g => ((q.poll g).1, (q.poll g).2.key?)
  | getOnce g => ((q.pollOnce g).1, (q.pollOnce g).2.key?)
  | quit g => ({ q with wakeup := q.wakeup.leave g }, none)
  | done k => (q.done k, none)
  | forget k => (q.forget k, none)
  | shutDown => (q.shutDown, none)

end Call

end WorkQueue

/-! ### What a call does to the keys -/

namespace KeyQueue

/-- `Step q released handed q'`: one call leads from `q` to `q'`, releases a key and hands one
out. -/
inductive Step (q : KeyQueue) : Option String → Option String → KeyQueue → Prop where
  | keep : Step q none none q
  | add (k : String) : Step q none none (q.add k).1
  | take {k : String} {q' : KeyQueue} (h : q.take? = some (k, q')) : Step q none (some k) q'
  | done (k : String) : Step q (some k) none (q.done k).1
  | close : Step q none none q.close

variable {q q' : KeyQueue} {released handed : Option String}

/-- A getter takes the oldest key or changes nothing. -/
theorem step_hand (q : KeyQueue) : Step q none q.hand.1.key? q.hand.2 := by
  cases h : q.hand.1 with
  | key k => exact .take (hand_fst_eq_key_iff.mp h)
  | closed =>
    rw [hand_snd_of_ne_key (by simp [h])]
    exact .keep
  | asleep =>
    rw [hand_snd_of_ne_key (by simp [h])]
    exact .keep

/-- Every step keeps the queue consistent, as long as only keys in process are released. -/
theorem Step.consistent (s : Step q released handed q') (h : q.Consistent)
    (hr : ∀ k, released = some k → q.processing.contains k = true) : q'.Consistent := by
  cases s with
  | keep => exact h
  | add k => exact h.add k
  | take ht => exact h.take? ht
  | done k => exact h.done (hr k rfl)
  | close => exact h.close

/-- Who processes what changes only by handing out and releasing. -/
theorem Step.contains_processing (s : Step q released handed q') (k : String) :
    q'.processing.contains k =
      (decide (handed = some k) || (q.processing.contains k && decide (released ≠ some k))) := by
  cases s with
  | keep => simp
  | add k' => simp
  | take ht =>
    obtain ⟨ks, -, rfl⟩ := take?_eq_some_iff.mp ht
    simp [eq_comm]
  | done k' => simp [eq_comm, Bool.and_comm]
  | close => simp [KeyQueue.close]

/-- **No addition is lost.** A dirty key stays dirty unless it is handed out. -/
theorem Step.dirty (s : Step q released handed q') {k : String}
    (hd : q.dirty.contains k = true) (hk : handed ≠ some k) : q'.dirty.contains k = true := by
  cases s with
  | keep => exact hd
  | add k' => simp [contains_dirty_add, hd]
  | take ht =>
    obtain ⟨ks, -, rfl⟩ := take?_eq_some_iff.mp ht
    have hne : ¬ k = _ := fun he => hk (congrArg some he.symm)
    simp [hne, hd]
  | done k' => simpa using hd
  | close => exact hd

/-- **First come, first served.** The pending keys go in front of everything that becomes pending
later. -/
theorem Step.isPrefix (s : Step q released handed q') :
    q.pending <+: handed.toList ++ q'.pending := by
  cases s with
  | keep => exact List.prefix_rfl
  | add k' => simp [pending_add]
  | take ht =>
    obtain ⟨ks, hks, rfl⟩ := take?_eq_some_iff.mp ht
    simp [hks]
  | done k' => simp [pending_done]
  | close => exact List.prefix_rfl

end KeyQueue

namespace WorkQueue

variable {γ : Type} [DecidableEq γ]

/-- Every call acts on the keys by one step. -/
theorem Call.step (q : WorkQueue γ) (call : Call γ) :
    KeyQueue.Step q.keys call.released? (call.run q).2 (call.run q).1.keys := by
  cases call with
  | add k => exact .add k
  | addAfter k delay =>
    rw [show (run q (addAfter k delay)).1.keys = _ from keys_addAfter q k delay]
    split
    · exact .add k
    · exact .keep
  | addRateLimited k =>
    rw [show (run q (addRateLimited k)).1.keys = _ from keys_addRateLimited q k]
    split
    · exact .add k
    · exact .keep
  | get g =>
    rw [show (run q (get g)).1.keys = _ from keys_poll q g,
      show (run q (get g)).2 = _ from congrArg Polled.key? (polled_poll q g)]
    exact KeyQueue.step_hand q.keys
  | getOnce g =>
    rw [show (run q (getOnce g)).1.keys = _ from keys_pollOnce q g,
      show (run q (getOnce g)).2 = _ from congrArg Polled.key? (polled_pollOnce q g)]
    exact KeyQueue.step_hand q.keys
  | quit g => exact .keep
  | done k => exact .done k
  | forget k => exact .keep
  | shutDown => exact .close

end WorkQueue

/-! ### Runs -/

open WorkQueue (Call)

/-- A queue and the keys that were handed out and are not done. -/
structure Ledger (γ : Type) where
  queue : WorkQueue γ
  held : List String := []

namespace Ledger

variable {γ : Type} [DecidableEq γ]

/-- A queue on which nothing was called. -/
def fresh (config : BackoffConfig) : Ledger γ := { queue := .empty config }

/-- Only a key that was handed out and is not done can be done. -/
def Allows (l : Ledger γ) (call : Call γ) : Prop := ∀ k, call.released? = some k → k ∈ l.held

/-- The ledger after a call. -/
def after (l : Ledger γ) (call : Call γ) : Ledger γ where
  queue := (call.run l.queue).1
  held := (call.released?.elim l.held l.held.erase) ++ (call.run l.queue).2.toList

theorem queue_after (l : Ledger γ) (call : Call γ) :
    (l.after call).queue = (call.run l.queue).1 := rfl

/-- Some sequence of calls leads to another ledger and hands out some keys, in this order. -/
inductive Runs (l : Ledger γ) : List String → Ledger γ → Prop where
  | refl : Runs l [] l
  | next {served : List String} {l' : Ledger γ} (run : Runs l served l') (call : Call γ)
      (allowed : l'.Allows call) :
      Runs l (served ++ (call.run l'.queue).2.toList) (l'.after call)

/-- What every run keeps: the queue is consistent, and it processes the keys that are held. -/
structure Balanced (l : Ledger γ) : Prop where
  consistent : l.queue.keys.Consistent
  nodup : l.held.Nodup
  mem_held_iff : ∀ k, k ∈ l.held ↔ l.queue.keys.processing.contains k = true

variable {l l' : Ledger γ} {served : List String}

omit [DecidableEq γ] in
/-- A new queue has handed out nothing. -/
theorem balanced_fresh (config : BackoffConfig) : (fresh config : Ledger γ).Balanced :=
  ⟨KeyQueue.consistent_empty, List.nodup_nil, fun k => by
    simp [fresh, WorkQueue.empty, NameMap.contains]⟩

/-- A call that is allowed keeps the held keys and the keys in process the same. No call both
releases a key and hands one out, so the two parts of the ledger change one at a time. -/
theorem Balanced.after (h : l.Balanced) {call : Call γ} (allowed : l.Allows call) :
    (l.after call).Balanced := by
  have step := call.step l.queue
  have released : ∀ k, call.released? = some k →
      l.queue.keys.processing.contains k = true :=
    fun k hk => (h.mem_held_iff k).mp (allowed k hk)
  -- the keys that are still held once the call has released its own
  have held : ∀ k, k ∈ call.released?.elim l.held l.held.erase ↔
      k ∈ l.held ∧ call.released? ≠ some k := by
    intro k
    cases call.released? with
    | none => simp
    | some k' =>
      simp only [Option.elim_some, h.nodup.mem_erase_iff, ne_eq, Option.some.injEq]
      exact ⟨fun ⟨hne, hk⟩ => ⟨hk, Ne.symm hne⟩, fun ⟨hk, hne⟩ => ⟨Ne.symm hne, hk⟩⟩
  have nodup : (call.released?.elim l.held l.held.erase).Nodup := by
    cases call.released? with
    | none => exact h.nodup
    | some k' => exact h.nodup.erase k'
  refine ⟨step.consistent h.consistent released, ?_, fun k => ?_⟩
  · -- a key that is handed out was processed by nobody
    refine List.nodup_append.mpr ⟨nodup, by cases (call.run l.queue).2 <;> simp, ?_⟩
    intro k hk k' hk' he
    subst he
    have hout : (call.run l.queue).2 = some k := by simpa using hk'
    rw [hout] at step
    obtain ⟨hheld, -⟩ := (held k).mp hk
    cases hcall : call.released? with
    | none =>
      rw [hcall] at step
      cases step with
      | take ht =>
        have := (h.consistent.of_take? ht).2
        rw [(h.mem_held_iff k).mp hheld] at this
        exact Bool.noConfusion this
    | some k' =>
      rw [hcall] at step
      cases step
  · -- what is handed out joins the held keys
    show k ∈ _ ++ _ ↔ _
    rw [List.mem_append, held, queue_after, step.contains_processing, h.mem_held_iff]
    simp only [Option.mem_toList, Bool.or_eq_true, decide_eq_true_eq, Bool.and_eq_true]
    exact or_comm

theorem Runs.balanced (run : Runs l served l') (h : l.Balanced) : l'.Balanced := by
  induction run with
  | refl => exact h
  | next _ call allowed ih => exact ih.after allowed

/-- A dirty key stays dirty until it is handed out. -/
theorem Runs.dirty (run : Runs l served l') {k : String}
    (hd : l.queue.keys.dirty.contains k = true) (hk : k ∉ served) :
    l'.queue.keys.dirty.contains k = true := by
  induction run with
  | refl => exact hd
  | next _ call allowed ih =>
    rw [List.mem_append, not_or] at hk
    exact (call.step _).dirty (ih hk.1) fun he => hk.2 (by simp [he])

/-- What was pending is handed out first, in its order. -/
theorem Runs.isPrefix (run : Runs l served l') :
    l.queue.keys.pending <+: served ++ l'.queue.keys.pending := by
  induction run with
  | refl => exact List.prefix_rfl
  | next _ call allowed ih =>
    rw [List.append_assoc]
    exact ih.trans ((List.prefix_append_right_inj _).mpr (call.step _).isPrefix)

/-- A held key that was added again is pending as soon as it is done. -/
theorem Balanced.mem_pending_done (h : l.Balanced) {k : String} (hk : k ∈ l.held)
    (hd : l.queue.keys.dirty.contains k = true) :
    k ∈ (l.after (.done k)).queue.keys.pending := by
  have hallowed : l.Allows (.done k) := by
    rintro k' ⟨⟩
    exact hk
  have hb := h.after hallowed
  refine (hb.consistent.mem_pending_iff k).mpr ⟨?_, ?_⟩
  · exact ((Call.done k).step l.queue).dirty hd (by simp [Call.run])
  · rw [queue_after, ((Call.done k).step l.queue).contains_processing]
    simp [Call.run, Call.released?]

/-! ### What holds after every run -/

/-- What can be relied on, whatever was called. -/
structure Sound (l : Ledger γ) : Prop where
  /-- No key is pending twice. -/
  nodup_pending : l.queue.keys.pending.Nodup
  /-- No key is handed out to a second getter before it is done. -/
  nodup_held : l.held.Nodup
  /-- The keys that were handed out and are not done are the ones that are processed. -/
  mem_held_iff : ∀ k, k ∈ l.held ↔ l.queue.keys.processing.contains k = true
  /-- A key that is processed is not pending. -/
  not_mem_pending : ∀ k ∈ l.held, k ∉ l.queue.keys.pending
  /-- The pending keys are the dirty ones that are not processed. -/
  mem_pending_iff : ∀ k, k ∈ l.queue.keys.pending ↔
    l.queue.keys.dirty.contains k = true ∧ l.queue.keys.processing.contains k = false
  /-- A key that is added to an open queue stays dirty until it is handed out: it is pending, or
  it is parked and becomes pending when it is done. -/
  kept : l.queue.isClosed = false → ∀ k served l', Runs (l.after (.add k)) served l' →
    k ∉ served → l'.queue.keys.dirty.contains k = true ∧
      (k ∈ l'.queue.keys.pending ∨
        k ∈ l'.held ∧ k ∈ (l'.after (.done k)).queue.keys.pending)
  /-- The key at a place is handed out by the successful get with the same number, or it has
  moved up by as many places as keys were handed out. -/
  in_order : ∀ served l', Runs l served l' → ∀ p k, l.queue.keys.pending[p]? = some k →
    served[p]? = some k ∨
      served.length ≤ p ∧ l'.queue.keys.pending[p - served.length]? = some k
  /-- A getter succeeds whenever a key is pending. -/
  prompt : ∀ k ks, l.queue.keys.pending = k :: ks →
    ∀ g, ((Call.get g).run l.queue).2 = some k ∧ ((Call.getOnce g).run l.queue).2 = some k

/-- **Safety of the work queue.** Whatever sequence of calls is made on a fresh queue, its
collections belong together, every key has one holder at most, and additions are neither lost
nor overtaken. -/
theorem sound_of_runs {config : BackoffConfig} (run : Runs (fresh config) served l) :
    l.Sound := by
  have h := run.balanced (balanced_fresh config)
  refine ⟨h.consistent.nodup, h.nodup, h.mem_held_iff, ?_, h.consistent.mem_pending_iff,
    ?_, ?_, ?_⟩
  · intro k hk hp
    have hnot := ((h.consistent.mem_pending_iff k).mp hp).2
    rw [(h.mem_held_iff k).mp hk] at hnot
    exact Bool.noConfusion hnot
  · -- an added key is dirty, and no run without it being handed out changes that
    intro hopen k served' l' run' hk
    have hadd : (l.after (.add k)).queue.keys.dirty.contains k = true :=
      KeyQueue.dirty_add hopen k
    have hd := run'.dirty hadd hk
    have hallowed : l.Allows (.add k) := fun _ hnone => nomatch hnone
    have h' := run'.balanced (h.after hallowed)
    refine ⟨hd, (h'.consistent.pending_or_processing hd).imp_right fun hp => ?_⟩
    have hheld := (h'.mem_held_iff k).mpr hp
    exact ⟨hheld, h'.mem_pending_done hheld hd⟩
  · -- the pending keys are a prefix of what is handed out and pending later
    intro served' l' run' p k hp
    obtain ⟨later, heq⟩ := run'.isPrefix
    have hat : (served' ++ l'.queue.keys.pending)[p]? = some k := by
      rw [← heq, List.getElem?_append_left (List.getElem?_eq_some_iff.mp hp).1, hp]
    rcases Nat.lt_or_ge p served'.length with hlt | hge
    · rw [List.getElem?_append_left hlt] at hat
      exact .inl hat
    · rw [List.getElem?_append_right hge] at hat
      exact .inr ⟨hge, hat⟩
  · intro k ks hks g
    have ht : l.queue.keys.hand.1 = .key k := by
      rw [KeyQueue.hand_of_take? (KeyQueue.take?_eq_some_iff.mpr ⟨ks, hks, rfl⟩)]
    exact ⟨(congrArg Polled.key? (WorkQueue.polled_poll _ g)).trans (congrArg Polled.key? ht),
      (congrArg Polled.key? (WorkQueue.polled_pollOnce _ g)).trans (congrArg Polled.key? ht)⟩

/-- A queue that processes `a`, which was added again, while `b` is pending. -/
def busy : Ledger Nat :=
  ((((fresh ⟨5, 1000⟩).after (.add "a")).after (.add "b")).after (.get 0)).after (.add "a")

/-- A run that adds a key again while it is processed is sound. -/
theorem sound_busy : Runs (fresh ⟨5, 1000⟩) ["a"] busy ∧ busy.held = ["a"] ∧ busy.Sound := by
  have run : Runs (fresh ⟨5, 1000⟩) ["a"] busy :=
    (((Runs.refl.next (.add "a") nofun).next (.add "b") nofun).next (.get 0) nofun).next
      (.add "a") nofun
  exact ⟨run, by decide, sound_of_runs run⟩

end Ledger

end StorageFeatures
