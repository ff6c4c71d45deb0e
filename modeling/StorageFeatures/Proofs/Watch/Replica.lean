import StorageFeatures.Object.SnapshotClass
import StorageFeatures.Proofs.Cache.Keyed

/-!
# Replicas

Handlers see the cache of an informer only through its events. A replica is a map that began as a
copy of the cache and follows the events: it stores the new object of an addition or of an update,
and drops the name of a deletion. Whatever happens to the informer, the replica equals the cache
after every notice (`Cache.replicated_of_notices`), and every event tells the truth at the moment
at which it is delivered.

Only a new list needs an argument. The cache takes the list over at once, and handlers hear of it
name by name:

* each name of the list is stored, over the object that the replica still holds of it
  (`Event.faithful_replaced`);
* each name that is not in the list vanishes, with the object that the replica still holds of it
  (`Event.faithful_vanished`).

The names of the two parts are different, so neither part disturbs the other.
-/

namespace StorageFeatures

open Resource (displayName)

/-! ### Following events -/

namespace Event

variable {α : Type} [Resource α]

/-- What a replica makes of an event. -/
def follow (replica : NameMap α) : Event α → NameMap α
  | added new | updated _ new => replica.insert (displayName new) new
  | deleted a | vanished a => replica.erase (displayName a)

/-- An event tells the truth to a replica. A new object has a name that the replica lacks; an
update starts from the object that the replica holds; and what has vanished is what it holds. -/
def Truthful (replica : NameMap α) : Event α → Prop
  | added new => replica.get? (displayName new) = none
  | updated old new => replica.get? (displayName new) = some old
  | deleted _ => True
  | vanished last => replica.get? (displayName last) = some last

/-- Each of some events tells the truth to a replica that has followed those before it. -/
def Faithful : NameMap α → List (Event α) → Prop
  | _, [] => True
  | replica, e :: events => e.Truthful replica ∧ Faithful (follow replica e) events

/-- Events are faithful if each part is faithful to what the parts before it leave. -/
theorem faithful_append {replica : NameMap α} {l₁ l₂ : List (Event α)} :
    Faithful replica (l₁ ++ l₂) ↔
      Faithful replica l₁ ∧ Faithful (l₁.foldl follow replica) l₂ := by
  induction l₁ generalizing replica with
  | nil => simp [Faithful]
  | cons e l₁ ih => simp [Faithful, ih, and_assoc]

/-- The object that an event stores. -/
def stored? : Event α → Option α
  | added new | updated _ new => some new
  | deleted _ | vanished _ => none

/-- The object of a tombstone. -/
def tombstone? : Event α → Option α
  | vanished last => some last
  | added _ | updated .. | deleted _ => none

end Event

/-! ### What an informer sends -/

/-- What happens to an informer. -/
inductive Notice (α : Type) where
  /-- Its watch reports a change. -/
  | change (change : Change α)
  | resync

namespace Cache

variable {α : Type} [Resource α]

/-- The cache after a notice, and the events that handlers are told, in order. -/
def notify (c : Cache α) : Notice α → Cache α × List (Event α)
  | .change change => c.observe change
  | .resync => (c, c.resync)

/-- The cache after some notices, and all events that handlers were told, in order. -/
def notifyAll (c : Cache α) : List (Notice α) → Cache α × List (Event α)
  | [] => (c, [])
  | n :: notices =>
    let (c, events) := c.notify n
    let (c, later) := c.notifyAll notices
    (c, events ++ later)

protected theorem Keyed.notify {c : Cache α} (h : c.Keyed) (n : Notice α) : (c.notify n).1.Keyed := by
  cases n with
  | change change => exact h.observe change
  | resync => exact h

end Cache

namespace Event

variable {α : Type} [Resource α] {replica : NameMap α}

@[simp] theorem follow_ofReplaced (replica : NameMap α) (a : α) (old : Option α) :
    follow replica (ofReplaced a old) = replica.insert (displayName a) a := by
  cases old <;> rfl

/-- An object that replaces what the replica holds under its name, or nothing. -/
theorem truthful_ofReplaced (replica : NameMap α) (a : α) :
    (ofReplaced a (replica.get? (displayName a))).Truthful replica := by
  cases h : replica.get? (displayName a) <;> exact h

/-- Entries under their own names replace, one by one, what stands there before. -/
theorem faithful_replaced (before : NameMap α) {entries : List (String × α)}
    (distinct : entries.Pairwise fun a b => a.1 < b.1)
    (named : ∀ e ∈ entries, displayName e.2 = e.1)
    (agree : ∀ e ∈ entries, replica.get? e.1 = before.get? e.1) :
    Faithful replica (entries.map fun e => ofReplaced e.2 (before.get? e.1)) ∧
      ∀ k, ((entries.map fun e => ofReplaced e.2 (before.get? e.1)).foldl follow replica).get? k =
        (NameMap.find k entries).or (replica.get? k) := by
  induction entries generalizing replica with
  | nil => exact ⟨trivial, fun k => rfl⟩
  | cons e entries ih =>
    obtain ⟨n, a⟩ := e
    obtain ⟨hlt, hrest⟩ := List.pairwise_cons.mp distinct
    have hname : displayName a = n := named (n, a) List.mem_cons_self
    have hold : replica.get? n = before.get? n := agree (n, a) List.mem_cons_self
    have hfollow : follow replica (ofReplaced a (before.get? n)) = replica.insert n a := by
      rw [follow_ofReplaced, hname]
    have htruth : (ofReplaced a (before.get? n)).Truthful replica := by
      rw [← hold, ← hname]
      exact truthful_ofReplaced replica a
    have hagree : ∀ e ∈ entries, (replica.insert n a).get? e.1 = before.get? e.1 := by
      intro e he
      rw [NameMap.get?_insert, if_neg (String.ne_of_lt (hlt e he)).symm]
      exact agree e (List.mem_cons_of_mem _ he)
    obtain ⟨hfaithful, hget⟩ :=
      ih hrest (fun e he => named e (List.mem_cons_of_mem _ he)) hagree
    rw [← hfollow] at hfaithful hget
    refine ⟨⟨htruth, hfaithful⟩, fun k => ?_⟩
    rw [List.map_cons, List.foldl_cons, hget, hfollow, NameMap.get?_insert]
    by_cases hk : k = n
    · -- the later entries have other names
      subst hk
      simp [NameMap.find, NameMap.find_eq_none_of_lt hlt]
    · simp [NameMap.find, hk]

/-- Entries of a replica vanish from it one by one. -/
theorem faithful_vanished (entries : List (String × α))
    (distinct : entries.Pairwise fun a b => a.1 < b.1)
    (named : ∀ e ∈ entries, displayName e.2 = e.1)
    (held : ∀ e ∈ entries, replica.get? e.1 = some e.2) :
    Faithful replica (entries.map fun e => vanished e.2) ∧
      ∀ k, ((entries.map fun e => vanished e.2).foldl follow replica).get? k =
        if k ∈ entries.map (·.1) then none else replica.get? k := by
  induction entries generalizing replica with
  | nil => exact ⟨trivial, fun k => rfl⟩
  | cons e entries ih =>
    obtain ⟨n, a⟩ := e
    obtain ⟨hlt, hrest⟩ := List.pairwise_cons.mp distinct
    have hname : displayName a = n := named (n, a) List.mem_cons_self
    have htruth : (vanished a).Truthful replica := by
      rw [Truthful, hname]
      exact held (n, a) List.mem_cons_self
    -- the other entries have other names, so they are still held
    have hheld : ∀ e ∈ entries, (replica.erase n).get? e.1 = some e.2 := by
      intro e he
      rw [NameMap.get?_erase, if_neg (String.ne_of_lt (hlt e he)).symm]
      exact held e (List.mem_cons_of_mem _ he)
    obtain ⟨hfaithful, hget⟩ :=
      ih hrest (fun e he => named e (List.mem_cons_of_mem _ he)) hheld
    have hfollow : follow replica (vanished a) = replica.erase n := by rw [follow, hname]
    rw [← hfollow] at hfaithful hget
    refine ⟨⟨htruth, hfaithful⟩, fun k => ?_⟩
    rw [List.map_cons, List.map_cons, List.foldl_cons, hget, hfollow, NameMap.get?_erase]
    by_cases hk : k = n
    · simp [hk]
    · simp only [List.mem_cons, hk, false_or, if_false]

/-- Objects of a replica that are repeated change nothing. -/
theorem faithful_repeated {l : List α} (held : ∀ a ∈ l, replica.get? (displayName a) = some a) :
    Faithful replica (l.map fun a => updated a a) ∧
      (l.map fun a => updated a a).foldl follow replica = replica := by
  induction l with
  | nil => exact ⟨trivial, rfl⟩
  | cons a l ih =>
    have ha := held a List.mem_cons_self
    have hsame : follow replica (updated a a) = replica := by
      refine NameMap.ext_get? fun k => ?_
      rw [follow, NameMap.get?_insert]
      split
      · rename_i hk
        rw [hk, ha]
      · rfl
    obtain ⟨hfaithful, hfold⟩ := ih fun b hb => held b (List.mem_cons_of_mem _ hb)
    rw [← hsame] at hfaithful
    refine ⟨⟨ha, hfaithful⟩, ?_⟩
    rw [List.map_cons, List.foldl_cons, hsame, hfold]

omit [Resource α] in
@[simp] theorem stored?_ofReplaced (a : α) (old : Option α) :
    (ofReplaced a old).stored? = some a := by
  cases old <;> rfl

omit [Resource α] in
@[simp] theorem stored?_vanished (a : α) : (vanished a).stored? = none := rfl

omit [Resource α] in
@[simp] theorem tombstone?_vanished (a : α) : (vanished a).tombstone? = some a := rfl

omit [Resource α] in
@[simp] theorem tombstone?_ofReplaced (a : α) (old : Option α) :
    (ofReplaced a old).tombstone? = none := by
  cases old <;> rfl

end Event

/-! ### A new list -/

namespace Cache

variable {α : Type} [Resource α] {c : Cache α}

/-- The entries that are not in a new list. -/
def lost (c : Cache α) (l : List α) : List (String × α) :=
  c.objects.entries.filter fun e => !(index l).contains e.1

/-- What is lost is what was cached and is not in the new list. -/
theorem mem_map_lost {l : List α} {k : String} :
    k ∈ (c.lost l).map (·.1) ↔ c.objects.contains k = true ∧ (index l).contains k = false := by
  rw [← NameMap.mem_keys_iff_contains, NameMap.keys]
  simp [lost, and_comm]

/-- What handlers are told of a new list: first what it holds, then what has vanished. -/
theorem observe_restarted (c : Cache α) (l : List α) :
    (c.observe (.restarted l)).2 =
      ((index l).entries.map fun e => .ofReplaced e.2 (c.objects.get? e.1)) ++
        (c.lost l).map fun e => .vanished e.2 := by
  simp [observe, replace, lost, Function.comp_def]

end Cache

/-- What a new list makes of a replica, and what handlers are told of it. -/
structure Relisted {α : Type} [Resource α] (before after : NameMap α) (l : List α)
    (events : List (Event α)) : Prop where
  /-- The replica is the list; of the objects of a name the last one counts. -/
  objects : ∀ k, after.get? k = l.reverse.find? fun a => displayName a = k
  /-- Each name of the list is stored once, and no other. -/
  listed : ∀ k, ((events.filterMap Event.stored?).map displayName).count k =
    if k ∈ l.map displayName then 1 else 0
  /-- Each name that has vanished has one tombstone, and no other has one. -/
  vanished : ∀ k, ((events.filterMap Event.tombstone?).map displayName).count k =
    if before.contains k = true ∧ k ∉ l.map displayName then 1 else 0
  /-- Nothing is reported as deleted by a watch. -/
  lost : ∀ a, Event.deleted a ∉ events

namespace Cache

variable {α : Type} [Resource α] {c : Cache α}

/-- What is stored of a new list are its objects by name. -/
theorem stored_restarted (c : Cache α) (l : List α) :
    (c.observe (.restarted l)).2.filterMap Event.stored? = (index l).values := by
  rw [observe_restarted, List.filterMap_append, List.filterMap_map, List.filterMap_map]
  simp [Function.comp_def, NameMap.values]

/-- Tombstones are sent for the objects that are not in the new list. -/
theorem tombstones_restarted (c : Cache α) (l : List α) :
    (c.observe (.restarted l)).2.filterMap Event.tombstone? = (c.lost l).map (·.2) := by
  rw [observe_restarted, List.filterMap_append, List.filterMap_map, List.filterMap_map]
  simp [Function.comp_def]

/-- A new list is reported as what it adds, what it replaces and what is gone. -/
theorem Keyed.relisted (h : c.Keyed) (l : List α) :
    Relisted c.objects (c.observe (.restarted l)).1.objects l (c.observe (.restarted l)).2 := by
  refine ⟨get?_index l, fun k => ?_, fun k => ?_, fun a ha => ?_⟩
  · have hnames : (index l).values.map displayName = (index l).keys := by
      rw [NameMap.values, NameMap.keys, List.map_map]
      exact List.map_congr_left fun e he => (mem_of_get?_index (NameMap.get?_eq_some_iff.mpr he)).2
    rw [stored_restarted, hnames, (index l).nodup_keys.count]
    simp only [mem_keys_index]
  · have hnames : ((c.lost l).map (·.2)).map displayName = (c.lost l).map (·.1) := by
      rw [List.map_map]
      exact List.map_congr_left fun e he => h.named (List.mem_filter.mp he).1
    have hnodup : ((c.lost l).map (·.1)).Nodup :=
      c.objects.nodup_keys.sublist (List.filter_sublist.map _)
    have hlisted : (index l).contains k = false ↔ k ∉ l.map displayName := by
      rw [← mem_keys_index, NameMap.mem_keys_iff_contains, Bool.not_eq_true]
    rw [tombstones_restarted, hnames, hnodup.count]
    simp only [mem_map_lost, hlisted]
  · rw [observe_restarted, List.mem_append, List.mem_map, List.mem_map] at ha
    rcases ha with ⟨e, -, he⟩ | ⟨e, -, he⟩
    · have hstored := congrArg Event.stored? he
      rw [Event.stored?_ofReplaced] at hstored
      cases hstored
    · cases he

/-! ### Every step, and every run -/

/-- A replica that equals the cache believes what it is told, and equals the cache again. -/
theorem Keyed.faithful (h : c.Keyed) (n : Notice α) :
    Event.Faithful c.objects (c.notify n).2 ∧
      (c.notify n).2.foldl Event.follow c.objects = (c.notify n).1.objects := by
  cases n with
  | change change =>
    cases change with
    | applied a =>
      exact ⟨⟨Event.truthful_ofReplaced c.objects a, trivial⟩, Event.follow_ofReplaced c.objects a _⟩
    | deleted a => exact ⟨⟨trivial, trivial⟩, rfl⟩
    | restarted l =>
      have hfresh : ∀ e ∈ (index l).entries, displayName e.2 = e.1 := fun e he =>
        (mem_of_get?_index (NameMap.get?_eq_some_iff.mpr he)).2
      have hagree : ∀ e ∈ (index l).entries, c.objects.get? e.1 = c.objects.get? e.1 :=
        fun _ _ => rfl
      obtain ⟨hlisted, hget⟩ :=
        Event.faithful_replaced c.objects (index l).ascending hfresh hagree
      -- what is not in the list is still held when its tombstone arrives
      have hheld : ∀ e ∈ c.lost l,
          (((index l).entries.map fun e => Event.ofReplaced e.2 (c.objects.get? e.1)).foldl
            Event.follow c.objects).get? e.1 = some e.2 := by
        intro e he
        obtain ⟨hmem, hlost⟩ := List.mem_filter.mp he
        have hnone : NameMap.find e.1 (index l).entries = none := by
          simpa [NameMap.contains, NameMap.get?] using hlost
        rw [hget, hnone, Option.none_or]
        exact NameMap.get?_eq_some_iff.mpr hmem
      obtain ⟨hgone, hget'⟩ := Event.faithful_vanished (c.lost l)
        (c.objects.ascending.filter _) (fun e he => h.named (List.mem_filter.mp he).1) hheld
      show Event.Faithful _ (c.observe (.restarted l)).2 ∧
        (c.observe (.restarted l)).2.foldl Event.follow _ = index l
      rw [observe_restarted, List.foldl_append]
      refine ⟨Event.faithful_append.mpr ⟨hlisted, hgone⟩, NameMap.ext_get? fun k => ?_⟩
      rw [hget', hget]
      simp only [mem_map_lost, NameMap.contains, NameMap.get?]
      cases NameMap.find k (index l).entries with
      | some a => simp
      | none => cases NameMap.find k c.objects.entries <;> simp
  | resync =>
    show Event.Faithful _ c.resync ∧ c.resync.foldl Event.follow _ = c.objects
    unfold resync
    split
    · refine Event.faithful_repeated fun a ha => ?_
      obtain ⟨k, hk⟩ := NameMap.mem_values_iff.mp ha
      rw [h k a hk]
      exact hk
    · exact ⟨trivial, rfl⟩

end Cache

/-- What a notice does to a cache and to a replica that has followed all events before it. -/
structure Cache.Replicated {α : Type} [Resource α] (c : Cache α) (replica : NameMap α)
    (n : Notice α) : Prop where
  before : replica = c.objects
  /-- The replica equals the cache again. -/
  after : (c.notify n).2.foldl Event.follow replica = (c.notify n).1.objects
  /-- Every object stands under its own name. -/
  keyed : (c.notify n).1.Keyed
  /-- Each event tells the truth when it is delivered. -/
  faithful : Event.Faithful replica (c.notify n).2
  /-- Tombstones are sent only after a restart of the watch. -/
  tombstones : ∀ a, Event.vanished a ∈ (c.notify n).2 → ∃ l, n = .change (.restarted l)
  relisted : ∀ l, n = .change (.restarted l) →
    Relisted c.objects (c.notify n).1.objects l (c.notify n).2

namespace Cache

variable {α : Type} [Resource α] {c : Cache α}

/-- Only a new list sends tombstones. -/
theorem restarted_of_vanished {n : Notice α} {a : α} (h : Event.vanished a ∈ (c.notify n).2) :
    ∃ l, n = .change (.restarted l) := by
  cases n with
  | change change =>
    cases change with
    | applied b =>
      have hsome := congrArg Event.tombstone? (List.mem_singleton.mp h)
      rw [Event.tombstone?_ofReplaced] at hsome
      cases hsome
    | deleted b => cases List.mem_singleton.mp h
    | restarted l => exact ⟨l, rfl⟩
  | resync =>
    replace h : Event.vanished a ∈ c.resync := h
    unfold resync at h
    split at h
    · obtain ⟨b, -, hb⟩ := List.mem_map.mp h
      cases hb
    · cases h

/-- One notice, to a replica that equals the cache. -/
theorem Keyed.replicated (h : c.Keyed) (n : Notice α) : c.Replicated c.objects n := by
  obtain ⟨hfaithful, hafter⟩ := h.faithful n
  refine ⟨rfl, hafter, h.notify n, hfaithful, fun a => restarted_of_vanished, ?_⟩
  rintro l rfl
  exact h.relisted l

/-- After any notices the cache is keyed, and the replica equals it. -/
theorem Keyed.notifyAll (h : c.Keyed) (notices : List (Notice α)) :
    (c.notifyAll notices).1.Keyed ∧
      (c.notifyAll notices).2.foldl Event.follow c.objects = (c.notifyAll notices).1.objects := by
  induction notices generalizing c with
  | nil => exact ⟨h, rfl⟩
  | cons n notices ih =>
    obtain ⟨hkeyed, hfold⟩ := ih (h.notify n)
    refine ⟨hkeyed, ?_⟩
    rw [Cache.notifyAll, List.foldl_append, (h.faithful n).2]
    exact hfold

/-- **Events are a faithful log of the cache.** Take a copy of a keyed cache and let it follow all
events. Whatever has happened to the informer, at the next notice the copy equals the cache, each
event tells it the truth, and then it equals the cache again. After a restart of the watch each name
of the new list is stored once, and each name that has vanished has one tombstone. -/
theorem replicated_of_notices (keyed : c.Keyed) (past : List (Notice α)) (next : Notice α) :
    (c.notifyAll past).1.Replicated ((c.notifyAll past).2.foldl Event.follow c.objects) next := by
  obtain ⟨hkeyed, hfold⟩ := keyed.notifyAll past
  rw [hfold]
  exact hkeyed.replicated next

/-- A snapshot class of some name and driver. -/
def sampleSnapshots (name driver : String) : SnapshotClass :=
  { metadata := { name := some name }, driver }

/-- The list holds one name twice, keeps another one, and lacks a third. -/
theorem replicated_relisting :
    let c := (replace {} [sampleSnapshots "a" "d", sampleSnapshots "b" "d"]).1
    let past := [.change (.applied (sampleSnapshots "a" "e")), .resync]
    let listed := [sampleSnapshots "c" "d", sampleSnapshots "a" "d", sampleSnapshots "c" "e"]
    c.Keyed ∧ (c.notifyAll past).1.Replicated
      ((c.notifyAll past).2.foldl Event.follow c.objects) (.change (.restarted listed)) :=
  ⟨keyed_replace {} _, replicated_of_notices (keyed_replace {} _) _ _⟩

end Cache

end StorageFeatures
