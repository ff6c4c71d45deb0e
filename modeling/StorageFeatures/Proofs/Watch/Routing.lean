import StorageFeatures.Proofs.Sync.Ask
import StorageFeatures.Simulation.Feed
import Mathlib.Tactic.ByContra

/-!
# Routing misses nothing

Whenever a change that a watch reports makes the caches ask for something else under a name, that
name is among the keys of the events (`Caches.routed_of_ask_ne`). Two things stand in the way. An
update that repeats a known revision of a class is dropped, so an object that keeps its revision has
to stay as it is (`Cache.Steady`); over many changes that follows from a `History`, in which
revisions tell apart different states of an object. And while the classes have not synced, a
provisioner's capability is routed nowhere; the names that this misses are those of cached classes.
-/

namespace StorageFeatures

open Resource (displayName resourceVersion)

namespace Caches

variable {α : Type} [Watched α]

/-- The caches after a change that a watch reports. -/
def observed (caches : Caches) (change : Change α) : Caches :=
  Watched.withCache caches ((Watched.cache caches : Cache α).observe change).1

/-- The keys of the events of a change. -/
def routed (caches : Caches) (change : Change α) : List String :=
  ((Watched.cache caches : Cache α).observe change).2.flatMap
    (Event.keys (caches.observed change).storageClasses)

/-- A cache that has synced stays synced. -/
theorem isSynced_observed {caches : Caches} {k k' : Kind} (change : Change k.Object)
    (h : caches.isSynced k' = true) : (caches.observed change).isSynced k' = true := by
  cases k <;> cases k' <;> first | exact h | exact Cache.synced_observe h change

/-- What a watch reports is stored under the names of its objects. -/
theorem Keyed.observed {caches : Caches} (h : caches.Keyed) {k : Kind}
    (change : Change k.Object) : (caches.observed change).Keyed := by
  obtain ⟨hclasses, hsnaps, hprovs, hcaps⟩ := h
  cases k with
  | storageClass => exact ⟨hclasses.observe change, hsnaps, hprovs, hcaps⟩
  | snapshotClass => exact ⟨hclasses, hsnaps.observe change, hprovs, hcaps⟩
  | provisionerCapability => exact ⟨hclasses, hsnaps, hprovs.observe change, hcaps⟩
  | classCapability => exact ⟨hclasses, hsnaps, hprovs, hcaps.observe change⟩

end Caches

/-! ### Known states -/

/-- From one content of a cache to the next, an object that keeps its revision is unchanged. -/
def Cache.Steady {α : Type} [Resource α] (c c' : Cache α) : Prop :=
  ∀ k old new, c.peek k = some old → c'.peek k = some new → (resourceVersion old).isSome = true →
    resourceVersion old = resourceVersion new → old = new

theorem Cache.Steady.refl {α : Type} [Resource α] (c : Cache α) : c.Steady c :=
  fun _ _ _ hold hnew _ _ => Option.some.inj (hold.symm.trans hnew)

/-- Two objects of one name with the same revision are equal. -/
def Revisioned {α : Type} [Resource α] (known : α → Prop) : Prop :=
  ∀ a b, known a → known b → displayName a = displayName b →
    resourceVersion a = resourceVersion b → (resourceVersion a).isSome = true → a = b

/-- Where revisions tell states apart, a change leaves the cache steady. -/
theorem Revisioned.steady {α : Type} [Resource α] {known : α → Prop} (h : Revisioned known)
    {c : Cache α} (hc : c.Keyed) {change : Change α} (hold : ∀ k a, c.peek k = some a → known a)
    (hnew : ∀ a ∈ change.present, known a) : c.Steady (c.observe change).1 := by
  intro k old new hbefore hafter hsome hsame
  have hknown : known new :=
    (Cache.mem_present_of_observe hafter).elim (hold k new) (hnew new)
  have hnames : displayName old = displayName new :=
    (hc k old hbefore).trans (hc.observe change k new hafter).symm
  exact h old new (hold k old hbefore) hknown hnames hsame hsome

/-- The classes and snapshot classes that ever exist. -/
structure History where
  classes : StorageClass → Prop
  snapshots : SnapshotClass → Prop
  revisioned_classes : Revisioned classes
  revisioned_snapshots : Revisioned snapshots

namespace History

/-- What a watch reports as present exists. -/
def Knows (h : History) : (k : Kind) → Change k.Object → Prop
  | .storageClass, change => ∀ c ∈ change.present, h.classes c
  | .snapshotClass, change => ∀ s ∈ change.present, h.snapshots s
  | .provisionerCapability, _ | .classCapability, _ => True

/-- What is cached exists. -/
structure Covers (h : History) (caches : Caches) : Prop where
  classes : ∀ k c, caches.storageClasses.peek k = some c → h.classes c
  snapshots : ∀ k s, caches.snapshotClasses.peek k = some s → h.snapshots s

theorem Covers.observed {h : History} {caches : Caches} (hh : h.Covers caches) {k : Kind}
    {change : Change k.Object} (hk : h.Knows k change) : h.Covers (caches.observed change) := by
  cases k with
  | storageClass =>
    refine ⟨fun n c hc => ?_, hh.snapshots⟩
    exact (Cache.mem_present_of_observe hc).elim (hh.classes n c) (hk c)
  | snapshotClass =>
    refine ⟨hh.classes, fun n s hs => ?_⟩
    exact (Cache.mem_present_of_observe hs).elim (hh.snapshots n s) (hk s)
  | provisionerCapability | classCapability => exact ⟨hh.classes, hh.snapshots⟩

end History

/-- An event about a name that does not repeat a known state is routed to that name. -/
theorem Event.mem_keys_of_affected {α : Type} [Watched α] {e : Event α}
    {classes : Cache StorageClass} {n : String} (hn : n ≠ "") (h : n ∈ Watched.affected classes e) :
    n ∈ e.keys classes := by
  refine List.mem_filter.mpr ⟨h, ?_⟩
  simpa using hn

/-- The event of a real change is no repetition. -/
theorem Cache.Steady.isResync_eq_false {α : Type} [Resource α] {c : Cache α} {change : Change α}
    (steady : c.Steady (c.observe change).1) (hc : c.Keyed) {k : String}
    (hne : (c.observe change).1.peek k ≠ c.peek k) :
    ∃ e ∈ (c.observe change).2, displayName e.object = k ∧ e.isResync = false := by
  obtain ⟨e, he, hname, hupdate⟩ := hc.exists_event_of_ne hne
  refine ⟨e, he, hname, ?_⟩
  by_contra hresync
  cases e with
  | updated old new =>
    obtain ⟨hbefore, hafter⟩ := hupdate old new rfl
    rw [Bool.not_eq_false, Event.isResync, Bool.and_eq_true, decide_eq_true_eq] at hresync
    -- both sides have one revision, so nothing has changed
    have heq := steady k old new hbefore hafter hresync.1 hresync.2
    exact hne (hafter.trans (heq ▸ hbefore.symm))
  | added | deleted | vanished => exact hresync rfl

/-! ### What is routed -/

namespace Caches

variable {caches : Caches} {n : String}

/-- A class that changes is routed to its own name. -/
theorem routed_of_class_ne (hc : caches.Keyed) {change : Change StorageClass}
    (steady : caches.storageClasses.Steady (caches.storageClasses.observe change).1) (hn : n ≠ "")
    (hne : (caches.storageClasses.observe change).1.peek n ≠ caches.storageClasses.peek n) :
    n ∈ caches.routed change := by
  obtain ⟨e, he, rfl, hresync⟩ := steady.isResync_eq_false hc.storageClasses hne
  refine List.mem_flatMap.mpr ⟨e, he, Event.mem_keys_of_affected hn ?_⟩
  show _ ∈ if e.isResync then [] else [displayName e.object]
  rw [hresync]
  exact List.mem_singleton_self _

/-- A snapshot class that changes is routed to the class of its name. -/
theorem routed_of_snapshot_ne (hc : caches.Keyed) {change : Change SnapshotClass}
    (steady : caches.snapshotClasses.Steady (caches.snapshotClasses.observe change).1) (hn : n ≠ "")
    (hne : (caches.snapshotClasses.observe change).1.peek n ≠ caches.snapshotClasses.peek n) :
    n ∈ caches.routed change := by
  obtain ⟨e, he, rfl, hresync⟩ := steady.isResync_eq_false hc.snapshotClasses hne
  refine List.mem_flatMap.mpr ⟨e, he, Event.mem_keys_of_affected hn ?_⟩
  show _ ∈ if e.isResync then [] else [displayName e.object]
  rw [hresync]
  exact List.mem_singleton_self _

/-- A capability that changes is routed to the class of its name. -/
theorem routed_of_capability_ne (hc : caches.Keyed) {change : Change ClassCapability}
    (hn : n ≠ "")
    (hne : (caches.capabilities.observe change).1.peek n ≠ caches.capabilities.peek n) :
    n ∈ caches.routed change := by
  obtain ⟨e, he, rfl, -⟩ := hc.capabilities.exists_event_of_ne hne
  exact List.mem_flatMap.mpr ⟨e, he, Event.mem_keys_of_affected hn (List.mem_singleton_self _)⟩

/-- The capability of a provisioner that changes is routed to every class that it serves. -/
theorem routed_of_provisioner_ne (hc : caches.Keyed) {change : Change ProvisionerCapability}
    (hn : n ≠ "") {c : StorageClass} (hclass : caches.storageClasses.peek n = some c)
    (hs : caches.storageClasses.synced = true)
    (hne : (caches.provisioners.observe change).1.peek c.provisioner ≠
      caches.provisioners.peek c.provisioner) :
    n ∈ caches.routed change := by
  obtain ⟨e, he, hname, -⟩ := hc.provisioners.exists_event_of_ne hne
  refine List.mem_flatMap.mpr ⟨e, he, Event.mem_keys_of_affected hn ?_⟩
  refine mem_servedBy_iff.mpr ⟨hs, c, ?_, hname.symm, hc.storageClasses n c hclass⟩
  exact NameMap.mem_values_iff.mpr ⟨n, hclass⟩

/-- **Routing misses nothing.** A name under which something else is asked for after a change is
routed, or it is the name of a cached class while the classes have not synced. -/
theorem routed_of_ask_ne (hc : caches.Keyed) {h : History} (hh : h.Covers caches) {k : Kind}
    {change : Change k.Object} (hk : h.Knows k change) (hn : n ≠ "")
    (hne : Sync.ask (caches.observed change) n ≠ Sync.ask caches n) :
    n ∈ caches.routed change ∨
      caches.storageClasses.synced = false ∧ ∃ c, caches.storageClasses.peek n = some c := by
  cases k with
  | storageClass =>
    have steady := h.revisioned_classes.steady hc.storageClasses hh.classes hk
    refine .inl (routed_of_class_ne hc steady hn fun heq => hne ?_)
    exact Sync.ask_congr heq rfl (fun _ _ => rfl) rfl
  | snapshotClass =>
    have steady := h.revisioned_snapshots.steady hc.snapshotClasses hh.snapshots hk
    refine .inl (routed_of_snapshot_ne hc steady hn fun heq => hne ?_)
    exact Sync.ask_congr rfl heq (fun _ _ => rfl) rfl
  | classCapability =>
    refine .inl (routed_of_capability_ne hc hn fun heq => hne ?_)
    exact Sync.ask_congr rfl rfl (fun _ _ => rfl) heq
  | provisionerCapability =>
    -- the provisioner of the class has changed
    by_contra hmiss
    rw [not_or] at hmiss
    refine hne (Sync.ask_congr rfl rfl (fun c hclass => ?_) rfl)
    by_contra hprov
    cases hs : caches.storageClasses.synced with
    | false => exact hmiss.2 ⟨hs, c, hclass⟩
    | true => exact hmiss.1 (routed_of_provisioner_ne hc hn hclass hs hprov)

end Caches

end StorageFeatures
