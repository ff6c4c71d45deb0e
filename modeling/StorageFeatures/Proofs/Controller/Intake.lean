import StorageFeatures.Proofs.Controller.System
import StorageFeatures.Proofs.Sync.Repetition

/-!
# What an event queues

Events and decisions are written apart from each other and have to agree on who depends on what.
`Controller.routes_of_observe` says that they do, for every change that a watch can report of any of
the four kinds:

* every name under which another decision is reached afterwards is dirty
  (`Caches.routed_of_decide_ne`);
* no name is queued that the change does not concern (`Caches.concerned_of_mem_routed`): it is the
  name of an object that the change mentions or removes, or, if these are capabilities of
  provisioners, the name of a cached class that such a provisioner serves.

For the first, a name that is not routed has the same inputs before and after, and the same inputs
give the same decision. For the second, every event of a change is about an object that the change
mentions or removes (`Cache.concerns_of_mem`).
-/

namespace StorageFeatures

open Resource (displayName)

/-! ### What a change concerns -/

section Concerns

variable {α : Type} [Resource α]

/-- The objects that a watch names. -/
def Change.mentioned : Change α → List α
  | applied a | deleted a => [a]
  | restarted l => l

/-- A change of a cache mentions an object, or removes it. -/
def Cache.Concerns (c : Cache α) (change : Change α) (a : α) : Prop :=
  a ∈ change.mentioned ∨ ∃ k, c.peek k = some a ∧ (c.observe change).1.peek k = none

/-- **Events are about what the change concerns.** -/
theorem Cache.concerns_of_mem {c : Cache α} {change : Change α} {e : Event α}
    (h : e ∈ (c.observe change).2) : c.Concerns change e.object := by
  cases change with
  | applied a =>
    obtain rfl := List.mem_singleton.mp h
    exact .inl (by simp [Change.mentioned])
  | deleted a =>
    obtain rfl := List.mem_singleton.mp h
    exact .inl (List.mem_singleton_self a)
  | restarted l =>
    rcases List.mem_append.mp h with h | h
    · obtain ⟨⟨a, old⟩, ha, rfl⟩ := List.mem_map.mp h
      obtain ⟨⟨k, b⟩, hb, hab⟩ := List.mem_map.mp ha
      obtain ⟨rfl, rfl⟩ := Prod.mk.inj hab
      rw [Event.object_ofReplaced]
      exact .inl (mem_of_get?_index (NameMap.get?_eq_some_iff.mpr hb)).1
    · obtain ⟨a, ha, rfl⟩ := List.mem_map.mp h
      obtain ⟨⟨k, b⟩, hb, rfl⟩ := List.mem_map.mp ha
      obtain ⟨hmem, hgone⟩ := List.mem_filter.mp hb
      have hgone : (index l).contains k = false := by simpa using hgone
      refine .inr ⟨k, NameMap.get?_eq_some_iff.mpr hmem, ?_⟩
      show (index l).get? k = none
      exact Option.not_isSome_iff_eq_none.mp (by simpa [NameMap.contains] using hgone)

end Concerns

namespace Caches

variable {caches : Caches} {k : Kind} {change : Change k.Object} {n : String}

/-- A name that a change concerns. A capability of a provisioner concerns the cached classes that
the provisioner serves. -/
def Concerned (caches : Caches) : (k : Kind) → Change k.Object → String → Prop
  | .storageClass, change, n =>
    ∃ c, caches.storageClasses.Concerns change c ∧ displayName c = n
  | .snapshotClass, change, n =>
    ∃ s, caches.snapshotClasses.Concerns change s ∧ displayName s = n
  | .provisionerCapability, change, n => ∃ c p, caches.storageClasses.peek n = some c ∧
    caches.provisioners.Concerns change p ∧ displayName p = c.provisioner
  | .classCapability, change, n => ∃ a, caches.capabilities.Concerns change a ∧ displayName a = n

/-- The keys of an event are names that it affects. -/
theorem mem_affected {α : Type} [Watched α] {classes : Cache StorageClass} {e : Event α}
    (h : n ∈ e.keys classes) : n ≠ "" ∧ n ∈ Watched.affected classes e := by
  obtain ⟨haffected, hn⟩ := List.mem_filter.mp h
  exact ⟨by simpa using hn, haffected⟩

/-- **Routing queues nothing else.** -/
theorem concerned_of_mem_routed (hc : caches.Keyed) (h : n ∈ caches.routed change) :
    n ≠ "" ∧ caches.Concerned k change n := by
  obtain ⟨e, he, hkey⟩ := List.mem_flatMap.mp h
  obtain ⟨hn, haffected⟩ := mem_affected hkey
  -- an event of a class or of a snapshot class that is not dropped
  have named : ∀ {resync : Bool} {name : String},
      n ∈ (if resync then [] else [name]) → name = n := by
    intro resync name hmem
    cases resync with
    | true => cases hmem
    | false => exact (List.mem_singleton.mp hmem).symm
  refine ⟨hn, ?_⟩
  cases k with
  | storageClass => exact ⟨e.object, Cache.concerns_of_mem he, named haffected⟩
  | snapshotClass => exact ⟨e.object, Cache.concerns_of_mem he, named haffected⟩
  | classCapability =>
    exact ⟨e.object, Cache.concerns_of_mem he, (List.mem_singleton.mp haffected).symm⟩
  | provisionerCapability =>
    obtain ⟨-, c, hcached, hserved, rfl⟩ := mem_servedBy_iff.mp haffected
    obtain ⟨k, hclass⟩ := NameMap.mem_values_iff.mp hcached
    have hk : displayName c = k := hc.storageClasses k c hclass
    exact ⟨c, e.object, hk ▸ hclass, Cache.concerns_of_mem he, hserved.symm⟩

/-! ### Whose decision changes -/

/-- Classes and snapshot classes that keep their revision are unchanged. -/
structure Steady (caches caches' : Caches) : Prop where
  storageClasses : caches.storageClasses.Steady caches'.storageClasses
  snapshotClasses : caches.snapshotClasses.Steady caches'.snapshotClasses

/-- **Routing misses no decision.** -/
theorem routed_of_decide_ne (hc : caches.Keyed) (synced : caches.allSynced = true)
    (steady : caches.Steady (caches.observed change)) (hn : n ≠ "")
    (hne : Sync.decide (caches.observed change) n ≠ Sync.decide caches n) :
    n ∈ caches.routed change := by
  have synced' : (caches.observed change).allSynced = true :=
    Caches.allSynced_iff.mpr fun kind =>
      isSynced_observed change (Caches.allSynced_iff.mp synced kind)
  -- the same inputs and the same capability give the same decision
  have same : Sync.SameInputs caches (caches.observed change) n →
      (caches.observed change).capabilities.peek n ≠ caches.capabilities.peek n := fun inputs heq =>
    hne (Sync.decide_eq_of_sameInputs synced synced' inputs heq)
  cases k with
  | storageClass =>
    refine routed_of_class_ne hc steady.storageClasses hn fun heq => ?_
    exact same ⟨heq, rfl, fun _ _ => rfl⟩ rfl
  | snapshotClass =>
    refine routed_of_snapshot_ne hc steady.snapshotClasses hn fun heq => ?_
    exact same ⟨rfl, heq, fun _ _ => rfl⟩ rfl
  | classCapability => exact routed_of_capability_ne hc hn (same ⟨rfl, rfl, fun _ _ => rfl⟩)
  | provisionerCapability =>
    by_contra hmiss
    refine same ⟨rfl, rfl, fun c hclass => ?_⟩ rfl
    by_contra hprov
    have hs : caches.storageClasses.synced = true := Caches.allSynced_iff.mp synced .storageClass
    exact hmiss (routed_of_provisioner_ne hc hn hclass hs hprov)

end Caches

/-! ### The queue of a controller -/

namespace Controller

variable {α : Type} [Watched α] {c : Controller}

theorem caches_route (c : Controller) (e : Event α) : (c.route e).caches = c.caches :=
  congrArg Work.caches (work_route { controller := c } c e)

/-- An event adds the keys of the classes it concerns. -/
theorem queue_route (c : Controller) (e : Event α) :
    (c.route e).queue = (e.keys c.caches.storageClasses).foldl WorkQueue.add c.queue := by
  unfold route
  generalize e.keys c.caches.storageClasses = ks
  induction ks generalizing c with
  | nil => rfl
  | cons k ks ih => exact ih (c.enqueue k)

theorem queue_routeAll (c : Controller) (events : List (Event α)) :
    (events.foldl route c).queue =
      (events.flatMap (Event.keys c.caches.storageClasses)).foldl WorkQueue.add c.queue := by
  induction events generalizing c with
  | nil => rfl
  | cons e events ih =>
    rw [List.foldl_cons, ih, caches_route, queue_route, List.flatMap_cons, List.foldl_append]

/-- The keys of its events are added, in order. -/
theorem queue_observe (c : Controller) (change : Change α) :
    (c.observe change).1.queue = (c.caches.routed change).foldl WorkQueue.add c.queue :=
  queue_routeAll _ _

/-- A change reaches the caches before its events are routed. -/
theorem caches_observe (c : Controller) (change : Change α) :
    (c.observe change).1.caches = c.caches.observed change :=
  congrArg Work.caches (work_observe { controller := c } c change)

/-- What a controller queues when a watch reports a change. A decision says also what is to be
written, so that decisions differ already if it is to be written to other metadata. -/
structure Routes (c : Controller) {k : Kind} (change : Change k.Object) : Prop where
  /-- Where the decision has changed, the name is dirty. -/
  complete : ∀ n, n ≠ "" →
    Sync.decide (c.observe change).1.caches n ≠ Sync.decide c.caches n →
    (c.observe change).1.queue.keys.dirty.contains n = true
  /-- Only names that the change concerns are added. -/
  precise : ∃ ks : List String, (c.observe change).1.queue = ks.foldl WorkQueue.add c.queue ∧
    ∀ n ∈ ks, n ≠ "" ∧ c.caches.Concerned k change n

/-- **Routing is complete and precise.** A change that a watch reports queues every name under which
something else is to be decided now, and no name that the change does not concern. -/
theorem routes_of_observe (hc : c.caches.Reached) (synced : c.caches.allSynced = true)
    (hopen : c.queue.keys.closed = false) {k : Kind} {change : Change k.Object}
    (steady : c.caches.Steady (c.observe change).1.caches) : c.Routes change where
  complete n hn hne := by
    rw [caches_observe] at steady hne
    have hrouted := Caches.routed_of_decide_ne hc.keyed synced steady hn hne
    have hkeys : (c.observe change).1.queue.keys = _ :=
      congrArg Work.keys (work_observe { controller := c } c change)
    rw [hkeys]
    refine (KeyQueue.contains_dirty_addAll c.queue.keys (c.caches.routed change) n).trans ?_
    simp [hrouted, hopen]
  precise := ⟨_, queue_observe c change, fun _ h => Caches.concerned_of_mem_routed hc.keyed h⟩

/-- The provisioner of one class vanishes from a list in which the provisioner of another class
appears. Both classes are queued, and a third one is not. -/
theorem routes_relisted :
    let provisioner (n : String) : ProvisionerCapability :=
      { metadata := { name := some n }, spec := { plugin := ⟨n, "1"⟩ } }
    let caches : Caches :=
      { storageClasses := (Cache.replace {}
          [{ metadata := { name := some "fast" }, provisioner := "disk" },
           { metadata := { name := some "slow" }, provisioner := "tape" },
           { metadata := { name := some "none" }, provisioner := "void" }]).1
        snapshotClasses := (Cache.replace {} []).1
        provisioners := (Cache.replace {} [provisioner "disk"]).1
        capabilities := (Cache.replace {} []).1 }
    let c : Controller := { Controller.fresh {} none with caches }
    let change : Change Kind.provisionerCapability.Object := .restarted [provisioner "tape"]
    c.caches.Reached ∧ c.caches.allSynced = true ∧ c.queue.keys.closed = false ∧
      c.caches.Steady (c.observe change).1.caches ∧ c.Routes change ∧
      (c.observe change).1.queue.keys.pending = ["slow", "fast"] := by
  intro provisioner caches c change
  have reached : c.caches.Reached :=
    ⟨.replace .empty _, .replace .empty _, .replace .empty _, .replace .empty _⟩
  have steady : c.caches.Steady (c.observe change).1.caches := by
    rw [caches_observe]
    exact ⟨.refl _, .refl _⟩
  exact ⟨reached, rfl, rfl, steady, routes_of_observe reached rfl rfl steady, by decide +kernel⟩

end Controller

end StorageFeatures
