import StorageFeatures.Watch.Event

/-!
# Keyed caches

A cache that only watches and stores have changed is keyed: every object stands under its own
name. Nothing else is known of it, for its operations can make every keyed cache of an empty one
(`Cache.reached_iff_keyed`). For a keyed cache the events of a change leave nothing out: for every
name whose object has changed there is an event about an object of that name, and if that event is
an update then its two sides are the object before and the object after
(`Cache.Keyed.exists_event_of_ne`).
-/

namespace StorageFeatures

open Resource (displayName)

namespace Change

variable {α : Type}

/-- The objects that a watch reports as present. -/
def present : Change α → List α
  | applied a => [a]
  | deleted _ => []
  | restarted l => l

end Change

namespace Cache

variable {α : Type} [Resource α] {c : Cache α}

/-- Every object is stored under its own name. -/
def Keyed (c : Cache α) : Prop := ∀ k a, c.objects.get? k = some a → displayName a = k

/-- An empty cache has no object under a wrong name. -/
theorem keyed_empty : ({} : Cache α).Keyed := nofun

protected theorem Keyed.markSynced (h : c.Keyed) : c.markSynced.Keyed := h

/-- A write is seen under the name of the object only. -/
theorem get?_apply (c : Cache α) (a : α) (k : String) :
    (c.apply a).1.objects.get? k = if k = displayName a then some a else c.objects.get? k :=
  NameMap.get?_insert _ _ _ _

omit [Resource α] in
/-- A removal is seen under its name only. -/
theorem get?_remove (c : Cache α) (n k : String) :
    (c.remove n).1.objects.get? k = if k = n then none else c.objects.get? k :=
  NameMap.get?_erase _ _ _

/-- Of the objects of a name the last one of a list counts. -/
theorem get?_index (l : List α) (k : String) :
    (index l).get? k = l.reverse.find? fun a => displayName a = k := by
  rw [index, NameMap.get?_ofList, ← List.map_reverse, List.find?_map, Option.map_map]
  exact congrFun Option.map_id _

/-- An object of a list by name stands in the list and has that name. -/
theorem mem_of_get?_index {l : List α} {k : String} {a : α} (h : (index l).get? k = some a) :
    a ∈ l ∧ displayName a = k := by
  rw [get?_index] at h
  exact ⟨List.mem_reverse.mp (List.mem_of_find?_eq_some h), by simpa using List.find?_some h⟩

/-- The names of a list are those of its objects by name. -/
theorem mem_keys_index {l : List α} {k : String} :
    k ∈ (index l).keys ↔ k ∈ l.map displayName := by
  simp [NameMap.mem_keys_iff, get?_index, ← Option.isSome_iff_exists]

/-- The entries of a keyed cache bear the names of their objects. -/
theorem Keyed.named (h : c.Keyed) {e : String × α} (he : e ∈ c.objects.entries) :
    displayName e.2 = e.1 :=
  h e.1 e.2 (NameMap.get?_eq_some_iff.mpr he)

/-- An object is written under its own name. -/
protected theorem Keyed.apply (h : c.Keyed) (a : α) : (c.apply a).1.Keyed := by
  intro k b hb
  rw [get?_apply] at hb
  split at hb
  · rename_i hk
    cases hb
    exact hk.symm
  · exact h k b hb

protected theorem Keyed.remove (h : c.Keyed) (n : String) : (c.remove n).1.Keyed := by
  intro k b hb
  rw [get?_remove] at hb
  split at hb
  · cases hb
  · exact h k b hb

/-- A full list is stored by the names of its objects. -/
theorem keyed_replace (c : Cache α) (l : List α) : (c.replace l).1.Keyed :=
  fun _ _ hb => (mem_of_get?_index hb).2

/-- Whatever a watch reports, objects stand under their names. -/
protected theorem Keyed.observe (h : c.Keyed) (change : Change α) : (c.observe change).1.Keyed := by
  cases change with
  | applied a => exact h.apply a
  | deleted a => exact h.remove (displayName a)
  | restarted l => exact keyed_replace c l

/-- The caches that operations make of an empty one. -/
inductive Reached : Cache α → Prop where
  | empty : Reached {}
  | apply {c : Cache α} (reached : Reached c) (a : α) : Reached (c.apply a).1
  | remove {c : Cache α} (reached : Reached c) (k : String) : Reached (c.remove k).1
  | replace {c : Cache α} (reached : Reached c) (l : List α) : Reached (c.replace l).1
  | markSynced {c : Cache α} (reached : Reached c) : Reached c.markSynced

/-- In a cache that a watch has filled, objects stand under their names. -/
theorem Reached.keyed (h : c.Reached) : c.Keyed := by
  induction h with
  | empty => exact keyed_empty
  | apply _ a ih => exact ih.apply a
  | remove _ k ih => exact ih.remove k
  | @replace c _ l _ => exact keyed_replace c l
  | markSynced _ ih => exact ih

/-- A keyed cache is filled object by object. -/
theorem Keyed.reached (h : c.Keyed) : c.Reached := by
  have filled : ∀ (l : List (String × α)) (m : NameMap α), (∀ e ∈ l, displayName e.2 = e.1) →
      Reached ⟨m, false⟩ → Reached ⟨l.foldl (fun m e => m.insert e.1 e.2) m, false⟩ := by
    intro l
    induction l with
    | nil => exact fun m _ hm => hm
    | cons e l ih =>
      intro m named hm
      have inserted := hm.apply e.2
      simp only [Cache.apply, named e List.mem_cons_self] at inserted
      exact ih _ (fun e he => named e (List.mem_cons_of_mem _ he)) inserted
  have reached := filled c.objects.entries ∅ (fun e he => h.named he) .empty
  rw [← NameMap.ofList, NameMap.ofList_entries] at reached
  obtain ⟨objects, synced⟩ := c
  cases synced with
  | false => exact reached
  | true => exact reached.markSynced

/-- **Being keyed is all that is known of a cache.** -/
theorem reached_iff_keyed : c.Reached ↔ c.Keyed := ⟨Reached.keyed, Keyed.reached⟩

/-- What a cache holds after a change was there before or is reported by the change. -/
theorem mem_present_of_observe {change : Change α} {k : String} {a : α}
    (h : (c.observe change).1.objects.get? k = some a) :
    c.objects.get? k = some a ∨ a ∈ change.present := by
  cases change with
  | applied b =>
    have hb := (get?_apply c b k).symm.trans h
    split at hb
    · cases hb
      exact .inr List.mem_cons_self
    · exact .inl hb
  | deleted b =>
    have hb := (get?_remove c _ k).symm.trans h
    split at hb
    · cases hb
    · exact .inl hb
  | restarted l => exact .inr (mem_of_get?_index h).1

/-! ### Every change of an object is an event -/

/-- **Events leave nothing out.** If the object under a name has changed, then an event is about
an object of that name, and an update leads from the object before to the object after. -/
theorem Keyed.exists_event_of_ne (h : c.Keyed) {change : Change α} {k : String}
    (hne : (c.observe change).1.objects.get? k ≠ c.objects.get? k) :
    ∃ e ∈ (c.observe change).2, displayName e.object = k ∧ ∀ old new, e = .updated old new →
      c.objects.get? k = some old ∧ (c.observe change).1.objects.get? k = some new := by
  -- an event made of the object before and the one after
  have replaced : ∀ (a : α) (old : Option α), c.objects.get? k = old →
      (c.observe change).1.objects.get? k = some a → ∀ o n, Event.ofReplaced a old = .updated o n →
      c.objects.get? k = some o ∧ (c.observe change).1.objects.get? k = some n := by
    rintro a old hold hnew o n he
    cases old with
    | none => cases he
    | some b =>
      cases he
      exact ⟨hold, hnew⟩
  cases change with
  | applied a =>
    have hk : k = displayName a :=
      Decidable.byContradiction fun hk => hne ((get?_apply c a k).trans (if_neg hk))
    subst hk
    refine ⟨_, List.mem_singleton_self _, by simp, replaced a _ rfl ?_⟩
    exact (get?_apply c a _).trans (if_pos rfl)
  | deleted a =>
    have hk : k = displayName a :=
      Decidable.byContradiction fun hk => hne ((get?_remove c _ k).trans (if_neg hk))
    subst hk
    exact ⟨_, List.mem_singleton_self _, rfl, nofun⟩
  | restarted l =>
    show ∃ e ∈ _ ++ _, _
    cases hnew : (index l).get? k with
    | some a =>
      have hmem : (k, a) ∈ (index l).entries := NameMap.get?_eq_some_iff.mp hnew
      refine ⟨.ofReplaced a (c.objects.get? k), List.mem_append_left _ ?_, ?_,
        replaced a _ rfl hnew⟩
      · exact List.mem_map.mpr ⟨(a, c.objects.get? k), List.mem_map.mpr ⟨(k, a), hmem, rfl⟩, rfl⟩
      · rw [Event.object_ofReplaced, (mem_of_get?_index hnew).2]
    | none =>
      -- the name has vanished, so an object was there
      obtain ⟨b, hb⟩ := Option.ne_none_iff_exists'.mp fun hnone => hne (hnew.trans hnone.symm)
      refine ⟨.vanished b, List.mem_append_right _ (List.mem_map.mpr ⟨b, ?_, rfl⟩), h k b hb, nofun⟩
      have hmem : (k, b) ∈ c.objects.entries := NameMap.get?_eq_some_iff.mp hb
      refine List.mem_map.mpr ⟨(k, b), List.mem_filter.mpr ⟨hmem, ?_⟩, rfl⟩
      simp [NameMap.contains, hnew]

end Cache

/-- All four caches are keyed. -/
structure Caches.Keyed (c : Caches) : Prop where
  storageClasses : c.storageClasses.Keyed
  snapshotClasses : c.snapshotClasses.Keyed
  provisioners : c.provisioners.Keyed
  capabilities : c.capabilities.Keyed

/-- Each of the four caches was made of an empty one by operations. -/
structure Caches.Reached (c : Caches) : Prop where
  storageClasses : c.storageClasses.Reached
  snapshotClasses : c.snapshotClasses.Reached
  provisioners : c.provisioners.Reached
  capabilities : c.capabilities.Reached

/-- In all four caches that watches have filled, objects stand under their names. -/
theorem Caches.Reached.keyed {c : Caches} (h : c.Reached) : c.Keyed :=
  ⟨h.storageClasses.keyed, h.snapshotClasses.keyed, h.provisioners.keyed, h.capabilities.keyed⟩

theorem Caches.keyed_empty : Keyed {} :=
  ⟨Cache.keyed_empty, Cache.keyed_empty, Cache.keyed_empty, Cache.keyed_empty⟩

end StorageFeatures
