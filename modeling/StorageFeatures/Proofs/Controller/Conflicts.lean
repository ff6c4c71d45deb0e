import StorageFeatures.Proofs.Controller.Exclusion

/-!
# Workers never conflict

While no watch reports a change of the capabilities of classes, these change by the writes of
passes only. Then the write of an open pass still fits what is stored when it reaches the store,
however long that takes and whatever happens in between (`Work.Undisturbed`): the pass has looked
at the caches when it began, and nobody else has written under its key since.

The main result is `System.peaceful_of_run`: no write is refused by the store, every update
changes the stored spec, and the capability of a class is deleted once for each time that it was
created, and at most once while the class is absent.
-/

namespace StorageFeatures

open Resource (displayName)

/-- No watch reports a change of a capability of a class. -/
def Action.SparesCapabilities : Action → Prop
  | .observe k _ => k ≠ .classCapability
  | _ => True

namespace Work

/-- What a step does to the capabilities: nothing, or the write of one pass succeeds. -/
inductive Effect (w w' : Work) : Prop where
  | quiet (capabilities : w'.caches.capabilities = w.caches.capabilities)
      (landed : w'.landed = w.landed)
      (passes : ∀ pass ∈ w'.passes,
        pass ∈ w.passes ∨ Sync.ask w.caches pass.key = some pass.call)
  | lands {pass : Pass} (mem : pass ∈ w.passes) (landed : w'.landed = w.landed ++ [pass.call])
      (passes : ∀ p ∈ w'.passes, p ∈ w.passes ∧ p.key ≠ pass.key)
      (others : ∀ n, n ≠ pass.key → w'.caches.capabilities.peek n = w.caches.capabilities.peek n)
      (stored : (w'.caches.capabilities.peek pass.key).map (·.spec) = Sync.written pass.call)

/-- The pass that has deleted or created the capability of a name last was one that created it, or
there is no capability. -/
def Alternating (w : Work) : Prop := ∀ n l₁ l₂, w.landed = l₁ ++ .deleteCapability n :: l₂ →
  (∃ a, .createCapability a ∈ l₂ ∧ displayName a = n) ∨ w.caches.capabilities.peek n = none

/-- What every step keeps while the capabilities are spared. -/
structure Undisturbed (w : Work) : Prop where
  orderly : w.Orderly []
  fits : ∀ pass ∈ w.passes, Sync.Fits (w.caches.capabilities.peek pass.key) pass.key pass.call
  between : ∀ n l₁ l₂ l₃,
    w.landed = l₁ ++ .deleteCapability n :: (l₂ ++ .deleteCapability n :: l₃) →
      ∃ a, .createCapability a ∈ l₂ ∧ displayName a = n
  alternating : w.Alternating

variable {w w' : Work} {a : Action}

/-- A step does nothing to the capabilities, or the write of a pass lands as it was asked for. An
open pass still fits its key when its write lands, which is why the store never refuses it. -/
theorem Step.effect (step : Step w a w') (ok : a.SparesCapabilities) (h : w.Undisturbed) :
    Effect w w' := by
  cases step with
  | observe k change =>
    cases k with
    | classCapability => exact absurd rfl ok
    | _ => exact .quiet rfl rfl fun _ hp => .inl hp
  | resync | add | bringBack | inject | idle | close => exact .quiet rfl rfl fun _ hp => .inl hp
  | settle take synced ask ended =>
    exact .quiet (congrArg Caches.capabilities ended.caches) ended.landed
      fun p hp => .inl (ended.passes ▸ hp)
  | begin take synced ask =>
    refine .quiet rfl rfl fun p hp => (List.mem_append.mp hp).imp_right fun hp => ?_
    obtain rfl := List.mem_singleton.mp hp
    exact ask
  | land pass mem run ended =>
    have hfits := h.fits pass mem
    have touched := MemoryStore.touched_run w.caches pass.call w.store
    rw [run] at touched
    obtain ⟨cache, hcaches, hothers⟩ := touched.frame hfits.concerns
    rcases MemoryStore.run_cases w.caches pass.call w.store with ⟨_, _, -, hrun⟩ | ⟨store, -, hrun⟩
    · -- a fault was laid out for the write
      rw [hrun] at run
      cases run
      refine .quiet (congrArg Caches.capabilities ended.caches) ?_ fun p hp => .inl ?_
      · exact ended.landed.trans (List.append_nil _)
      · exact List.mem_of_mem_erase (ended.passes ▸ hp)
    · obtain ⟨⟨answer, hanswer⟩, hstored⟩ := Sync.perform_of_fits store hfits
      rw [← hrun, run] at hanswer hstored
      dsimp only at hanswer hcaches hstored
      refine .lands mem ?_ (fun p hp => ?_) (fun n hn => ?_) ?_
      · rw [ended.landed, hanswer]
        rfl
      · rw [ended.passes] at hp
        exact ⟨List.mem_of_mem_erase hp, h.orderly.key_ne mem hp⟩
      · rw [ended.caches, hcaches]
        exact hothers n hn
      · rw [ended.caches]
        exact hstored
  | fail pass mem ended owes =>
    refine .quiet (congrArg Caches.capabilities ended.caches) ended.landed fun p hp => .inl ?_
    exact List.mem_of_mem_erase (ended.passes ▸ hp)

/-- An element of a list with a new last element is that one, or stood in the list before. -/
theorem append_singleton_eq_append_cons {α : Type} {l l₁ l₂ : List α} {x y : α}
    (h : l ++ [x] = l₁ ++ y :: l₂) :
    (l₂ = [] ∧ x = y ∧ l = l₁) ∨ ∃ l₃, l₂ = l₃ ++ [x] ∧ l = l₁ ++ y :: l₃ := by
  rcases List.eq_nil_or_concat l₂ with rfl | ⟨l₃, z, rfl⟩
  · obtain ⟨rfl, hx⟩ := List.append_inj' h rfl
    exact .inl ⟨rfl, List.singleton_inj.mp hx, rfl⟩
  · have h' : l ++ [x] = (l₁ ++ y :: l₃) ++ [z] := by simpa using h
    obtain ⟨rfl, hx⟩ := List.append_inj' h' rfl
    obtain rfl := List.singleton_inj.mp hx
    exact .inr ⟨l₃, List.concat_eq_append, rfl⟩

/-- A write that lands belongs to a pass over another key, so the other passes still fit. -/
theorem Effect.fits (effect : Effect w w') (h : w.Undisturbed) :
    ∀ pass ∈ w'.passes,
      Sync.Fits (w'.caches.capabilities.peek pass.key) pass.key pass.call := by
  intro p hp
  cases effect with
  | quiet capabilities landed passes =>
    rw [capabilities]
    rcases passes p hp with hp | hask
    · exact h.fits p hp
    · exact Sync.fits_of_ask h.orderly.keyed hask
  | lands mem landed passes others stored =>
    obtain ⟨hp, hne⟩ := passes p hp
    rw [others p.key hne]
    exact h.fits p hp

/-- A deletion finds a capability, so one was created since the last deletion. -/
theorem Effect.between (effect : Effect w w') (h : w.Undisturbed) (n : String)
    (l₁ l₂ l₃ : List StoreCall)
    (hl : w'.landed = l₁ ++ .deleteCapability n :: (l₂ ++ .deleteCapability n :: l₃)) :
    ∃ a, .createCapability a ∈ l₂ ∧ displayName a = n := by
  cases effect with
  | quiet capabilities landed passes => exact h.between n l₁ l₂ l₃ (landed ▸ hl)
  | @lands pass mem landed passes others stored =>
    rw [landed, ← List.cons_append, ← List.append_assoc] at hl
    rcases append_singleton_eq_append_cons hl with ⟨-, hcall, hbefore⟩ | ⟨l₄, -, hbefore⟩
    · -- the second deletion is the write that lands
      have hfits := h.fits pass mem
      rw [hcall] at hfits
      obtain ⟨rfl, hthere⟩ := hfits
      exact (h.alternating _ l₁ l₂ hbefore).resolve_right hthere
    · exact h.between n l₁ l₂ l₄ (by simpa using hbefore)

/-- The write that lands keeps deletions and creations of one name in turn. A deletion leaves no
capability; after one, only a creation fits. -/
theorem Effect.alternating (effect : Effect w w') (h : w.Undisturbed) : w'.Alternating := by
  intro n l₁ l₂ hl
  cases effect with
  | quiet capabilities landed passes =>
    rw [capabilities]
    exact h.alternating n l₁ l₂ (landed ▸ hl)
  | @lands pass mem landed passes others stored =>
    rw [landed] at hl
    have hfits := h.fits pass mem
    rcases append_singleton_eq_append_cons hl with ⟨rfl, hcall, -⟩ | ⟨l₄, rfl, hbefore⟩
    · -- the deletion itself
      rw [hcall] at hfits stored
      obtain ⟨rfl, -⟩ := hfits
      exact .inr (Option.map_eq_none_iff.mp stored)
    · rcases h.alternating n l₁ l₄ hbefore with ⟨b, hb, hname⟩ | hnone
      · exact .inl ⟨b, List.mem_append_left _ hb, hname⟩
      · by_cases hn : n = pass.key
        · -- with no capability the write can only be a creation
          subst hn
          rw [hnone] at hfits
          cases hcall : pass.call with
          | createCapability b =>
            rw [hcall] at hfits
            exact .inl ⟨b, by simp, hfits.1⟩
          | updateCapability b =>
            rw [hcall] at hfits
            obtain ⟨-, old, hold, -⟩ := hfits
            cases hold
          | deleteCapability m =>
            rw [hcall] at hfits
            exact absurd rfl hfits.2
          | _ =>
            rw [hcall] at hfits
            exact hfits.elim
        · rw [others n hn]
          exact .inr hnone

/-- **Spared capabilities are undisturbed.** -/
theorem Step.undisturbed (step : Step w a w') (ok : a.SparesCapabilities) (h : w.Undisturbed) :
    w'.Undisturbed :=
  have effect := step.effect ok h
  ⟨step.orderly h.orderly, effect.fits h, effect.between h, effect.alternating h⟩

/-! ### While a class is absent -/

/-- A class and its capability are absent, and no pass writes the capability. -/
structure Gone (w : Work) (n : String) : Prop where
  storageClass : w.caches.storageClasses.peek n = none
  capability : w.caches.capabilities.peek n = none
  passes : ∀ pass ∈ w.passes, pass.key ≠ n

variable {n : String}

/-- What is gone stays gone until the class is back. -/
theorem Effect.gone (effect : Effect w w') (h : w.Gone n)
    (absent : w'.caches.storageClasses.peek n = none) : w'.Gone n := by
  cases effect with
  | quiet capabilities landed passes =>
    refine ⟨absent, capabilities ▸ h.capability, fun p hp => ?_⟩
    rcases passes p hp with hp | hask
    · exact h.passes p hp
    · -- with both absent nothing is asked for
      rintro rfl
      rw [Sync.ask_of_absent h.storageClass, h.capability] at hask
      cases hask
  | lands mem landed passes others stored =>
    refine ⟨absent, ?_, fun p hp => h.passes p (passes p hp).1⟩
    exact (others n (h.passes _ mem).symm).trans h.capability

/-- A deletion of a capability lands once at most, unless the class comes back. -/
theorem Effect.count (effect : Effect w w') (hw : w.Undisturbed)
    (absent : w'.caches.storageClasses.peek n = none) :
    w'.landed.count (.deleteCapability n) = w.landed.count (.deleteCapability n) ∨
      w'.landed.count (.deleteCapability n) = w.landed.count (.deleteCapability n) + 1 ∧
        w'.Gone n ∧ ¬ w.Gone n := by
  cases effect with
  | quiet capabilities landed passes => exact .inl (by rw [landed])
  | @lands pass mem landed passes others stored =>
    by_cases hcall : pass.call = .deleteCapability n
    · have hfits := hw.fits pass mem
      rw [hcall] at hfits stored
      obtain ⟨rfl, hthere⟩ := hfits
      refine .inr ⟨by simp [landed, hcall], ⟨absent, Option.map_eq_none_iff.mp stored, ?_⟩, ?_⟩
      · exact fun p hp => (passes p hp).2
      · exact fun hgone => hgone.passes pass mem rfl
    · refine .inl ?_
      rw [landed, List.count_append, List.count_singleton, beq_eq_false_iff_ne.mpr hcall]
      rfl

end Work

/-! ### Peaceful systems -/

namespace System

/-- The class of a name is absent. -/
def Lacks (s : System) (n : String) : Prop := s.controller.caches.storageClasses.peek n = none

/-- What can be relied on while the capabilities of classes are spared. -/
structure Peaceful (s : System) : Prop where
  /-- The store accepts the write of every open pass, unless it was told to fail it. -/
  accepted : ∀ pass ∈ s.controller.passes, s.store.failNext = none →
    ∃ answer, (s.store.run s.controller.caches pass.call).2.2 = .ok answer
  /-- Every update changes the stored spec to its own. -/
  changing : ∀ pass ∈ s.controller.passes, s.store.failNext = none →
    ∀ a, pass.call = .updateCapability a → ∃ old new,
      s.controller.caches.capabilities.peek pass.key = some old ∧
      (s.land pass).controller.caches.capabilities.peek pass.key = some new ∧
      new.spec = a.spec ∧ new.spec ≠ old.spec
  /-- Between two deletions of a capability it was created. -/
  between : ∀ n l₁ l₂ l₃,
    s.landed = l₁ ++ .deleteCapability n :: (l₂ ++ .deleteCapability n :: l₃) →
      ∃ a, .createCapability a ∈ l₂ ∧ displayName a = n
  /-- While a class is absent, its capability is deleted once at most. -/
  once : ∀ n s',
    Relation.ReflTransGen (fun s₁ s₂ => Step Action.SparesCapabilities s₁ s₂ ∧ s₂.Lacks n) s s' →
      s'.landed.count (.deleteCapability n) ≤ s.landed.count (.deleteCapability n) + 1

variable {s s' : System} {allowed : Action → Prop}

theorem caches_land (s : System) (pass : Pass) :
    (s.land pass).controller.caches = (s.store.run s.controller.caches pass.call).2.1 :=
  (Controller.ended_finish s _ pass.worker pass.key _).1.caches

theorem undisturbed_fresh {caches : Caches} (keyed : caches.Keyed) (config : ControllerConfig)
    (metrics : Option Metrics) (store : MemoryStore) :
    (fresh config metrics caches store).work.Undisturbed := by
  have nothing : (fresh config metrics caches store).work.landed = [] := rfl
  refine ⟨orderly_fresh keyed config metrics store, ?_, ?_, ?_⟩
  · exact fun pass hm => absurd hm List.not_mem_nil
  · intro n l₁ l₂ l₃ hl
    simp [nothing] at hl
  · intro n l₁ l₂ hl
    simp [nothing] at hl

/-- While a class is absent, at most one deletion of its capability lands, and none after it. -/
theorem count_le_of_lacks {n : String} (hs : s.controller.Staffed) (h : s.work.Undisturbed)
    (run : Relation.ReflTransGen
      (fun s₁ s₂ => Step Action.SparesCapabilities s₁ s₂ ∧ s₂.Lacks n) s s') :
    s'.controller.Staffed ∧ s'.work.Undisturbed ∧
      (s'.landed.count (.deleteCapability n) ≤ s.landed.count (.deleteCapability n) ∨
        s'.landed.count (.deleteCapability n) = s.landed.count (.deleteCapability n) + 1 ∧
          s'.work.Gone n) := by
  induction run with
  | refl => exact ⟨hs, h, .inl (Nat.le_refl _)⟩
  | tail _ step ih =>
    obtain ⟨hs, h, hcount⟩ := ih
    obtain ⟨⟨a, ok, enabled, rfl⟩, lacks⟩ := step
    have worked := step_work hs enabled
    have effect := worked.effect ok h
    refine ⟨staffed_next hs enabled, worked.undisturbed ok h, ?_⟩
    -- the step deletes nothing, or what it deletes was not deleted before
    rcases effect.count h lacks with hsame | ⟨hone, hgone, hbefore⟩
    · exact hcount.imp (fun hle => hsame ▸ hle) fun ⟨heq, hgone⟩ =>
        ⟨hsame.trans heq, effect.gone hgone lacks⟩
    · rcases hcount with hle | ⟨-, hgone'⟩
      · rcases Nat.lt_or_eq_of_le hle with hlt | heq
        · exact .inl (Nat.le_trans (Nat.le_of_eq hone) hlt)
        · exact .inr ⟨hone.trans (congrArg (· + 1) heq), hgone⟩
      · exact absurd hgone' hbefore

/-- **Workers never conflict.** Whatever else happens, while no watch reports a change of a
capability of a class, no write is refused and nothing is deleted twice. -/
theorem peaceful_of_run {config : ControllerConfig} {metrics : Option Metrics} {caches : Caches}
    {store : MemoryStore} (keyed : caches.Keyed)
    (run : Run Action.SparesCapabilities (fresh config metrics caches store) s) : s.Peaceful := by
  have hs := Run.staffed run (staffed_fresh config metrics caches store)
  have h : s.work.Undisturbed :=
    Run.preserves run (staffed_fresh config metrics caches store)
      (fun ok step hw => step.undisturbed ok hw) (undisturbed_fresh keyed config metrics store)
  refine ⟨fun pass mem hnone => ?_, fun pass mem hnone a hcall => ?_, h.between, ?_⟩
  · obtain ⟨-, store', hrun⟩ := MemoryStore.run_of_unarmed s.controller.caches pass.call hnone
    rw [hrun]
    exact (Sync.perform_of_fits store' (h.fits pass mem)).1
  · obtain ⟨-, store', hrun⟩ := MemoryStore.run_of_unarmed s.controller.caches pass.call hnone
    have hfits := h.fits pass mem
    have hstored := (Sync.perform_of_fits store' hfits).2
    rw [show store'.perform s.work.caches pass.call = _ from hrun.symm, ← caches_land,
      hcall] at hstored
    obtain ⟨new, hnew, hspec⟩ := Option.map_eq_some_iff.mp hstored
    rw [hcall] at hfits
    obtain ⟨-, old, hold, hne⟩ := hfits
    exact ⟨old, new, hold, hnew, hspec, hspec ▸ hne⟩
  · intro n s' stretch
    rcases (count_le_of_lacks hs h stretch).2.2 with hle | ⟨heq, -⟩
    · exact Nat.le_succ_of_le hle
    · exact Nat.le_of_eq heq

/-- What happens until a class was served and has been deleted, and its capability is about to be
deleted. -/
def deleting : List Action :=
  [.observe .storageClass (.restarted [sampleClass]), .observe .snapshotClass (.restarted []),
    .observe .provisionerCapability (.restarted [sampleProvisioner]), .start 1,
    .discovered (.ok "v1.29.3"), .turn 0, .land samplePass,
    .observe .storageClass (.deleted sampleClass), .turn 0]

/-- A run that creates a capability and is about to delete it is peaceful. -/
theorem peaceful_deleting : ∃ s,
    Run Action.SparesCapabilities (fresh {} none { capabilities := Cache.markSynced {} } {}) s ∧
    s.controller.passes = [⟨0, "fast", .deleteCapability "fast"⟩] ∧ s.landed.length = 1 ∧
    s.Peaceful := by
  have computed : ((fresh {} none { capabilities := Cache.markSynced {} } {}).follow deleting).map
      (fun s => (s.controller.passes, s.landed.length)) =
        some ([⟨0, "fast", .deleteCapability "fast"⟩], 1) := by
    decide +kernel
  obtain ⟨s, hfollow, hs⟩ := Option.map_eq_some_iff.mp computed
  obtain ⟨hpasses, hlanded⟩ := Prod.mk.inj hs
  have ok : ∀ a ∈ deleting, a.SparesCapabilities := by
    simp [deleting, Action.SparesCapabilities]
  have keyed : Caches.Keyed { capabilities := Cache.markSynced {} } :=
    ⟨Cache.keyed_empty, Cache.keyed_empty, Cache.keyed_empty, Cache.keyed_empty.markSynced⟩
  have run := run_of_follow ok hfollow
  exact ⟨s, run, hpasses, hlanded, peaceful_of_run keyed run⟩

end System

end StorageFeatures
