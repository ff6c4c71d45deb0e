import StorageFeatures.Csi.Features
import StorageFeatures.Proofs.Feature.Flags

/-!
# What a plugin's entries say

Every flag comes from one number in one of the three lists (`Flag.source`); the numbers of the three
lists overlap, so the list matters as much as the number. `Csi.Extraction` says that a flag is
advertised exactly if its number occurs there, and that the last entry on expansion decides the
mode.

Nothing else counts: feature sets agree as soon as the sources occur alike and the entries on
expansion are the same in the same order (`Csi.featureSet_congr`). All that is said about the order
of entries, about entries that are repeated, added or left out follows from that.
-/

namespace StorageFeatures

/-- What a flag comes from: a number in one of the lists. -/
inductive Source where
  | service (number : Int32)
  | controller (number : Int32)
  | node (number : Int32)
  deriving DecidableEq

/-- Where the interface of plugins says that a flag comes from. -/
def Flag.source : Flag → Source
  | topology => .service 2
  | createVolume => .controller 1
  | attachVolume => .controller 2
  | listVolumes => .controller 3
  | cloneVolume => .controller 7
  | volumeStats => .node 2
  | createSnapshot => .controller 5
  | listSnapshots => .controller 6

namespace Csi

/-- Whether a number occurs in its list. -/
def Occurs (plugin : PluginEntries) (controller node : RpcEntries) : Source → Prop
  | .service n => some (.service n) ∈ plugin
  | .controller n => some n ∈ controller
  | .node n => some n ∈ node

/-- The number of an entry on expansion. -/
def expansionNumber? : Option PluginEntry → Option Int32
  | some (.expansion n) => some n
  | some (.service _) | none => none

/-- The numbers of the entries on expansion, in order. -/
def expansions (plugin : PluginEntries) : List Int32 := plugin.filterMap expansionNumber?

/-- What is known of topology and expansion after one more entry. -/
def scan (known : Bool × ExpandMode) : Option PluginEntry → Bool × ExpandMode
  | some (.service n) => (known.1 || n = accessibilityConstraints, known.2)
  | some (.expansion n) => (known.1, expandMode n)
  | none => known

/-! ### What counts -/

section Entries

variable {plugin plugin' : PluginEntries} {controller controller' node node' : RpcEntries}

/-- Every flag is set where the number it comes from occurs, and nowhere else. -/
theorem has_featureSet_iff (flag : Flag) : (featureSet plugin controller node).has flag = true ↔
    Occurs plugin controller node flag.source := by
  cases flag with
  | topology =>
    refine List.any_eq_true.trans ⟨?_, fun h => ⟨_, h, decide_eq_true rfl⟩⟩
    rintro ⟨e, he, h⟩
    obtain rfl := of_decide_eq_true h
    exact he
  | volumeStats => exact decide_eq_true_iff.trans mem_nodeRpcs_iff
  | createVolume | attachVolume | listVolumes | cloneVolume | createSnapshot | listSnapshots =>
    exact decide_eq_true_iff.trans mem_controllerRpcs_iff

theorem expansions_append (front back : PluginEntries) :
    expansions (front ++ back) = expansions front ++ expansions back :=
  List.filterMap_append

theorem expansions_cons (n : Int32) (back : PluginEntries) :
    expansions (some (.expansion n) :: back) = n :: expansions back :=
  rfl

theorem expansions_eq_nil_iff : expansions plugin = [] ↔ ∀ m, some (.expansion m) ∉ plugin := by
  rw [expansions, List.filterMap_eq_nil_iff]
  constructor
  · intro h m hm
    cases h _ hm
  · intro h e he
    rcases e with _ | _ | n
    · rfl
    · rfl
    · exact absurd he (h n)

/-- The last entry about expansion decides. -/
theorem expansionMode_eq :
    expansionMode plugin = ((expansions plugin).getLast?.map expandMode).getD .unknown := by
  have hsame (e : Option PluginEntry) :
      e.bind PluginEntry.expansion? = (expansionNumber? e).map expandMode := by
    rcases e with _ | _ | _ <;> rfl
  rw [expansionMode, funext hsame, ← List.map_filterMap, List.getLast?_map, expansions]

/-- **Nothing else counts.** -/
theorem featureSet_congr
    (occurs : ∀ flag : Flag, Occurs plugin controller node flag.source ↔
      Occurs plugin' controller' node' flag.source)
    (same : expansions plugin = expansions plugin') :
    featureSet plugin controller node = featureSet plugin' controller' node' := by
  refine FeatureSet.ext_has (fun flag => ?_) ?_
  · rw [Bool.eq_iff_iff, has_featureSet_iff, has_featureSet_iff, occurs]
  · show expansionMode plugin = expansionMode plugin'
    rw [expansionMode_eq, expansionMode_eq, same]

/-- Reading entry by entry comes to the same. -/
theorem foldl_scan (plugin : PluginEntries) (known : Bool × ExpandMode) :
    plugin.foldl scan known = (known.1 || hasTopology plugin,
      ((expansions plugin).getLast?.map expandMode).getD known.2) := by
  induction plugin generalizing known with
  | nil => simp [hasTopology, expansions]
  | cons e plugin ih =>
    rw [List.foldl_cons, ih]
    rcases e with _ | n | n
    · simp [scan, hasTopology, expansions, expansionNumber?]
    · simp [scan, hasTopology, expansions, expansionNumber?, Bool.or_assoc]
    · have htopology : hasTopology (some (.expansion n) :: plugin) = hasTopology plugin := rfl
      rw [expansions_cons, htopology, List.getLast?_cons, Option.map_some, Option.getD_some, scan,
        Option.getD_map]

/-- An entry that says nothing may stand anywhere. -/
theorem expansions_insert {e : Option PluginEntry} (h : expansionNumber? e = none)
    (front back : PluginEntries) :
    expansions (front ++ e :: back) = expansions (front ++ back) := by
  rw [expansions, expansions, List.filterMap_append, List.filterMap_append,
    List.filterMap_cons_none h]

/-- Any other element than the inserted one is found where it was found before. -/
theorem mem_insert_iff {α : Type} {a e : α} (h : a ≠ e) (front back : List α) :
    a ∈ front ++ e :: back ↔ a ∈ front ++ back := by
  simp [h]

/-- The features are those of the numbers that occur. -/
theorem featureSet_congr_calls
    (hcontroller : ∀ n, (∃ flag : Flag, flag.source = .controller n) →
      (some n ∈ controller ↔ some n ∈ controller'))
    (hnode : ∀ n, (∃ flag : Flag, flag.source = .node n) → (some n ∈ node ↔ some n ∈ node')) :
    featureSet plugin controller node = featureSet plugin controller' node' := by
  refine featureSet_congr (fun flag => ?_) rfl
  cases hsource : flag.source with
  | service => rfl
  | controller n => exact hcontroller n ⟨flag, hsource⟩
  | node n => exact hnode n ⟨flag, hsource⟩

/-! ### What is extracted -/

/-- What the entries of a plugin come to. -/
structure Extraction (plugin : PluginEntries) (controller node : RpcEntries) : Prop where
  /-- A flag is advertised exactly if an entry carries its number. -/
  exact_flag : ∀ flag : Flag, (featureSet plugin controller node).has flag = true ↔
    Occurs plugin controller node flag.source
  /-- The last entry on expansion decides the mode. -/
  last_expansion : ∀ front n back, plugin = front ++ some (.expansion n) :: back →
    (∀ m, some (.expansion m) ∉ back) →
    (featureSet plugin controller node).volume.expand =
      if n = 1 then .online else if n = 2 then .offline else .unknown
  no_expansion : (∀ m, some (.expansion m) ∉ plugin) →
    (featureSet plugin controller node).volume.expand = .unknown
  /-- Topology and mode are what is known after one pass over the entries. -/
  one_pass : plugin.foldl scan (false, .unknown) =
    ((featureSet plugin controller node).topology,
      (featureSet plugin controller node).volume.expand)
  /-- Neither the order nor the repetition of calls counts. -/
  calls_congr : ∀ controller' node' : RpcEntries, (∀ e, e ∈ controller' ↔ e ∈ controller) →
    (∀ e, e ∈ node' ↔ e ∈ node) →
    featureSet plugin controller' node' = featureSet plugin controller node
  /-- Of the other entries only those on expansion have to stay in order. -/
  plugin_perm : ∀ plugin' : PluginEntries, plugin'.Perm plugin →
    expansions plugin' = expansions plugin →
    featureSet plugin' controller node = featureSet plugin controller node
  /-- An entry counts for nothing if it says nothing, or if no flag comes from its number. -/
  plugin_inert : ∀ front e back, plugin = front ++ back →
    (e = none ∨ ∃ n, e = some (.service n) ∧ ∀ flag : Flag, flag.source ≠ .service n) →
    featureSet (front ++ e :: back) controller node = featureSet plugin controller node
  controller_inert : ∀ front e back, controller = front ++ back →
    (∀ n ∈ e, ∀ flag : Flag, flag.source ≠ .controller n) →
    featureSet plugin (front ++ e :: back) node = featureSet plugin controller node
  node_inert : ∀ front e back, node = front ++ back →
    (∀ n ∈ e, ∀ flag : Flag, flag.source ≠ .node n) →
    featureSet plugin controller (front ++ e :: back) = featureSet plugin controller node
  /-- No flag comes from a number that is not known. -/
  unknown_service : ∀ (n : Int32) (flag : Flag), n ∉ [0, 1, 2, 3] → flag.source ≠ .service n
  unknown_controller : ∀ (n : Int32) (flag : Flag), ControllerRpc.ofNumber? n = none →
    flag.source ≠ .controller n
  unknown_node : ∀ (n : Int32) (flag : Flag), NodeRpc.ofNumber? n = none → flag.source ≠ .node n
  /-- More calls never turn a flag off. -/
  more_calls : ∀ (flag : Flag) (controller' node' : RpcEntries),
    (featureSet plugin controller node).has flag = true →
    (featureSet plugin (controller ++ controller') (node ++ node')).has flag = true

/-- No flag comes from a number without a meaning. -/
theorem source_ne_controller (n : Int32) (flag : Flag)
    (unknown : ControllerRpc.ofNumber? n = none) : flag.source ≠ .controller n := by
  intro h
  have known (rpc : ControllerRpc) (hnumber : rpc.number = n) : False := by
    cases unknown.symm.trans (ControllerRpc.ofNumber?_eq_some_iff.mpr hnumber)
  cases flag with
  | topology | volumeStats => cases h
  | createVolume => exact known .createDeleteVolume (Source.controller.inj h)
  | attachVolume => exact known .publishUnpublishVolume (Source.controller.inj h)
  | listVolumes => exact known .listVolumes (Source.controller.inj h)
  | cloneVolume => exact known .cloneVolume (Source.controller.inj h)
  | createSnapshot => exact known .createDeleteSnapshot (Source.controller.inj h)
  | listSnapshots => exact known .listSnapshots (Source.controller.inj h)

/-- **Extraction is exact**, and insensitive to everything else: to the order and the repetition of
calls, to entries that say nothing, and to numbers without a meaning. -/
theorem extraction_of_entries (plugin : PluginEntries) (controller node : RpcEntries) :
    Extraction plugin controller node where
  exact_flag := has_featureSet_iff
  last_expansion front n back h hback := by
    show expansionMode plugin = _
    have hlast : expansions plugin = expansions front ++ [n] := by
      rw [h, expansions_append, expansions_cons, expansions_eq_nil_iff.mpr hback]
    rw [expansionMode_eq, hlast, List.getLast?_concat]
    rfl
  no_expansion h := by
    show expansionMode plugin = _
    rw [expansionMode_eq, expansions_eq_nil_iff.mpr h]
    rfl
  one_pass := by
    rw [foldl_scan, ← expansionMode_eq, Bool.false_or]
    rfl
  calls_congr controller' node' hcontroller hnode :=
    featureSet_congr_calls (fun n _ => hcontroller (some n)) fun n _ => hnode (some n)
  plugin_perm plugin' perm same := by
    refine featureSet_congr (fun flag => ?_) same
    cases flag.source with
    | service n => exact perm.mem_iff
    | controller | node => rfl
  plugin_inert front e back hplugin inert := by
    subst hplugin
    have hnumber : expansionNumber? e = none := by
      rcases inert with rfl | ⟨n, rfl, -⟩ <;> rfl
    refine featureSet_congr (fun flag => ?_) (expansions_insert hnumber front back)
    cases hsource : flag.source with
    | controller | node => rfl
    | service n =>
      refine mem_insert_iff ?_ front back
      rcases inert with rfl | ⟨m, rfl, hm⟩
      · exact Option.some_ne_none _
      · rintro ⟨⟩
        exact hm flag hsource
  controller_inert front e back hcontroller inert := by
    subst hcontroller
    refine featureSet_congr_calls (fun n ⟨flag, hsource⟩ => ?_) fun _ _ => Iff.rfl
    exact mem_insert_iff (fun h => inert n h.symm flag hsource) front back
  node_inert front e back hnode inert := by
    subst hnode
    refine featureSet_congr_calls (fun _ _ => Iff.rfl) fun n ⟨flag, hsource⟩ => ?_
    exact mem_insert_iff (fun h => inert n h.symm flag hsource) front back
  unknown_service n flag unknown h := by
    cases flag with
    | topology =>
      obtain rfl := Source.service.inj h
      exact unknown (by decide)
    | _ => cases h
  unknown_controller := source_ne_controller
  unknown_node n flag unknown h := by
    cases flag with
    | volumeStats =>
      have hknown := NodeRpc.ofNumber?_eq_some_iff (r := .getVolumeStats).mpr (Source.node.inj h)
      cases unknown.symm.trans hknown
    | _ => cases h
  more_calls flag controller' node' h := by
    rw [has_featureSet_iff] at h ⊢
    cases hsource : flag.source with
    | service n =>
      rw [hsource] at h
      exact h
    | controller n =>
      rw [hsource] at h
      exact List.mem_append_left controller' h
    | node n =>
      rw [hsource] at h
      exact List.mem_append_left node' h

end Entries

end Csi

end StorageFeatures
