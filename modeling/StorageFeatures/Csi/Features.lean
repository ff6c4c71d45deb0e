import StorageFeatures.Csi.Message
import StorageFeatures.Feature.Basic

/-!
# Features from a plugin's answers

What the three lists of capabilities say about a plugin: a flag holds if some entry carries its
number, and the last entry on expansion decides the mode. Entries that say nothing and numbers
that are not known count for nothing, except that an unknown number for expansion is an unknown
mode.
-/

namespace StorageFeatures.Csi

/-- The expansion mode that a number stands for. -/
def expandMode (n : Int32) : ExpandMode :=
  if n = onlineExpansion then .online
  else if n = offlineExpansion then .offline
  else .unknown

/-- What an entry on expansion says. -/
def PluginEntry.expansion? : PluginEntry → Option ExpandMode
  | .expansion n => some (expandMode n)
  | .service _ => none

/-- Whether topology constrains where volumes are reachable. -/
def hasTopology (plugin : PluginEntries) : Bool :=
  plugin.any fun e => e = some (.service accessibilityConstraints)

/-- The mode of the last entry on expansion. -/
def expansionMode (plugin : PluginEntries) : ExpandMode :=
  (plugin.filterMap fun e => e.bind PluginEntry.expansion?).getLast?.getD .unknown

/-- The calls of the controller side that are known. -/
def controllerRpcs (entries : RpcEntries) : List ControllerRpc :=
  entries.filterMap fun e => e.bind ControllerRpc.ofNumber?

/-- The calls of the node side that are known. -/
def nodeRpcs (entries : RpcEntries) : List NodeRpc :=
  entries.filterMap fun e => e.bind NodeRpc.ofNumber?

/-- The features that the three answers add up to. -/
def featureSet (plugin : PluginEntries) (controller node : RpcEntries) : FeatureSet :=
  let offers (r : ControllerRpc) : Bool := r ∈ controllerRpcs controller
  { topology := hasTopology plugin
    volume :=
      { create := offers .createDeleteVolume
        attach := offers .publishUnpublishVolume
        list := offers .listVolumes
        clone := offers .cloneVolume
        stats := .getVolumeStats ∈ nodeRpcs node
        expand := expansionMode plugin }
    snapshot :=
      { create := offers .createDeleteSnapshot
        list := offers .listSnapshots } }

/-- A controller capability is listed where its number is; numbers without a meaning are passed
over. -/
theorem mem_controllerRpcs_iff {entries : RpcEntries} {r : ControllerRpc} :
    r ∈ controllerRpcs entries ↔ some r.number ∈ entries := by
  simp only [controllerRpcs, List.mem_filterMap, Option.bind_eq_some_iff,
    ControllerRpc.ofNumber?_eq_some_iff]
  constructor
  · rintro ⟨_, h, n, rfl, rfl⟩
    exact h
  · intro h
    exact ⟨_, h, _, rfl, rfl⟩

theorem mem_nodeRpcs_iff {entries : RpcEntries} {r : NodeRpc} :
    r ∈ nodeRpcs entries ↔ some r.number ∈ entries := by
  simp only [nodeRpcs, List.mem_filterMap, Option.bind_eq_some_iff, NodeRpc.ofNumber?_eq_some_iff]
  constructor
  · rintro ⟨_, h, n, rfl, rfl⟩
    exact h
  · intro h
    exact ⟨_, h, _, rfl, rfl⟩

end StorageFeatures.Csi
