import StorageFeatures.Fault
import StorageFeatures.NameMap

/-!
# Messages of a storage plugin

The answers to the four calls by which a plugin describes itself, and the numbers with which its
capabilities are listed. A number that is not known stays in the message. Whoever answers the four
calls is a `Client`.
-/

namespace StorageFeatures.Csi

/-- The calls, in the order in which they are made. -/
inductive Method where
  | pluginInfo
  | pluginCapabilities
  | controllerCapabilities
  | nodeCapabilities
  deriving DecidableEq, Repr

/-- Who a plugin is. -/
structure PluginIdentity where
  name : String := ""
  vendorVersion : String := ""
  manifest : NameMap String := ∅
  deriving DecidableEq

/-- A capability of the plugin as a whole. -/
inductive PluginEntry where
  | service (number : Int32)
  | expansion (number : Int32)
  deriving DecidableEq, Repr

/-- Capabilities of the plugin; an entry may say nothing. -/
abbrev PluginEntries := List (Option PluginEntry)

/-- Calls that the controller or the node side of a plugin offers; an entry may say nothing. -/
abbrev RpcEntries := List (Option Int32)

namespace Method

def all : List Method :=
  [pluginInfo, pluginCapabilities, controllerCapabilities, nodeCapabilities]

def name : Method → String
  | pluginInfo => "GetPluginInfo"
  | pluginCapabilities => "GetPluginCapabilities"
  | controllerCapabilities => "ControllerGetCapabilities"
  | nodeCapabilities => "NodeGetCapabilities"

/-- The service that offers the call. -/
def service : Method → String
  | pluginInfo | pluginCapabilities => "Identity"
  | controllerCapabilities => "Controller"
  | nodeCapabilities => "Node"

/-- The path of the call. -/
def path (m : Method) : String := "/csi.v1." ++ m.service ++ "/" ++ m.name

end Method

/-- Calls of the controller side that this library knows. -/
inductive ControllerRpc where
  | unknown
  | createDeleteVolume
  | publishUnpublishVolume
  | listVolumes
  | getCapacity
  | createDeleteSnapshot
  | listSnapshots
  | cloneVolume
  | publishReadonly
  | expandVolume
  | listVolumesPublishedNodes
  | volumeCondition
  | getVolume
  | singleNodeMultiWriter
  | modifyVolume
  deriving DecidableEq, Repr

/-- Calls of the node side that this library knows. -/
inductive NodeRpc where
  | unknown
  | stageUnstageVolume
  | getVolumeStats
  | expandVolume
  | volumeCondition
  | singleNodeMultiWriter
  | volumeMountGroup
  deriving DecidableEq, Repr

namespace ControllerRpc

/-- The known calls in the order of their numbers, from zero. -/
def all : List ControllerRpc :=
  [unknown, createDeleteVolume, publishUnpublishVolume, listVolumes, getCapacity,
   createDeleteSnapshot, listSnapshots, cloneVolume, publishReadonly, expandVolume,
   listVolumesPublishedNodes, volumeCondition, getVolume, singleNodeMultiWriter, modifyVolume]

/-- The number of a call. -/
def number : ControllerRpc → Int32
  | unknown => 0
  | createDeleteVolume => 1
  | publishUnpublishVolume => 2
  | listVolumes => 3
  | getCapacity => 4
  | createDeleteSnapshot => 5
  | listSnapshots => 6
  | cloneVolume => 7
  | publishReadonly => 8
  | expandVolume => 9
  | listVolumesPublishedNodes => 10
  | volumeCondition => 11
  | getVolume => 12
  | singleNodeMultiWriter => 13
  | modifyVolume => 14

/-- The call with a number. -/
def ofNumber? (n : Int32) : Option ControllerRpc := all.find? fun r => r.number = n

theorem ofNumber?_eq_some_iff {n : Int32} {r : ControllerRpc} :
    ofNumber? n = some r ↔ r.number = n := by
  constructor
  · intro h
    simpa using List.find?_some h
  · rintro rfl
    cases r <;> rfl

end ControllerRpc

namespace NodeRpc

/-- The known calls in the order of their numbers, from zero. -/
def all : List NodeRpc :=
  [unknown, stageUnstageVolume, getVolumeStats, expandVolume, volumeCondition,
   singleNodeMultiWriter, volumeMountGroup]

/-- The number of a call. -/
def number : NodeRpc → Int32
  | unknown => 0
  | stageUnstageVolume => 1
  | getVolumeStats => 2
  | expandVolume => 3
  | volumeCondition => 4
  | singleNodeMultiWriter => 5
  | volumeMountGroup => 6

/-- The call with a number. -/
def ofNumber? (n : Int32) : Option NodeRpc := all.find? fun r => r.number = n

theorem ofNumber?_eq_some_iff {n : Int32} {r : NodeRpc} :
    ofNumber? n = some r ↔ r.number = n := by
  constructor
  · intro h
    simpa using List.find?_some h
  · rintro rfl
    cases r <;> rfl

end NodeRpc

/-- The number of the service that constrains where volumes are reachable. -/
def accessibilityConstraints : Int32 := 2

/-- The number of expansion while a volume is in use. -/
def onlineExpansion : Int32 := 1

/-- The number of expansion of a volume that is not in use. -/
def offlineExpansion : Int32 := 2

/-! ### Asking a plugin -/

/-- What a call answers. -/
abbrev Method.Answer : Method → Type
  | .pluginInfo => PluginIdentity
  | .pluginCapabilities => PluginEntries
  | .controllerCapabilities | .nodeCapabilities => RpcEntries

/-- Whoever answers the calls. -/
abbrev Client := (m : Method) → Except Fault m.Answer

/-- Answers to all calls. -/
structure Answers where
  identity : PluginIdentity := {}
  plugin : PluginEntries := []
  controller : RpcEntries := []
  node : RpcEntries := []

/-- The answer to one call. -/
def Answers.get (a : Answers) : (m : Method) → m.Answer
  | .pluginInfo => a.identity
  | .pluginCapabilities => a.plugin
  | .controllerCapabilities => a.controller
  | .nodeCapabilities => a.node

end StorageFeatures.Csi
