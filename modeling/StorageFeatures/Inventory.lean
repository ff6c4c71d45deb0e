import StorageFeatures.Object.Capability
import StorageFeatures.Object.StorageClass

/-!
# Inventory of a cluster

The storage classes of a cluster beside the capabilities that were derived for them. A capability
goes to the first class of its name; capabilities that no class has are orphaned.
-/

namespace StorageFeatures

open Resource (displayName)

namespace Inventory

/-- A capability in short. -/
structure Summary where
  topology : Bool
  expand : ExpandMode
  snapshot : Bool
  clone : Bool
  deriving DecidableEq, Repr

/-- A storage class and what was derived for it. -/
structure ClassEntry where
  name : String
  provisioner : String
  allowsExpansion : Bool
  /-- Whether the provisioner has published its capability. -/
  published : Bool
  capability : Option Summary
  deriving DecidableEq, Repr

structure ProvisionerEntry where
  name : String
  version : String
  deriving DecidableEq, Repr

end Inventory

structure Inventory where
  classes : List Inventory.ClassEntry := []
  provisioners : List Inventory.ProvisionerEntry := []
  /-- The names of the capabilities without a class. -/
  orphans : List String := []
  deriving DecidableEq, Repr

namespace Inventory

def Summary.ofCapability (c : ClassCapability) : Summary :=
  let f := c.spec.features
  ⟨f.topology, f.volume.expand, f.snapshot.create, f.volume.clone⟩

def ProvisionerEntry.ofCapability (p : ProvisionerCapability) : ProvisionerEntry :=
  ⟨displayName p, p.pluginVersion⟩

/-- The entry of a class with the capability that is left for its name. -/
def ClassEntry.ofClass (provisioners : List ProvisionerEntry) (capability : Option ClassCapability)
    (c : StorageClass) : ClassEntry where
  name := displayName c
  provisioner := c.provisioner
  allowsExpansion := c.allowsExpansion
  published := provisioners.any fun p => p.name = c.provisioner
  capability := capability.map .ofCapability

/-- Gives each class the capability of its name, if it is still there; answers also the
capabilities that are left. -/
def assign (provisioners : List ProvisionerEntry) (capabilities : NameMap ClassCapability) :
    List StorageClass → List ClassEntry × NameMap ClassCapability
  | [] => ([], capabilities)
  | c :: r =>
    let entry := ClassEntry.ofClass provisioners (capabilities.get? (displayName c)) c
    let (entries, left) := assign provisioners (capabilities.erase (displayName c)) r
    (entry :: entries, left)

/-- The inventory of listed objects. -/
def ofObjects (classes : List StorageClass) (provisioners : List ProvisionerCapability)
    (capabilities : List ClassCapability) : Inventory :=
  let provisioners :=
    (provisioners.map ProvisionerEntry.ofCapability).mergeSort fun a b => a.name ≤ b.name
  let (entries, left) := assign provisioners
    (.ofList (capabilities.map fun c => (displayName c, c))) classes
  { classes := entries.mergeSort fun a b => a.name ≤ b.name
    provisioners
    orphans := left.keys }

/-! ### Reports -/

def Summary.toJson (s : Summary) : Json := .object [
  ("topology", .bool s.topology), ("expand", s.expand.toJson), ("snapshot", .bool s.snapshot),
  ("clone", .bool s.clone)]

def ClassEntry.toJson (e : ClassEntry) : Json := .object [
  ("name", .string e.name), ("provisioner", .string e.provisioner),
  ("allowVolumeExpansion", .bool e.allowsExpansion),
  ("provisionerPublished", .bool e.published),
  ("capability", .ofOption Summary.toJson e.capability)]

def ProvisionerEntry.toJson (p : ProvisionerEntry) : Json := .object [
  ("name", .string p.name), ("version", .string p.version)]

def toJson (i : Inventory) : Json := .object [
  ("storageClasses", .array (i.classes.map ClassEntry.toJson)),
  ("provisioners", .array (i.provisioners.map ProvisionerEntry.toJson)),
  ("orphanedCapabilities", .strings i.orphans)]

/-- A cell of a table: at least so many characters wide, never cut. -/
def cell (width : Nat) (s : String) : String :=
  s ++ String.ofList (List.replicate (width - s.length) ' ')

/-- A row of a table, each cell with its width. -/
def row (cells : List (Nat × String)) : String :=
  " ".intercalate (cells.map fun (width, s) => cell width s) ++ "\n"

def flag (b : Bool) : String := if b then "true" else "false"

/-- The widths of the columns of classes. -/
def classWidths : List Nat := [24, 32, 7, 9, 8, 8, 6]

def ClassEntry.row (e : ClassEntry) : String :=
  let start := [e.name, e.provisioner, flag e.allowsExpansion]
  match e.capability with
  | some c =>
    Inventory.row (classWidths.zip
      (start ++ [flag c.topology, c.expand.name, flag c.snapshot, flag c.clone]))
  | none =>
    Inventory.row (classWidths.zip start ++
      [(0, if e.published then "<pending>" else "<no provisioner capability>")])

/-- The widths of the columns of provisioners. -/
def provisionerWidths : List Nat := [32, 16]

/-- The inventory as tables. -/
def table (i : Inventory) : String :=
  row (classWidths.zip
    ["STORAGECLASS", "PROVISIONER", "EXPAND", "TOPOLOGY", "MODE", "SNAPSHOT", "CLONE"]) ++
  String.join (i.classes.map ClassEntry.row) ++ "\n" ++
  row (provisionerWidths.zip ["PROVISIONER", "VERSION"]) ++
  String.join (i.provisioners.map fun p => row (provisionerWidths.zip [p.name, p.version])) ++
  (if i.orphans.isEmpty then ""
    else "\nOrphaned StorageClassCapabilities: " ++ ", ".intercalate i.orphans ++ "\n")

end Inventory

end StorageFeatures
