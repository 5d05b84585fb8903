import ScanPlanner.Locator
import ScanPlanner.Offline

/-!
# Backends

The collaborators that planning asks for locations: a locator for online tables, and the assignment
of ranges of offline tables, both over one catalog.
-/

namespace ScanPlanner

/-- What planning asks for locations. -/
structure Backend (ω : Type) where
  kind : BackendKind
  locator : Locator ω
  /-- Assigns ranges of an offline table, or gives none while its metadata is not consistent. -/
  binOffline : TableId → List KeyRange → Effect ω (Option Binning)

namespace Backend

variable {ω Ω : Type}

/-- The backend over a catalog. Only the locator remembers tablets. -/
def ofCatalog (kind : BackendKind) (c : Catalog ω) : Backend (Cached ω) where
  kind := kind
  locator := Locator.cached c
  binOffline id ranges := Locator.behind (Offline.bin c id ranges)

/-- The backend as a part of a larger world. -/
def within (b : Backend ω) (part : Ω → ω) (replace : Ω → ω → Ω) : Backend Ω where
  kind := b.kind
  locator := {
    tableId := fun name => (b.locator.tableId name).within part replace
    resolve := fun id ranges => (b.locator.resolve id ranges).within part replace
    invalidate := fun id => (b.locator.invalidate id).within part replace
    tableExists := fun id => (b.locator.tableExists id).within part replace
    tableState := fun id => (b.locator.tableState id).within part replace }
  binOffline id ranges := (b.binOffline id ranges).within part replace

end Backend

end ScanPlanner
