import ScanPlanner.Failure

/-!
# Caches of limited size

A cache that drops the entry used least recently once it is full. The entries are a list, the one
used last in front; finding a key uses it, and so does inserting it. A cache without room for one
entry can be asked, but nothing can be put into it.
-/

namespace ScanPlanner

/-- A cache of at most `capacity` entries. -/
structure Lru (κ ν : Type) where
  capacity : Int
  /-- The entries, the one used last in front. -/
  entries : List (κ × ν)

namespace Lru

variable {κ ν : Type} [BEq κ]

/-- A cache without entries. -/
def empty (capacity : Int) : Lru κ ν := ⟨capacity, []⟩

/-- The value of a key, and the cache in which the key is the one used last. -/
def find? (c : Lru κ ν) (key : κ) : Option (ν × Lru κ ν) :=
  (Ledger.get? c.entries key).map fun value =>
    (value, { c with entries := (key, value) :: Ledger.erase c.entries key })

/-- Puts a value in, as the one used last, in the place of the key's present value or, if the cache
is full, of the value used least recently. -/
def insert (c : Lru κ ν) (key : κ) (value : ν) : Result (Lru κ ν) :=
  if c.capacity < 1 then .error (.invalid .noRoom)
  else
    .ok { c with
      entries := (key, value) :: (Ledger.erase c.entries key).take (c.capacity.toNat - 1) }

/-- Drops a key. -/
def erase (c : Lru κ ν) (key : κ) : Lru κ ν := { c with entries := Ledger.erase c.entries key }

end Lru

end ScanPlanner
