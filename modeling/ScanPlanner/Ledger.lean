/-!
# Ledgers

A finite map that remembers the order in which its keys first came: a list of pairs. `put` replaces
the value of a key where it stands, or appends the pair; `erase` removes it. Keys are compared by
`==`, and of several keys that are equal the one that came first is kept.
-/

namespace ScanPlanner

/-- Pairs of keys and values, in the order in which the keys came. -/
abbrev Ledger (κ ν : Type) := List (κ × ν)

namespace Ledger

variable {κ ν : Type} [BEq κ]

/-- The value of a key. -/
def get? (entries : Ledger κ ν) (key : κ) : Option ν :=
  match entries with
  | [] => none
  | (k, v) :: rest => if k == key then some v else get? rest key

/-- The value of a key becomes what `f` makes of the present one; a new key comes last. -/
def alter (entries : Ledger κ ν) (key : κ) (f : Option ν → ν) : Ledger κ ν :=
  match entries with
  | [] => [(key, f none)]
  | (k, v) :: rest => if k == key then (k, f (some v)) :: rest else (k, v) :: alter rest key f

/-- Writes the value of a key. -/
def put (entries : Ledger κ ν) (key : κ) (value : ν) : Ledger κ ν :=
  entries.alter key fun _ => value

/-- Removes a key. -/
def erase (entries : Ledger κ ν) (key : κ) : Ledger κ ν :=
  match entries with
  | [] => []
  | (k, v) :: rest => if k == key then rest else (k, v) :: erase rest key

/-- The pairs in order, where a repeated key keeps its first place and its last value. -/
def ofPairs (pairs : List (κ × ν)) : Ledger κ ν :=
  pairs.foldl (fun entries p => put entries p.1 p.2) []

/-- The keys in order. -/
def keys (entries : Ledger κ ν) : List κ := entries.map Prod.fst

@[simp] theorem get?_nil (key : κ) : get? ([] : Ledger κ ν) key = none := rfl

/-- An altered ledger has what was made of the value for the key, and what it had for all others.
The key may be any of those that are equal, as the entry is found by `==`. -/
theorem get?_alter [EquivBEq κ] (entries : Ledger κ ν) (key other : κ) (f : Option ν → ν) :
    get? (entries.alter key f) other =
      if key == other then some (f (get? entries key)) else get? entries other := by
  induction entries with
  | nil => by_cases h : key == other <;> simp [alter, get?, h]
  | cons entry rest ih =>
    obtain ⟨k, v⟩ := entry
    by_cases hk : k == key
    · have same : (k == other) = (key == other) := BEq.congr_left hk
      by_cases h : key == other <;> simp [alter, get?, hk, h, same]
    · by_cases h : key == other
      · have same : (k == other) = (k == key) := BEq.congr_right (BEq.symm h)
        simp [alter, get?, hk, h, ih, same]
      · simp [alter, get?, hk, h, ih]

/-- What was written is found, and all other keys have what they had. -/
theorem get?_put [EquivBEq κ] (entries : Ledger κ ν) (key other : κ) (value : ν) :
    get? (entries.put key value) other =
      if key == other then some value else get? entries other :=
  get?_alter entries key other _

@[simp] theorem get?_put_self [EquivBEq κ] (entries : Ledger κ ν) (key : κ) (value : ν) :
    get? (entries.put key value) key = some value := by
  simp [get?_put]

theorem get?_put_of_ne [EquivBEq κ] (entries : Ledger κ ν) {key other : κ} (value : ν)
    (h : (key == other) = false) : get? (entries.put key value) other = get? entries other := by
  simp [get?_put, h]

/-- Erasing a key changes nothing about the other ones. Only the first entry with the key is taken
away, and none with another key. -/
theorem get?_erase_of_ne [EquivBEq κ] (entries : Ledger κ ν) {key other : κ}
    (h : (key == other) = false) : get? (entries.erase key) other = get? entries other := by
  induction entries with
  | nil => rfl
  | cons entry rest ih =>
    obtain ⟨k, v⟩ := entry
    by_cases hk : k == key
    · have same : (k == other) = (key == other) := BEq.congr_left hk
      simp [erase, get?, hk, same, h]
    · by_cases ho : k == other <;> simp [erase, get?, hk, ho, ih]

end Ledger

end ScanPlanner
