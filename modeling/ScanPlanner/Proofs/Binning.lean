import Mathlib.Data.List.Induction
import Mathlib.Data.List.Perm.Basic
import ScanPlanner.Binning
import ScanPlanner.Proofs.Ledger
import ScanPlanner.Proofs.Outcome
import ScanPlanner.Proofs.Sorting

/-!
# What a binning holds

A binning is made by adding ranges to it one by one, each assigned to an extent on a node
(`Assignment`). Nothing is lost, added or repeated on the way: what the binning holds is, up to
order and up to values that mean the same, what was added (`Binning.perm_ofAssignments`), the bins
that it is walked by hold just that (`Binning.perm_items`), and each extent on each node has the
ranges that were added there, in that order (`Binning.ranges_ofAssignments`). -/

namespace ScanPlanner

/-- If the results of each item hold what is said of the item, so do the results of all of them
together. -/
private theorem perm_flatMap_flatten {α β γ : Type} {f : α → Result (List β)} {g : β → List γ}
    {d : α → List γ} {xs : List α} {yss : List (List β)}
    (h : List.Forall₂ (fun x ys => f x = .ok ys) xs yss)
    (each : ∀ x ys, f x = .ok ys → (ys.flatMap g).Perm (d x)) :
    (yss.flatten.flatMap g).Perm (xs.flatMap d) := by
  induction h with
  | nil => exact List.Perm.refl _
  | cons hx _ ih =>
    rw [List.flatten_cons, List.flatMap_append, List.flatMap_cons]
    exact (each _ _ hx).append ih

/-! ## Assignments -/

/-- A range, assigned to an extent on a node. -/
structure Assignment where
  location : Address
  extent : Extent
  range : KeyRange

namespace Assignment

/-- The function does not tell addresses or extents apart that are equal. A binning looks its nodes
and extents up by equality, so that only such functions of its assignments mean something. -/
def Respects {γ : Type} (g : Assignment → γ) : Prop :=
  ∀ a b : Assignment, (a.location == b.location) = true → (a.extent == b.extent) = true →
    a.range = b.range → g a = g b

end Assignment

/-- The assignments that a bin stands for. -/
def Bin.assignments (bin : Bin) : List Assignment :=
  bin.ranges.map fun r => ⟨bin.location, bin.extent, r⟩

namespace Binning

variable {γ : Type}

/-- The assignments of one node. -/
def assignmentsAt (location : Address) (extents : Ledger Extent (List KeyRange)) :
    List Assignment :=
  extents.flatMap fun e => e.2.map fun r => ⟨location, e.1, r⟩

/-- What the binning holds, in the order in which the nodes and extents came. -/
def assignments (b : Binning) : List Assignment :=
  b.bins.flatMap fun e => assignmentsAt e.1 e.2

/-- No node and no extent on a node has two entries. Every binning that is built by adding
assignments is such a one. -/
structure WellFormed (b : Binning) : Prop where
  nodes : b.bins.Distinct
  extents : ∀ e ∈ b.bins, e.2.Distinct

/-- The binning with more assignments, added one by one. It is the loop that fills a binning,
without the failures of the keys. -/
def addAll (b : Binning) (as : List Assignment) : Binning :=
  as.foldl (fun b a => b.add a.location a.extent a.range) b

/-- The binning with these assignments and no others. -/
def ofAssignments (as : List Assignment) : Binning := empty.addAll as

@[simp] theorem addAll_nil (b : Binning) : b.addAll [] = b := rfl

theorem addAll_append (b : Binning) (as as' : List Assignment) :
    b.addAll (as ++ as') = (b.addAll as).addAll as' :=
  List.foldl_append

theorem ofAssignments_append (as : List Assignment) (a : Assignment) :
    ofAssignments (as ++ [a]) = (ofAssignments as).add a.location a.extent a.range :=
  addAll_append empty as [a]

/-! ## Adding -/

/-- Adding an assignment gives neither a node nor an extent a second entry, since an entry that is
there already is altered in its place. -/
theorem wellFormed_add {b : Binning} (h : b.WellFormed) (location : Address) (extent : Extent)
    (range : KeyRange) : (b.add location extent range).WellFormed where
  nodes := Ledger.distinct_alter h.nodes _ _
  extents := by
    intro e he
    -- an entry stays as it was, or is that of a node that is new, or that of the node with one
    -- range more
    rcases Ledger.mem_alter he with he | rfl | ⟨v, -, hv, he⟩
    · exact h.extents e he
    · exact Ledger.distinct_alter (κ := Extent) Ledger.distinct_nil extent fun rs =>
        rs.getD [] ++ [range]
    · rw [he]
      exact Ledger.distinct_alter (h.extents _ hv) _ _

/-- However a binning was made from assignments, no node and no extent has two entries. -/
theorem wellFormed_ofAssignments (as : List Assignment) : (ofAssignments as).WellFormed := by
  induction as using List.reverseRecOn with
  | nil => exact ⟨Ledger.distinct_nil, by simp [ofAssignments, empty]⟩
  | append_singleton as a ih =>
    rw [ofAssignments_append]
    exact wellFormed_add ih _ _ _

/-- One range more for an extent on a node is one assignment more of that node. The assignments are
compared through a function that does not tell equal nodes or equal extents apart, because the
binning keeps the ones that came first. -/
theorem perm_assignmentsAt_alter {g : Assignment → γ} (hg : Assignment.Respects g)
    (a : Assignment) {location : Address} (hl : (location == a.location) = true)
    (extents : Ledger Extent (List KeyRange)) :
    ((assignmentsAt location (extents.alter a.extent fun rs => rs.getD [] ++ [a.range])).map
      g).Perm ((assignmentsAt location extents).map g ++ [g a]) := by
  unfold assignmentsAt
  rw [List.map_flatMap, List.map_flatMap]
  have same (e : Extent) (he : (e == a.extent) = true) : g ⟨location, e, a.range⟩ = g a :=
    hg _ _ hl he rfl
  refine Ledger.perm_flatMap_alter _ _ _ _ ?_ ?_ extents
  · simp [same a.extent BEq.rfl]
  · intro e rs he
    simp [same e he]

/-- Adding an assignment adds it and changes nothing else, up to order and up to equal addresses and
extents. -/
theorem perm_assignments_add {g : Assignment → γ} (hg : Assignment.Respects g) (b : Binning)
    (a : Assignment) :
    ((b.add a.location a.extent a.range).assignments.map g).Perm
      (b.assignments.map g ++ [g a]) := by
  unfold assignments add
  rw [List.map_flatMap, List.map_flatMap]
  -- a node that is new has this assignment alone, and one that is there has one more
  refine Ledger.perm_flatMap_alter _ _ _ _ ?_ ?_ b.bins
  · exact perm_assignmentsAt_alter hg a BEq.rfl []
  · intro location extents hl
    exact perm_assignmentsAt_alter hg a hl extents

/-- A binning holds what was added to it. -/
theorem perm_ofAssignments {g : Assignment → γ} (hg : Assignment.Respects g)
    (as : List Assignment) : ((ofAssignments as).assignments.map g).Perm (as.map g) := by
  induction as using List.reverseRecOn with
  | nil => exact List.Perm.refl _
  | append_singleton as a ih =>
    rw [ofAssignments_append, List.map_append]
    exact (perm_assignments_add hg _ a).trans (ih.append_right _)

/-- Adding an assignment puts its range behind those of an equal extent on an equal node, and
changes no other entry. So the ranges of each entry stand in the order in which they were added. -/
theorem ranges_add (b : Binning) (a : Assignment) (location : Address) (extent : Extent) :
    (b.add a.location a.extent a.range).ranges location extent =
      b.ranges location extent ++
        if a.location == location && a.extent == extent then [a.range] else [] := by
  unfold ranges extents add
  rw [Ledger.get?_alter]
  by_cases hl : a.location == location
  · rw [if_pos hl, Ledger.get?_congr b.bins hl]
    simp only [Option.getD_some, Ledger.get?_alter, hl, Bool.true_and]
    -- on the node, only the extent that is given the range has one more
    by_cases he : a.extent == extent
    · simp [he, Ledger.get?_congr _ he]
    · simp [he]
  · simp [hl]

/-- The ranges of an extent on a node are those that were assigned there, in the order in which they
were added. -/
theorem ranges_ofAssignments (as : List Assignment) (location : Address) (extent : Extent) :
    (ofAssignments as).ranges location extent =
      (as.filter fun a => a.location == location && a.extent == extent).map
        Assignment.range := by
  induction as using List.reverseRecOn with
  | nil => rfl
  | append_singleton as a ih =>
    rw [ofAssignments_append, ranges_add, ih, List.filter_append, List.map_append]
    congr 1
    by_cases h : a.location == location && a.extent == extent <;> simp [h]

/-! ## Adding that may fail -/

/-- If all steps succeed, what each of them needs is there, and all that they add is added. This
turns the loops that assign ranges into lists of assignments. -/
theorem eq_addAll_of_foldlM {ε β : Type} {f : Binning → β → Except ε Binning}
    {g : β → List Assignment} {P : β → Prop}
    (step : ∀ b x b', f b x = .ok b' → P x ∧ b' = b.addAll (g x))
    {xs : List β} {b b' : Binning} (h : xs.foldlM f b = .ok b') :
    (∀ x ∈ xs, P x) ∧ b' = b.addAll (xs.flatMap g) := by
  -- induction on the items, for any binning to begin with
  induction xs generalizing b with
  | nil =>
    cases h
    simp
  | cons x xs ih =>
    rw [List.foldlM_cons] at h
    cases hx : f b x with
    | error e =>
      rw [hx] at h
      cases h
    | ok mid =>
      rw [hx] at h
      obtain ⟨hP, hmid⟩ := step b x mid hx
      obtain ⟨rest, e⟩ := ih h
      rw [e, hmid, List.flatMap_cons, addAll_append]
      exact ⟨List.forall_mem_cons.mpr ⟨hP, rest⟩, rfl⟩

/-- If each step adds what it should and none fails, all of it is added: the converse, for tablets
of which all that is needed is known. -/
theorem foldlM_eq_addAll {ε β : Type} {f : Binning → β → Except ε Binning}
    {g : β → List Assignment} {xs : List β}
    (step : ∀ x ∈ xs, ∀ b, f b x = .ok (b.addAll (g x))) (b : Binning) :
    xs.foldlM f b = .ok (b.addAll (xs.flatMap g)) := by
  induction xs generalizing b with
  | nil => rfl
  | cons x xs ih =>
    rw [List.foldlM_cons, step x (by simp) b, List.flatMap_cons, addAll_append]
    exact ih (fun y hy => step y (by simp [hy])) _

/-- Assigning a range, if it does not fail, adds that assignment. -/
theorem assign_eq_ok {b b' : Binning} {location : Address} {extent : Extent} {range : KeyRange}
    (h : b.assign location extent range = .ok b') :
    b' = b.addAll [⟨location, extent, range⟩] := by
  unfold assign at h
  split at h
  · exact (Except.ok.inj h).symm
  · cases h

/-- A range can be assigned to an extent that can be looked up, on a node that can be looked up. -/
theorem assign_of_isKey (b : Binning) {location : Address} {extent : Extent} (range : KeyRange)
    (hl : location.isScalar = true) (he : extent.isKey = true) :
    b.assign location extent range = .ok (b.addAll [⟨location, extent, range⟩]) := by
  unfold assign
  rw [if_pos (by rw [hl, he, Bool.and_true])]
  rfl

/-! ## Walking -/

/-- The bins of a node are all on that node. -/
theorem location_of_binsAt {b : Binning} {node : Address} {bins : List Bin}
    (h : b.binsAt node = .ok bins) : ∀ bin ∈ bins, bin.location = node := by
  obtain ⟨sorted, -, h⟩ := Result.bind_eq_ok.mp h
  cases h
  intro bin hbin
  obtain ⟨e, -, rfl⟩ := List.mem_map.mp hbin
  rfl

/-- The bins of a node are its extents with their ranges, in another order. -/
theorem perm_flatMap_binsAt {b : Binning} {node : Address} {bins : List Bin}
    (h : b.binsAt node = .ok bins) (g : Bin → List γ) :
    (bins.flatMap g).Perm ((b.extents node).flatMap fun x => g ⟨node, x.1, x.2⟩) := by
  obtain ⟨sorted, hsorted, h⟩ := Result.bind_eq_ok.mp h
  cases h
  rw [List.flatMap_map]
  exact (Sorting.perm_of_sort? hsorted).flatMap_right _

/-- A node that is looked up again has its own entry, because no node has two. -/
theorem extents_of_mem {b : Binning} (hb : b.WellFormed)
    {e : Address × Ledger Extent (List KeyRange)} (he : e ∈ b.bins) : b.extents e.1 = e.2 := by
  have found := Ledger.get?_of_mem hb.nodes he BEq.rfl
  unfold extents
  rw [found, Option.getD_some]

/-- A walk comes to the nodes in their order, and on each to its bins. It succeeds if the nodes can
be sorted and the extents on each of them can. -/
theorem items_eq_ok_iff {b : Binning} {bins : List Bin} :
    b.items = .ok bins ↔ ∃ nodes binss, b.locations = .ok nodes ∧
      nodes.mapM b.binsAt = .ok binss ∧ bins = binss.flatten := by
  constructor
  · intro h
    obtain ⟨nodes, hnodes, h⟩ := Result.bind_eq_ok.mp h
    obtain ⟨binss, hbinss, h⟩ := Result.bind_eq_ok.mp h
    exact ⟨nodes, binss, hnodes, hbinss, (Except.ok.inj h).symm⟩
  · rintro ⟨nodes, binss, hnodes, hbinss, rfl⟩
    unfold items
    rw [hnodes, Result.bind_ok, hbinss]
    rfl

/-- A bin that a walk comes to is one of those of some node. -/
theorem exists_binsAt_of_items {b : Binning} {bins : List Bin} (h : b.items = .ok bins)
    {bin : Bin} (hb : bin ∈ bins) : ∃ node here, b.binsAt node = .ok here ∧ bin ∈ here := by
  obtain ⟨_, _, -, hbinss, rfl⟩ := items_eq_ok_iff.mp h
  obtain ⟨here, hhere, hb⟩ := List.mem_flatten.mp hb
  obtain ⟨node, -, walked⟩ := Result.exists_of_mapM_of_mem hbinss hhere
  exact ⟨node, here, walked, hb⟩

/-- The bins that a binning is walked by are those that it has. Walking sorts them, so whatever is
collected from them along the way is the same up to order. -/
theorem perm_flatMap_items {b : Binning} (hb : b.WellFormed) {bins : List Bin}
    (h : b.items = .ok bins) (g : Bin → List γ) :
    (bins.flatMap g).Perm (b.bins.flatMap fun e => e.2.flatMap fun x => g ⟨e.1, x.1, x.2⟩) := by
  obtain ⟨nodes, binss, hnodes, hbinss, rfl⟩ := items_eq_ok_iff.mp h
  have walked := perm_flatMap_flatten (Result.forall₂_of_mapM hbinss)
    fun node bins (h : b.binsAt node = .ok bins) => perm_flatMap_binsAt h g
  have sorted : nodes.Perm b.bins.keys := Sorting.perm_of_sort? hnodes
  -- looking a node up gives the entry that it was found in
  have own : b.bins.keys.flatMap (fun node =>
        (b.extents node).flatMap fun x => g ⟨node, x.1, x.2⟩) =
      b.bins.flatMap fun e => e.2.flatMap fun x => g ⟨e.1, x.1, x.2⟩ := by
    unfold Ledger.keys
    rw [List.flatMap_map]
    refine List.flatMap_congr fun e he => ?_
    rw [extents_of_mem hb he]
  rw [← own]
  exact walked.trans (sorted.flatMap_right _)

/-- They hold what the binning holds. -/
theorem perm_items {b : Binning} (hb : b.WellFormed) {bins : List Bin} (h : b.items = .ok bins) :
    (bins.flatMap Bin.assignments).Perm b.assignments :=
  perm_flatMap_items hb h Bin.assignments

end Binning

end ScanPlanner
