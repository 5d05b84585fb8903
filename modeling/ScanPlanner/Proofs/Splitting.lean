import ScanPlanner.Proofs.KeyRange
import ScanPlanner.Proofs.Naming

/-!
# What splits read

Splits are made out of the bins of a binning, in the order in which these are walked. With adjusted
ranges, whatever the builder, each range of each bin gives one range that is read: its part in the
extent of the bin, at the hosts of the bin's node (`Splitting.ensures_adjusted`). Without, the
splits read the ranges of the bins, each once (`Splitting.ensures_wholes`). -/

namespace ScanPlanner

variable {ω : Type}

/-- The ranges that the split reads, with the hosts where it is best done. -/
def Split.reads (s : Split) : List (KeyRange × List Json) := s.ranges.map (·, s.locations)

namespace Splitting

/-- What is read for an assignment: the part of the range in the extent, at the hosts of the node.
-/
def Reads (named : Address → List Json → Prop) (a : Assignment) (x : KeyRange × List Json) : Prop :=
  a.extent.rows.clip a.range = .ok x.1 ∧ named a.location x.2

/-- Splits of a table that read what is assigned, one range for each assignment. -/
structure Carry (named : Address → List Json → Prop) (table : TableName) (as : List Assignment)
    (splits : List Split) : Prop where
  reads : List.Forall₂ (Reads named) as (splits.flatMap Split.reads)
  table : ∀ s ∈ splits, s.tableName = table

variable {named : Address → List Json → Prop} {table : TableName}

theorem carry_nil : Carry named table [] [] := ⟨.nil, fun _ h => (List.not_mem_nil h).elim⟩

/-- Splits that carry some assignments, and behind them splits that carry others, carry all of them
in that order. -/
theorem Carry.append {as as' : List Assignment} {splits splits' : List Split}
    (h : Carry named table as splits) (h' : Carry named table as' splits') :
    Carry named table (as ++ as') (splits ++ splits') where
  reads := by
    rw [List.flatMap_append]
    exact List.rel_append h.reads h'.reads
  table := by
    intro s hs
    rcases List.mem_append.mp hs with hs | hs
    · exact h.table s hs
    · exact h'.table s hs

/-- If each group of splits carries its own assignments, all groups together carry all of them, in
the same order. -/
theorem carry_flatMap {α β : Type} {f : α → List Assignment} {g : β → List Split} {xs : List α}
    {ys : List β} (h : List.Forall₂ (fun x y => Carry named table (f x) (g y)) xs ys) :
    Carry named table (xs.flatMap f) (ys.flatMap g) := by
  induction h with
  | nil => exact carry_nil
  | cons head _ ih =>
    rw [List.flatMap_cons, List.flatMap_cons]
    exact head.append ih

/-- The parts of a bin's ranges are what is read for its assignments, at the hosts of its node. -/
theorem forall₂_reads_of_parts {bin : Bin} {ps : List KeyRange} {names : List Json}
    (hp : parts bin = .ok ps) (hn : named bin.location names) :
    List.Forall₂ (Reads named) bin.assignments (ps.map (·, names)) := by
  unfold Bin.assignments
  rw [List.forall₂_map_left_iff, List.forall₂_map_right_iff]
  exact (Result.forall₂_of_mapM hp).imp fun r p clipped => ⟨clipped, hn⟩

section

variable {c : Collaborators ω} {f : SplitFrame} {b : Binning}
  {I : HostBook → Session ω → Prop}

/-- Splits carry all bins of the binning. -/
def CarryAll (named : Address → List Json → Prop) (f : SplitFrame) (b : Binning)
    (splits : List Split) : Prop :=
  ∃ bins, b.items = .ok bins ∧ Carry named f.tableName (bins.flatMap Bin.assignments) splits

/-- Splits carry the bins of one node. -/
def CarryNode (named : Address → List Json → Prop) (f : SplitFrame) (b : Binning) (node : Address)
    (splits : List Split) : Prop :=
  ∃ bins, b.binsAt node = .ok bins ∧ Carry named f.tableName (bins.flatMap Bin.assignments) splits

/-- Splits made node by node carry all bins, since the binning is walked node by node as well. -/
theorem carryAll_of_nodes {β : Type} {g : β → List Split} {nodes : List Address} {ys : List β}
    (hnodes : b.locations = .ok nodes)
    (h : List.Forall₂ (fun node y => CarryNode named f b node (g y)) nodes ys) :
    CarryAll named f b (ys.flatMap g) := by
  suffices ∃ binss, nodes.mapM b.binsAt = .ok binss ∧
      Carry named f.tableName (binss.flatten.flatMap Bin.assignments) (ys.flatMap g) by
    obtain ⟨binss, hbinss, carry⟩ := this
    exact ⟨binss.flatten, Binning.items_eq_ok_iff.mpr ⟨nodes, binss, hnodes, hbinss, rfl⟩, carry⟩
  clear hnodes
  -- induction on the nodes, of which each has its own bins
  induction h with
  | nil => exact ⟨[], rfl, carry_nil⟩
  | cons head _ ih =>
    obtain ⟨bins, hbins, carry⟩ := head
    obtain ⟨binss, hbinss, carry'⟩ := ih
    refine ⟨bins :: binss, ?_, ?_⟩
    · rw [List.mapM_cons, hbins, Result.bind_ok, hbinss]
      rfl
    · rw [List.flatten_cons, List.flatMap_append, List.flatMap_cons]
      exact carry.append carry'

/-- One split with the parts of a bin carries the assignments of the bin. Each part is what the
extent has of one of the ranges. -/
theorem carry_split {bin : Bin} {ps : List KeyRange} {names : List Json} {work : Work}
    (hp : parts bin = .ok ps) (hn : named bin.location names) (hw : work.ranges = ps) :
    Carry named f.tableName bin.assignments [f.split names work] where
  reads := by
    rw [List.flatMap_singleton]
    show List.Forall₂ _ _ (work.ranges.map (·, names))
    rw [hw]
    exact forall₂_reads_of_parts hp hn
  table := by
    intro s hs
    rw [List.mem_singleton.mp hs]
    rfl

/-- As many splits as there are parts, each with one of them, carry the assignments of the bin as
well. -/
theorem carry_singles {bin : Bin} {ps : List KeyRange} {names : List Json}
    (hp : parts bin = .ok ps) (hn : named bin.location names) :
    Carry named f.tableName bin.assignments (ps.map fun part => f.split names (.single part)) where
  reads := by
    rw [List.flatMap_map]
    have each (part : KeyRange) : (f.split names (.single part)).reads = [(part, names)] := rfl
    simp only [each, ← List.map_eq_flatMap]
    exact forall₂_reads_of_parts hp hn
  table := by
    intro s hs
    obtain ⟨part, -, rfl⟩ := List.mem_map.mp hs
    rfl

/-- One split with the parts of all bins of a node carries the assignments of these bins. They are
on one node, so its hosts are those of each of them. -/
theorem carry_node {node : Address} {bins : List Bin} {pss : List (List KeyRange)}
    {names : List Json} (at_node : ∀ bin ∈ bins, bin.location = node)
    (hp : bins.mapM parts = .ok pss) (hn : named node names) :
    Carry named f.tableName (bins.flatMap Bin.assignments)
      [f.split names (.batch pss.flatten)] where
  reads := by
    rw [List.flatMap_singleton]
    show List.Forall₂ _ _ (pss.flatten.map (·, names))
    have each := Result.forall₂_of_mapM hp
    clear hp
    -- bin by bin: the parts of the first one come first, and the node is the same for all
    induction each with
    | nil => exact .nil
    | cons head _ ih =>
      rw [List.flatMap_cons, List.flatten_cons, List.map_append]
      have here := at_node _ List.mem_cons_self
      refine List.rel_append (forall₂_reads_of_parts head (here ▸ hn)) (ih ?_)
      exact fun bin hbin => at_node bin (List.mem_cons_of_mem _ hbin)
  table := by
    intro s hs
    rw [List.mem_singleton.mp hs]
    rfl

variable (hosts_named : ∀ node, Naming.Ensures I (hosts c node) (named node))
include hosts_named

/-- Batches by extent carry all bins: one split for each. The hosts are resolved for each bin anew,
and are the same each time as far as is known here. -/
theorem ensures_extentBatches :
    Naming.Ensures I (extentBatches c f b) (CarryAll named f b) := by
  unfold extentBatches
  -- node by node, and on each node bin by bin
  refine Naming.ensures_bind (Naming.ensures_ofResult b.locations) fun nodes hnodes => ?_
  refine Naming.ensures_bind (P := List.Forall₂ (fun node ss => CarryNode named f b node ss) nodes)
    (Naming.ensures_mapM fun node _ => ?_) fun sss h => ?_
  · refine Naming.ensures_bind (Naming.ensures_ofResult (b.binsAt node)) fun bins hbins => ?_
    refine (Naming.ensures_mapM
      (Q := fun (bin : Bin) s => Carry named f.tableName bin.assignments [s])
      fun bin _ => ?_).imp fun ss h => ⟨bins, hbins, ?_⟩
    · refine Naming.ensures_bind (Naming.ensures_ofResult (parts bin)) fun ps hps => ?_
      refine Naming.ensures_bind (hosts_named bin.location) fun names hnames => ?_
      exact Naming.ensures_pure (carry_split hps hnames rfl)
    · have carry := carry_flatMap (g := fun s => [s]) h
      rwa [List.flatMap_singleton'] at carry
  · have carry := carryAll_of_nodes (g := id) hnodes h
    rw [List.flatMap_id] at carry
    exact Naming.ensures_pure carry

/-- Splits of single ranges carry all bins: one split for each part of a range. -/
theorem ensures_singles : Naming.Ensures I (singles c f b) (CarryAll named f b) := by
  unfold singles
  refine Naming.ensures_bind (Naming.ensures_ofResult b.locations) fun nodes hnodes => ?_
  refine Naming.ensures_bind
    (P := List.Forall₂ (fun node sss => CarryNode named f b node (List.flatten sss)) nodes)
    (Naming.ensures_mapM fun node _ => ?_) fun ssss h => ?_
  · refine Naming.ensures_bind (Naming.ensures_ofResult (b.binsAt node)) fun bins hbins => ?_
    -- on a node bin by bin, and in each bin part by part
    refine (Naming.ensures_mapM
      (Q := fun (bin : Bin) ss => Carry named f.tableName bin.assignments ss)
      fun bin _ => ?_).imp fun sss h => ⟨bins, hbins, ?_⟩
    · refine Naming.ensures_bind (hosts_named bin.location) fun names hnames => ?_
      refine Naming.ensures_bind (Naming.ensures_ofResult (parts bin)) fun ps hps => ?_
      exact Naming.ensures_pure (carry_singles hps hnames)
    · have carry := carry_flatMap (g := id) h
      rwa [List.flatMap_id] at carry
  · have carry := carryAll_of_nodes hnodes h
    rw [List.flatMap_def, ← List.flatten_flatten] at carry
    exact Naming.ensures_pure carry

/-- Batches by node carry all bins: one split for each node. -/
theorem ensures_nodeBatches : Naming.Ensures I (nodeBatches c f b) (CarryAll named f b) := by
  unfold nodeBatches
  refine Naming.ensures_bind (Naming.ensures_ofResult b.locations) fun nodes hnodes => ?_
  refine (Naming.ensures_mapM (Q := fun node s => CarryNode named f b node [s])
    fun node _ => ?_).imp fun ss h => ?_
  · refine Naming.ensures_bind (Naming.ensures_ofResult _) fun pss hpss => ?_
    obtain ⟨bins, hbins, hpss⟩ := Result.bind_eq_ok.mp hpss
    refine Naming.ensures_bind (hosts_named node) fun names hnames => ?_
    exact Naming.ensures_pure
      ⟨bins, hbins, carry_node (Binning.location_of_binsAt hbins) hpss hnames⟩
  · have carry := carryAll_of_nodes (g := fun s => [s]) hnodes h
    rwa [List.flatMap_singleton'] at carry

/-- With adjusted ranges, whatever the builder, the splits carry all bins. All that is read of a
table follows from this one statement. -/
theorem ensures_adjusted {scan : TableScan} (adjust : scan.adjust = true) :
    Naming.Ensures I (splits c f b scan) (CarryAll named f b) := by
  unfold splits
  cases scan.batch with
  | true =>
    cases scan.grouping with
    | node => exact ensures_nodeBatches hosts_named
    | extent => exact ensures_extentBatches hosts_named
  | false =>
    rw [adjust]
    exact ensures_singles hosts_named

/-! ## Ranges that are not adjusted -/

omit hosts_named

/-- Giving a range an owner lists the keys of that range, and no others, besides those listed
before. -/
theorem anyHolds_keys_alter {ν : Type} (entries : Ledger KeyRange ν) (r : KeyRange)
    (g : Option ν → ν) (k : RowKey) :
    KeyRange.AnyHolds (entries.alter r g).keys k ↔
      KeyRange.AnyHolds entries.keys k ∨ k ∈ r := by
  unfold KeyRange.AnyHolds Ledger.keys
  induction entries with
  | nil => simp [Ledger.alter]
  | cons entry rest ih =>
    obtain ⟨r', v⟩ := entry
    by_cases h : r' == r
    · -- the equal range that is there stands for the new one, and holds the same keys
      have same : k ∈ r' ↔ k ∈ r := by
        rw [KeyRange.mem_iff, KeyRange.mem_iff, KeyRange.span_eq_of_beq h]
      simp only [Ledger.alter, h, if_true, List.map_cons, List.exists_mem_cons_iff, same]
      exact (or_iff_left_of_imp Or.inl).symm
    · simp only [Ledger.alter, h, Bool.false_eq_true, if_false, List.map_cons,
        List.exists_mem_cons_iff, ih, or_assoc]

/-- Ranges that are given owners one by one: the keys they hold are added to those of the ranges
that are there. -/
theorem anyHolds_keys_foldl {ν : Type} (g : Option ν → ν) (rs : List KeyRange)
    (entries : Ledger KeyRange ν) (k : RowKey) :
    KeyRange.AnyHolds (rs.foldl (fun es r => Ledger.alter es r g) entries).keys k ↔
      KeyRange.AnyHolds entries.keys k ∨ KeyRange.AnyHolds rs k := by
  -- induction on the ranges, for any owners before
  induction rs generalizing entries with
  | nil => simp [KeyRange.AnyHolds]
  | cons r rs ih =>
    rw [List.foldl_cons, ih, anyHolds_keys_alter, or_assoc]
    simp only [KeyRange.AnyHolds, List.exists_mem_cons_iff]

/-- The ranges with owners hold the keys that the ranges of the bins hold. Equal ranges are entered
once, but hold the same keys. -/
theorem anyHolds_keys_owners (bins : List Bin) (k : RowKey) :
    KeyRange.AnyHolds (owners bins).keys k ↔ KeyRange.AnyHolds (bins.flatMap Bin.ranges) k := by
  suffices ∀ es : Ledger KeyRange (List (Extent × Address)),
      KeyRange.AnyHolds (bins.foldl (fun owners bin => bin.ranges.foldl (fun owners range =>
        owners.alter range fun present => present.getD [] ++ [(bin.extent, bin.location)])
          owners) es).keys k ↔
        KeyRange.AnyHolds es.keys k ∨ KeyRange.AnyHolds (bins.flatMap Bin.ranges) k by
    have none : ¬ KeyRange.AnyHolds (Ledger.keys ([] : Ledger KeyRange (List (Extent × Address))))
        k :=
      fun ⟨_, h, _⟩ => List.not_mem_nil h
    exact (this []).trans (or_iff_right none)
  -- bin by bin, for any owners from the bins before
  induction bins with
  | nil => simp [KeyRange.AnyHolds]
  | cons bin bins ih =>
    intro es
    rw [List.foldl_cons, ih, anyHolds_keys_foldl, or_assoc]
    simp only [KeyRange.AnyHolds, List.flatMap_cons, List.mem_append, or_and_right, exists_or]

/-- Bins whose ranges can be looked up are those that the binning is walked by. It may be that they
cannot, as flags are carried as they were given. -/
theorem items_of_keyedBins {bins : List Bin} (h : keyedBins b = .ok bins) :
    b.items = .ok bins := by
  unfold keyedBins at h
  obtain ⟨bins', hitems, h⟩ := Result.bind_eq_ok.mp h
  rw [hitems]
  by_cases keyed : (bins'.flatMap Bin.ranges).all KeyRange.isKey = true
  · rw [if_pos keyed] at h
    exact h
  · rw [if_neg keyed] at h
    cases h

include hosts_named

/-- Without adjusted ranges the splits read the ranges of the bins, each as a whole. So they may
read rows outside of the extents, and it is only said which keys they hold. -/
theorem ensures_wholes : Naming.Ensures I (wholes c f b) fun splits =>
    ∃ bins, b.items = .ok bins ∧
      (∀ k, KeyRange.AnyHolds (splits.flatMap Split.ranges) k ↔
        KeyRange.AnyHolds (bins.flatMap Bin.ranges) k) ∧
      ∀ s ∈ splits, s.tableName = f.tableName := by
  unfold wholes
  refine Naming.ensures_bind (Naming.ensures_ofResult (keyedBins b)) fun bins hbins => ?_
  refine Naming.ensures_bind (Naming.ensures_ofResult _) fun sorted hsorted => ?_
  refine (Naming.ensures_mapM
    (Q := fun range s => s.ranges = [range] ∧ s.tableName = f.tableName)
    fun range _ => ?_).imp fun splits h => ?_
  · refine Naming.ensures_bind (Naming.ensures_ofResult _) fun holders _ => ?_
    refine Naming.ensures_bind (Naming.ensures_mapM (Q := fun holder => named holder.2)
      fun holder _ => hosts_named holder.2) fun names _ => ?_
    refine Naming.ensures_pure ?_
    exact ⟨rfl, rfl⟩
  · -- sorting changes the order of the ranges only
    have read : splits.flatMap Split.ranges = sorted := by
      clear hsorted
      induction h with
      | nil => rfl
      | cons head _ ih => rw [List.flatMap_cons, head.1, ih, List.singleton_append]
    have perm : sorted.Perm (owners bins).keys := Sorting.perm_of_sort? hsorted
    refine ⟨bins, items_of_keyedBins hbins, fun k => ?_, ?_⟩
    · rw [read, ← anyHolds_keys_owners]
      unfold KeyRange.AnyHolds
      simp only [perm.mem_iff]
    · clear hsorted read perm
      induction h with
      | nil => simp
      | cons head _ ih => exact List.forall_mem_cons.mpr ⟨head.2, ih⟩

/-- A scan that neither adjusts its ranges nor asks for batches has splits of this kind. -/
theorem ensures_unadjusted {scan : TableScan} (batch : scan.batch = false)
    (adjust : scan.adjust = false) : Naming.Ensures I (splits c f b scan) fun splits =>
    ∃ bins, b.items = .ok bins ∧
      (∀ k, KeyRange.AnyHolds (splits.flatMap Split.ranges) k ↔
        KeyRange.AnyHolds (bins.flatMap Bin.ranges) k) ∧
      ∀ s ∈ splits, s.tableName = f.tableName := by
  unfold splits
  rw [batch, adjust]
  exact ensures_wholes hosts_named

end

end Splitting

end ScanPlanner
