import ScanPlanner.Proofs.Fitting
import ScanPlanner.Proofs.Splitting
import ScanPlanner.Proofs.Store
import ScanPlanner.Proofs.Walking

/-!
# Shapes of splits

With adjusted ranges there are three ways to make splits: one for each part of a range, a batch for
each extent, and a batch for each node. They walk the binning differently, but they come to the
same: the work on each node is told by the node alone (`Splitting.NodeWork`), and what the splits
read is that work, in the same order and at the same hosts (`Splitting.reads_alike`).
-/

namespace ScanPlanner

variable {ω α β γ : Type}

/-- The scan with adjusted ranges, in batches of a grouping or in single splits. -/
def TableScan.adjusted (scan : TableScan) : Option Grouping → TableScan
  | none => { scan with adjust := true, batch := false }
  | some grouping => { scan with adjust := true, batch := true, grouping }

/-- The split is a batch of the parts of some bins, of which there is at least one. The parts are in
the order of the bins. -/
def Split.IsBatchOf (split : Split) (bins : List Bin) : Prop :=
  ∃ pss, bins.mapM Splitting.parts = .ok pss ∧ split.work = .batch pss.flatten ∧ pss.flatten ≠ []

/-! ## The work on a node -/

namespace Splitting

open Naming

/-- The work on a node: where it is best done, and the parts of the ranges of each of its bins. All
shapes of splits are made of it, in one way or another. -/
structure NodeWork where
  hosts : List Json
  parts : List (List KeyRange)

namespace NodeWork

variable (f : SplitFrame) (w : NodeWork)

/-- What is read for the work. -/
def reads : List (KeyRange × List Json) := w.parts.flatten.map (·, w.hosts)

/-- A split for each part of a range, by bins. -/
def singles : List (List Split) :=
  w.parts.map fun ps => ps.map fun part => f.split w.hosts (.single part)

/-- A batch for each bin. -/
def byExtent : List Split := w.parts.map fun ps => f.split w.hosts (.batch ps)

/-- A batch for the node. -/
def byNode : Split := f.split w.hosts (.batch w.parts.flatten)

/-- Single splits read the parts of the node one by one, in the order of the bins. -/
theorem reads_singles : (w.singles f).flatten.flatMap Split.reads = w.reads := by
  have each (part : KeyRange) : (f.split w.hosts (.single part)).reads = [(part, w.hosts)] := rfl
  unfold singles reads
  rw [← List.map_flatten, List.flatMap_map]
  simp only [each, ← List.map_eq_flatMap]

/-- Batches for the bins read the same parts in the same order: a batch is opened by its parts. -/
theorem reads_byExtent : (w.byExtent f).flatMap Split.reads = w.reads := by
  have each (ps : List KeyRange) :
      (f.split w.hosts (.batch ps)).reads = ps.map (·, w.hosts) := rfl
  unfold byExtent reads
  rw [List.flatMap_map]
  simp only [each]
  rw [List.map_flatten, List.flatMap_def]

theorem reads_byNode : (w.byNode f).reads = w.reads := rfl

end NodeWork

/-- The splits for the work on some nodes: batches of a grouping, or single ones. -/
def splitsOf (f : SplitFrame) (shape : Option Grouping) (ws : List NodeWork) : List Split :=
  match shape with
  | none => (ws.map (NodeWork.singles f)).flatten.flatten
  | some .extent => (ws.map (NodeWork.byExtent f)).flatten
  | some .node => ws.map (NodeWork.byNode f)

/-- In each shape, the splits read the work in the same order: shapes only differ in where one split
ends and the next one begins. -/
theorem reads_splitsOf (f : SplitFrame) (shape : Option Grouping) (ws : List NodeWork) :
    (splitsOf f shape ws).flatMap Split.reads = ws.flatMap NodeWork.reads := by
  induction ws with
  | nil => rcases shape with _ | _ | _ <;> rfl
  | cons w ws ih =>
    rw [List.flatMap_cons, ← ih]
    rcases shape with _ | _ | _
    · -- single splits are flattened twice, first over the bins of a node
      have parts : splitsOf f none (w :: ws) =
          (w.singles f).flatten ++ splitsOf f none ws := by
        unfold splitsOf
        rw [List.map_cons, List.flatten_cons, List.flatten_append]
      rw [parts, List.flatMap_append, NodeWork.reads_singles]
    · rw [← NodeWork.reads_byExtent f w, ← List.flatMap_append]
      rfl
    · rw [← NodeWork.reads_byNode f w]
      rfl

/-- The work on a node that is resolved to some hosts. -/
def workAt (b : Binning) (node : Address) (names : List Json) : Result NodeWork := do
  let bins ← b.binsAt node
  (bins.mapM parts).map (NodeWork.mk names)

/-- The work on all nodes, if these can be walked in order. -/
def works (b : Binning) (hosted : List (Address × List Json)) : Result (List NodeWork) := do
  let _ ← b.locations
  hosted.mapM fun h => workAt b h.1 h.2

section

variable {c : Collaborators ω} {f : SplitFrame} {b : Binning} {node : Address}
  {names : List Json} {t t' : HostBook × Session ω}

/-- The bins of a node one by one, with the node resolved anew for each of them. The first
resolution settles its name, and the others find it. -/
theorem gives_binsAt (settles : Settles c node t names t')
    (filled : ∀ bins, b.binsAt node = .ok bins → bins ≠ []) {g : Bin → Naming ω β}
    {h : List Json → List KeyRange → β}
    (each : ∀ bin t, bin.location = node → Gives (hosts c node) t (.ok names) t' →
      Gives (g bin) t ((parts bin).map (h names)) t') :
    Gives (do (← ofResult (b.binsAt node)).mapM g) t
      ((workAt b node names).map fun w => w.parts.map (h w.hosts)) t' := by
  -- the hosts of a node are the same for all its bins, so its work is a pass over the bins
  have work : (workAt b node names).map (fun w => w.parts.map (h w.hosts)) =
      b.binsAt node >>= fun bins => bins.mapM fun bin => (parts bin).map (h names) := by
    unfold workAt
    cases b.binsAt node with
    | error g => rfl
    | ok bins =>
      rw [Result.bind_ok, Result.bind_ok, Result.mapM_map]
      cases bins.mapM parts with
      | error g => rfl
      | ok pss => rfl
  rw [work]
  refine gives_bind (gives_ofResult _ t) fun bins hbins => ?_
  refine gives_mapM (filled bins hbins) (fun bin hbin => ?_) fun bin hbin => ?_
  · exact each bin t (Binning.location_of_binsAt hbins bin hbin) settles.first
  · exact each bin t' (Binning.location_of_binsAt hbins bin hbin) settles.again

variable {nodes : List Address} {hosted : List (Address × List Json)}

variable (walk : Hosted c nodes t hosted t') (hnodes : b.locations = .ok nodes)
  (filled : ∀ node ∈ nodes, ∀ bins, b.binsAt node = .ok bins → bins ≠ [])
include walk hnodes

/-- Batches for the nodes come to the work on the nodes, with each node resolved once. -/
theorem gives_nodeBatches : Gives (nodeBatches c f b) t
    ((works b hosted).map (List.map (NodeWork.byNode f))) t' := by
  unfold nodeBatches works
  rw [hnodes, Result.bind_ok, ← Result.mapM_map]
  refine gives_next (gives_ofResult (.ok nodes) t) (walk _ (fun node names =>
    (workAt b node names).map (NodeWork.byNode f)) fun node _ t names t' settles => ?_)
  have work : (workAt b node names).map (NodeWork.byNode f) =
      (do (← b.binsAt node).mapM parts) >>= fun pss =>
        .ok (f.split names (.batch pss.flatten)) := by
    unfold workAt
    cases b.binsAt node with
    | error g => rfl
    | ok bins =>
      rw [Result.bind_ok, Result.bind_ok]
      cases bins.mapM parts with
      | error g => rfl
      | ok pss => rfl
  -- here the hosts are asked for after the parts of the node are known
  rw [work]
  refine gives_bind (gives_ofResult _ t) fun pss _ => ?_
  exact gives_next settles.first (gives_pure _ t')

include filled

/-- Single splits come to the same work, although their node is resolved again for every bin: the
answer that is kept is the one that was given first. -/
theorem gives_singles : Gives (singles c f b) t
    ((works b hosted).map fun ws => (ws.map (NodeWork.singles f)).flatten.flatten) t' := by
  unfold singles works
  rw [hnodes, Result.bind_ok,
    ← Result.map_map _ (List.map (NodeWork.singles f)) fun sss => sss.flatten.flatten,
    ← Result.mapM_map]
  refine gives_next (gives_ofResult (.ok nodes) t) (gives_map (walk _ (fun node names =>
    (workAt b node names).map (NodeWork.singles f)) ?_) _)
  intro node hnode t names t' settles
  refine gives_binsAt (h := fun names ps => ps.map fun part => f.split names (.single part))
    settles (filled node hnode) fun bin t here resolved => ?_
  rw [here]
  exact gives_next resolved (gives_map (gives_ofResult _ t') _)

/-- Batches for the extents come to the same work, with the parts made before the hosts are asked
for. -/
theorem gives_extentBatches : Gives (extentBatches c f b) t
    ((works b hosted).map fun ws => (ws.map (NodeWork.byExtent f)).flatten) t' := by
  unfold extentBatches works
  rw [hnodes, Result.bind_ok, ← Result.map_map _ (List.map (NodeWork.byExtent f)) List.flatten,
    ← Result.mapM_map]
  refine gives_next (gives_ofResult (.ok nodes) t) (gives_map (walk _ (fun node names =>
    (workAt b node names).map (NodeWork.byExtent f)) ?_) _)
  intro node hnode t names t' settles
  refine gives_binsAt (h := fun names ps => f.split names (.batch ps))
    settles (filled node hnode) fun bin t here resolved => ?_
  rw [here]
  -- the parts come before the hosts here
  have parts_first : (parts bin).map (fun ps => f.split names (.batch ps)) =
      parts bin >>= fun ps => .ok (f.split names (.batch ps)) := by
    cases parts bin <;> rfl
  rw [parts_first]
  refine gives_bind (gives_ofResult _ t) fun ps _ => ?_
  exact gives_next resolved (gives_pure _ t')

end

/-! ## The shapes of a table's splits -/

section

variable {c : Collaborators ω} {f : SplitFrame} {b : Binning} {scan : TableScan}

/-- The splits are what the naming of their hosts gives, from an empty host book of the given
size. -/
theorem result_make {r : Result (List Split)} {t' : HostBook × Session ω} {size : Int}
    {s : Session ω} (h : Gives (splits c f b scan) (Lru.empty size, s) r t') :
    (outcome (make c f b scan size) s).1 = r := by
  have found : (outcome ((splits c f b scan).run (Lru.empty size)) s).1.map Prod.fst = r := h.result
  unfold make
  rw [outcome_bind]
  rw [← found]
  rcases outcome ((splits c f b scan).run (Lru.empty size)) s with ⟨e | ⟨made, book⟩, s'⟩
  · rfl
  · rfl

/-- In each shape, the splits are those for the work on the nodes, which is the same. That each
shape resolves the nodes at other times does not matter, as lookups answer the same each time. -/
theorem exists_works (answers : c.Answers) (wellFormed : b.WellFormed) (filled : b.Filled)
    (texts : ∀ e ∈ b.bins, ∃ address, e.1 = .text address) {size : Int} (room : 1 ≤ size)
    (f : SplitFrame) (scan : TableScan) (s : Session ω) :
    ∃ hosted : List (Address × List Json),
      (∀ nodes, b.locations = .ok nodes → hosted.map Prod.fst = nodes) ∧
      ∀ shape, (outcome (make c f b (scan.adjusted shape) size) s).1 =
        (works b hosted).map (splitsOf f shape) := by
  cases hnodes : b.locations with
  | error e =>
    -- nodes that cannot be sorted make all shapes fail alike, before any of them is resolved
    have unsorted : works b [] = .error e := by
      unfold works
      rw [hnodes, Result.bind_error]
    refine ⟨[], nofun, fun shape => ?_⟩
    rw [unsorted]
    have fails (x : List Address → Naming ω (List Split)) :
        Gives (ofResult b.locations >>= x) (Lru.empty size, s) (.error e) (Lru.empty size, s) := by
      rw [hnodes]
      exact gives_bind (q := fun _ => .error e) (gives_ofResult _ _) nofun
    rcases shape with _ | _ | _ <;> exact result_make (fails _)
  | ok nodes =>
    have node_texts : ∀ node ∈ nodes, ∃ address, node = .text address := by
      intro node hnode
      obtain ⟨e, he, rfl⟩ := Binning.exists_of_mem_locations hnodes hnode
      exact texts e he
    have node_bins : ∀ node ∈ nodes, ∀ bins, b.binsAt node = .ok bins → bins ≠ [] := by
      intro node hnode bins hbins
      obtain ⟨e, he, rfl⟩ := Binning.exists_of_mem_locations hnodes hnode
      exact (filled.binsAt wellFormed he hbins).1
    obtain ⟨hosted, t', same, walk⟩ :=
      exists_hosted answers node_texts (Lru.empty size, s) room
    refine ⟨hosted, fun _ e => same.trans (Except.ok.inj e), fun shape => ?_⟩
    rcases shape with _ | _ | _
    · exact result_make (gives_singles walk hnodes node_bins)
    · exact result_make (gives_extentBatches walk hnodes node_bins)
    · exact result_make (gives_nodeBatches walk hnodes)

/-- The work on a node is made of its bins, each of which has a part at least. -/
def NodeWork.IsAt (w : NodeWork) (b : Binning) (node : Address) : Prop :=
  ∃ bins, b.binsAt node = .ok bins ∧ bins ≠ [] ∧ bins.mapM Splitting.parts = .ok w.parts ∧
    List.Forall₂ (fun bin ps => Splitting.parts bin = .ok ps ∧ ps ≠ []) bins w.parts

/-- The work on a node is made of the bins of that node, none of which is empty. -/
theorem isAt_of_workAt (wellFormed : b.WellFormed) (filled : b.Filled)
    {e : Address × Ledger Extent (List KeyRange)} (he : e ∈ b.bins) {names : List Json}
    {w : NodeWork} (h : workAt b e.1 names = .ok w) : w.IsAt b e.1 := by
  obtain ⟨bins, hbins, h⟩ := Result.bind_eq_ok.mp h
  obtain ⟨pss, hpss, rfl⟩ := Result.map_eq_ok.mp h
  obtain ⟨nonempty, ranges⟩ := filled.binsAt wellFormed he hbins
  have each : List.Forall₂ (fun bin ps => bin.ranges ≠ [] ∧ parts bin = .ok ps) bins pss :=
    (List.forall₂_and_left _ _).mpr ⟨ranges, Result.forall₂_of_mapM hpss⟩
  refine ⟨bins, hbins, nonempty, hpss, each.imp fun bin ps ⟨ranges, hps⟩ => ⟨hps, ?_⟩⟩
  -- there are as many parts as ranges
  rintro rfl
  cases hr : bin.ranges with
  | nil => exact ranges hr
  | cons r rs =>
    have length := (Result.forall₂_of_mapM hps).length_eq
    rw [hr] at length
    cases length

/-- The work on all nodes is that on each of them, in the order in which the binning is walked. No
work is left out for a node that has no hosts. -/
theorem forall₂_of_works (wellFormed : b.WellFormed) (filled : b.Filled)
    {hosted : List (Address × List Json)}
    (same : ∀ nodes, b.locations = .ok nodes → hosted.map Prod.fst = nodes) {ws : List NodeWork}
    (h : works b hosted = .ok ws) :
    ∃ nodes, b.locations = .ok nodes ∧ List.Forall₂ (fun node w => w.IsAt b node) nodes ws := by
  obtain ⟨nodes, hnodes, h⟩ := Result.bind_eq_ok.mp h
  refine ⟨nodes, hnodes, ?_⟩
  rw [← same nodes hnodes, List.forall₂_map_left_iff]
  have known : ∀ h ∈ hosted, ∃ e ∈ b.bins, e.1 = h.1 := fun h hh =>
    Binning.exists_of_mem_locations hnodes (same nodes hnodes ▸ List.mem_map_of_mem hh)
  have each := (List.forall₂_and_left _ _).mpr ⟨known, Result.forall₂_of_mapM h⟩
  refine each.imp fun h w ⟨⟨e, he, node⟩, work⟩ => ?_
  rw [← node] at work ⊢
  exact isAt_of_workAt wellFormed filled he work

/-- There is work for each node if the ranges fit: the nodes can be sorted, their extents can be,
and each range has a part in its extent. -/
theorem exists_works_of_fit (wellFormed : b.WellFormed) (filled : b.Filled)
    (texts : ∀ e ∈ b.bins, ∃ address, e.1 = .text address) (fit : Assignment.Fit b.assignments)
    {hosted : List (Address × List Json)}
    (same : ∀ nodes, b.locations = .ok nodes → hosted.map Prod.fst = nodes) :
    ∃ ws, works b hosted = .ok ws := by
  obtain ⟨nodes, hnodes⟩ := Binning.exists_locations texts
  unfold works
  rw [hnodes, Result.bind_ok]
  refine Result.exists_mapM fun h hh => ?_
  -- each node that was sorted comes from an entry of the binning
  obtain ⟨e, he, node⟩ := Binning.exists_of_mem_locations hnodes
    (same nodes hnodes ▸ List.mem_map_of_mem hh)
  obtain ⟨bins, hbins⟩ := Binning.exists_binsAt wellFormed fit filled he
  obtain ⟨pss, hpss⟩ := Binning.exists_parts wellFormed fit he hbins
  unfold workAt
  rw [← node, hbins, Result.bind_ok, hpss]
  exact ⟨_, rfl⟩

/-- The batch for a node is made of all its bins. -/
theorem isBatchOf_byNode {w : NodeWork} {node : Address} (h : w.IsAt b node) :
    ∃ bins, b.binsAt node = .ok bins ∧ (w.byNode f).IsBatchOf bins := by
  obtain ⟨hosts, pss⟩ := w
  obtain ⟨bins, hbins, nonempty, hpss, each⟩ := h
  refine ⟨bins, hbins, pss, hpss, rfl, ?_⟩
  cases each with
  | nil => exact absurd rfl nonempty
  | cons first _ =>
    rw [List.flatten_cons]
    exact List.append_ne_nil_of_left_ne_nil first.2 _

/-- Each batch for an extent is made of one bin, in the order of the bins. -/
theorem isBatchOf_byExtent {w : NodeWork} {node : Address} (h : w.IsAt b node) :
    ∃ bins, b.binsAt node = .ok bins ∧
      List.Forall₂ (fun bin split => split.IsBatchOf [bin]) bins (w.byExtent f) := by
  obtain ⟨bins, hbins, -, -, each⟩ := h
  refine ⟨bins, hbins, List.forall₂_map_right_iff.mpr (each.imp fun bin ps ⟨hps, nonempty⟩ => ?_)⟩
  have alone : [bin].mapM parts = .ok [ps] := by
    rw [List.mapM_cons, hps]
    rfl
  refine ⟨[ps], alone, ?_, ?_⟩
  · rw [List.flatten_singleton]
    rfl
  · rw [List.flatten_singleton]
    exact nonempty

/-- The bins of the nodes are those that the binning is walked by, so there is one batch for each
extent on each node. -/
theorem isBatchOf_splitsOf_extent {nodes : List Address} (hnodes : b.locations = .ok nodes)
    {ws : List NodeWork} (h : List.Forall₂ (fun node w => w.IsAt b node) nodes ws) :
    ∃ bins, b.items = .ok bins ∧ List.Forall₂ (fun bin split => split.IsBatchOf [bin]) bins
      (splitsOf f (some .extent) ws) := by
  have each := h.imp fun _ (w : NodeWork) (at_node : w.IsAt b _) =>
    isBatchOf_byExtent (f := f) at_node
  obtain ⟨binss, hbinss, each⟩ :=
    Result.exists_mapM_of_forall₂ (R := fun bins (w : NodeWork) =>
      List.Forall₂ (fun bin split => split.IsBatchOf [bin]) bins (w.byExtent f)) each
  exact ⟨binss.flatten, Binning.items_eq_ok_iff.mpr ⟨nodes, binss, hnodes, hbinss, rfl⟩,
    List.rel_flatten (List.forall₂_map_right_iff.mpr each)⟩

/-- In batches or not, the splits of adjusted ranges read the same parts in the same order and at
the same hosts, and if one shape fails, so do the others. Batches are never empty: there is one for
each extent on each node, or one for each node. If the ranges fit their extents, the splits are
made.

The lookups answer, and nothing else keeps a node from being resolved: its address is a text, and
the host book has room. -/
theorem reads_alike (answers : c.Answers) {as : List Assignment}
    (texts : ∀ a ∈ as, ∃ address, a.location = .text address) {size : Int} (room : 1 ≤ size)
    (f : SplitFrame) (scan : TableScan) (s : Session ω) :
    let b := Binning.ofAssignments as
    let made (shape : Option Grouping) : Result (List Split) :=
      (outcome (make c f b (scan.adjusted shape) size) s).1
    b.WellFormed ∧
    (∀ shape, (made shape).map (List.flatMap Split.reads) =
      (made none).map (List.flatMap Split.reads)) ∧
    (∀ splits, made (some .extent) = .ok splits → ∃ bins, b.items = .ok bins ∧
      (bins.map fun bin => (bin.location, bin.extent)).Perm b.pairs ∧
      List.Forall₂ (fun bin split => split.IsBatchOf [bin]) bins splits) ∧
    (∀ splits, made (some .node) = .ok splits → ∃ nodes, b.locations = .ok nodes ∧
      nodes.Perm b.bins.keys ∧
      List.Forall₂ (fun node split => ∃ bins, b.binsAt node = .ok bins ∧ split.IsBatchOf bins)
        nodes splits) ∧
    (Assignment.Fit as → ∀ shape, ∃ splits, made shape = .ok splits) := by
  intro b made
  have wellFormed : b.WellFormed := Binning.wellFormed_ofAssignments as
  have filled : b.Filled := Binning.filled_ofAssignments as
  have node_texts : ∀ e ∈ b.bins, ∃ address, e.1 = .text address :=
    fun e he => Binning.exists_text_of_mem texts he
  obtain ⟨hosted, same, all⟩ := exists_works answers wellFormed filled node_texts room f scan s
  have all (shape : Option Grouping) : made shape = (works b hosted).map (splitsOf f shape) :=
    all shape
  -- whatever the shape, splits that were made are made of the work on the nodes
  have work_of_made {shape : Option Grouping} {splits : List Split} (h : made shape = .ok splits) :
      ∃ nodes ws, b.locations = .ok nodes ∧
        List.Forall₂ (fun node w => w.IsAt b node) nodes ws ∧ splitsOf f shape ws = splits := by
    obtain ⟨ws, hws, e⟩ := Result.map_eq_ok.mp ((all shape).symm.trans h)
    obtain ⟨nodes, hnodes, each⟩ := forall₂_of_works wellFormed filled same hws
    exact ⟨nodes, ws, hnodes, each, e⟩
  refine ⟨wellFormed, fun shape => ?_, fun splits h => ?_, fun splits h => ?_, fun fit shape => ?_⟩
  · have read (shape : Option Grouping) : (made shape).map (List.flatMap Split.reads) =
        (works b hosted).map (List.flatMap NodeWork.reads) := by
      rw [all shape, Result.map_map]
      simp only [reads_splitsOf]
    rw [read shape, read none]
  · obtain ⟨nodes, ws, hnodes, each, rfl⟩ := work_of_made h
    obtain ⟨bins, hbins, batches⟩ := isBatchOf_splitsOf_extent hnodes each
    exact ⟨bins, hbins, Binning.perm_pairs wellFormed hbins, batches⟩
  · obtain ⟨nodes, ws, hnodes, each, rfl⟩ := work_of_made h
    refine ⟨nodes, hnodes, Sorting.perm_of_sort? hnodes, List.forall₂_map_right_iff.mpr ?_⟩
    exact each.imp fun node w at_node => isBatchOf_byNode at_node
  · obtain ⟨ws, hws⟩ := exists_works_of_fit wellFormed filled node_texts fit.ofAssignments same
    refine ⟨splitsOf f shape ws, ?_⟩
    rw [all shape, hws]
    rfl

end

/-- A range across the halves of a table that is split once: the upper half is on one node, and the
lower half is on this node and another one. -/
def halvesAssignments : List Assignment := [⟨.text "a:1", .upperHalf, .acrossHalves⟩,
  ⟨.text "a:1", .lowerHalf, .acrossHalves⟩, ⟨.text "b:1", .lowerHalf, .acrossHalves⟩]

/-- The splits of this range. -/
def halvesSplits (shape : Option Grouping) : Result (List Split) :=
  (outcome (make Registry.collaborators ⟨.text "t", .text "1", .ofScan .plain []⟩
    (.ofAssignments halvesAssignments) (TableScan.plain.adjusted shape) 1)
    (Registry.staleSession .halfHosted)).1

/-- They are made in each shape and read the same, with three batches for the extents on the nodes
and two for the nodes. -/
theorem reads_alike_halves : ∃ singles extents nodes, halvesSplits none = .ok singles ∧
    halvesSplits (some .extent) = .ok extents ∧ halvesSplits (some .node) = .ok nodes ∧
    extents.flatMap Split.reads = singles.flatMap Split.reads ∧
    nodes.flatMap Split.reads = singles.flatMap Split.reads ∧
    extents.length = 3 ∧ nodes.length = 2 := by
  have answers : Registry.collaborators.Answers := by
    intro host scene
    refine ⟨.text host, scene, rfl, fun none => ?_⟩
    cases none
  have texts : ∀ a ∈ halvesAssignments, ∃ address, a.location = .text address := by
    simp [halvesAssignments]
  have fit : Assignment.Fit halvesAssignments := {
    ids := by simp [halvesAssignments, Extent.lowerHalf, Extent.upperHalf]
    keys := by decide
    overlaps := by
      simp only [halvesAssignments, List.forall_mem_cons]
      decide }
  obtain ⟨-, alike, perExtent, perNode, made⟩ := reads_alike answers texts (le_refl 1)
    ⟨.text "t", .text "1", .ofScan .plain []⟩ .plain (Registry.staleSession .halfHosted)
  obtain ⟨singles, hsingles⟩ := made fit none
  obtain ⟨extents, hextents⟩ := made fit (some .extent)
  obtain ⟨nodes, hnodes⟩ := made fit (some .node)
  have extents_alike := alike (some .extent)
  have nodes_alike := alike (some .node)
  rw [hsingles, hextents] at extents_alike
  rw [hsingles, hnodes] at nodes_alike
  obtain ⟨bins, -, pairs, batches⟩ := perExtent extents hextents
  obtain ⟨keys, -, perm, batches'⟩ := perNode nodes hnodes
  have three : extents.length = 3 := by
    rw [← batches.length_eq, ← List.length_map, pairs.length_eq]
    decide
  have two : nodes.length = 2 := by
    rw [← batches'.length_eq, perm.length_eq]
    decide
  exact ⟨singles, extents, nodes, hsingles, hextents, hnodes, Except.ok.inj extents_alike,
    Except.ok.inj nodes_alike, three, two⟩

end Splitting

end ScanPlanner
