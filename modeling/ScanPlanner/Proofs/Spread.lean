import ScanPlanner.Locator
import ScanPlanner.Offline
import ScanPlanner.Proofs.Binning
import ScanPlanner.Proofs.Covering

/-!
# Ranges spread over tablets

A binning of ranges is `Binning.spread`: each range assigned to each tablet that covers it, with a
node of its own for each tablet. It is what locating gives for the ranges that it locates
(`Located.ofTablets_eq_ok`) and what the assignment of ranges of offline tables gives, which gives
nothing unless it can assign all of them (`Offline.ofTablets_eq_ok`).

Among legible tablets neither of them fails (`Located.ofTablets_of_legible`,
`Offline.ofTablets_of_released`, `Offline.ofTablets_of_not_released`).
-/

namespace ScanPlanner

namespace Tablet

/-- A range, assigned to each tablet that covers it. -/
def assigned (node : Tablet → Address) (tablets : List Tablet) (range : KeyRange) :
    List Assignment :=
  (coverers tablets range).map fun t => ⟨node t, t.extent, range⟩

end Tablet

/-- The binning of ranges that assigns each to the tablets that cover it, where `node` tells the
node of a tablet. -/
def Binning.spread (node : Tablet → Address) (tablets : List Tablet) (ranges : List KeyRange) :
    Binning :=
  .ofAssignments (ranges.flatMap (Tablet.assigned node tablets))

/-- What an extent on a node has been given: each range once for each of its coverers that is that
extent on that node. -/
theorem Binning.ranges_spread (node : Tablet → Address) (tablets : List Tablet)
    (ranges : List KeyRange) (location : Address) (extent : Extent) :
    (spread node tablets ranges).ranges location extent = ranges.flatMap fun r =>
      ((Tablet.coverers tablets r).filter fun t =>
        node t == location && t.extent == extent).map fun _ => r := by
  unfold spread
  rw [ranges_ofAssignments, List.filter_flatMap, List.map_flatMap]
  refine List.flatMap_congr fun r _ => ?_
  unfold Tablet.assigned
  rw [List.filter_map, List.map_map]
  rfl

/-! ## Online tables -/

/-- The node that hosts a tablet; one that is not hosted has the empty address. -/
def Tablet.host (t : Tablet) : Address := t.location.getD (.text "")

namespace Located

/-- Tablets cover the range, and each of them is hosted. -/
def isLocated (tablets : List Tablet) (range : KeyRange) : Bool :=
  match Tablet.covering? tablets range with
  | .ok (some found) => found.all fun t => t.location.isSome
  | _ => false

/-- The hosts of covering tablets are told just if each of the tablets is hosted. One that is not
makes the range unlocated. -/
theorem hosts?_eq (found : List Tablet) :
    hosts? found = if found.all fun t => t.location.isSome then
      some (found.map fun t => (t.host, t.extent)) else none := by
  unfold hosts?
  induction found with
  | nil => rfl
  | cons t ts ih =>
    rw [List.mapM_cons, ih, List.all_cons, List.map_cons]
    cases hl : t.location with
    | none => simp
    | some location => cases ts.all fun t => t.location.isSome <;> simp [hl, Tablet.host]

/-- What one range changes. -/
def more (tablets : List Tablet) (l : Located) (range : KeyRange) : Located :=
  if isLocated tablets range then
    { l with binning := l.binning.addAll (Tablet.assigned Tablet.host tablets range) }
  else { l with unresolved := l.unresolved ++ [range] }

/-- A range that could be treated has coverings to choose from, and it is located or reported
back. -/
theorem addRange_eq_ok {tablets : List Tablet} {l l' : Located} {range : KeyRange}
    (h : addRange tablets l range = .ok l') :
    (∃ found, Tablet.covering? tablets range = .ok found) ∧ l' = more tablets l range := by
  unfold addRange at h
  obtain ⟨found, hfound, h⟩ := Result.bind_eq_ok.mp h
  refine ⟨⟨found, hfound⟩, ?_⟩
  unfold more isLocated Tablet.assigned Tablet.coverers
  rw [hfound]
  cases found with
  | none =>
    cases h
    rfl
  | some found =>
    rw [Option.bind_some, hosts?_eq] at h
    cases hall : found.all fun t => t.location.isSome with
    | false =>
      simp only [hall] at h ⊢
      cases h
      rfl
    | true =>
      simp only [hall, if_true] at h ⊢
      -- all of the covering tablets are hosted, so the range is assigned to each
      obtain ⟨binning, hbinning, h⟩ := Result.bind_eq_ok.mp h
      cases h
      obtain ⟨-, added⟩ := Binning.eq_addAll_of_foldlM (P := fun _ => True)
        (fun b x b' h => ⟨trivial, Binning.assign_eq_ok h⟩) hbinning
      rw [added, List.flatMap_map, List.map_eq_flatMap]

/-- Among legible tablets each range can be treated: its covering can be found, and whatever it is
assigned to can be looked up. -/
theorem addRange_of_legible {tablets : List Tablet} {ranges : List KeyRange}
    (h : Tablet.Legible tablets ranges) {range : KeyRange} (hr : range ∈ ranges) (l : Located) :
    addRange tablets l range = .ok (more tablets l range) := by
  suffices ∃ l', addRange tablets l range = .ok l' by
    obtain ⟨l', hl'⟩ := this
    rw [hl', (addRange_eq_ok hl').2]
  obtain ⟨found, hfound⟩ := h.exists_covering? hr
  unfold addRange
  rw [hfound, Result.bind_ok]
  cases found with
  | none => exact ⟨_, rfl⟩
  | some found =>
    rw [Option.bind_some, hosts?_eq]
    cases hall : found.all fun t => t.location.isSome with
    | false => exact ⟨_, rfl⟩
    | true =>
      have sub := (Tablet.covering?_eq_some hfound).1
      -- hosts and extents that can be keys are always added
      have assigns : ∀ x ∈ found.map fun t => (t.host, t.extent), ∀ b : Binning,
          b.assign x.1 x.2 range = .ok (b.addAll [⟨x.1, x.2, range⟩]) := by
        intro x hx b
        obtain ⟨t, ht, rfl⟩ := List.mem_map.mp hx
        obtain ⟨a, ha⟩ := Option.isSome_iff_exists.mp (List.all_eq_true.mp hall t ht)
        have scalar : t.host.isScalar = true := by
          rw [Tablet.host, ha]
          exact h.addresses t (sub.subset ht) a (.inl ha)
        exact Binning.assign_of_isKey b range scalar (h.ids t (sub.subset ht))
      have all := Binning.foldlM_eq_addAll assigns l.binning
      exact ⟨_, by simp only [if_true, all]; rfl⟩

/-- Over all ranges, those that are located are spread over their coverers, and the others are
reported back in the order in which they were given. -/
theorem foldl_more (tablets : List Tablet) (ranges : List KeyRange) (l : Located) :
    ranges.foldl (more tablets) l =
      ⟨l.binning.addAll ((ranges.filter (isLocated tablets)).flatMap
          (Tablet.assigned Tablet.host tablets)),
        l.unresolved ++ ranges.filter fun r => !isLocated tablets r⟩ := by
  induction ranges generalizing l with
  | nil => simp
  | cons r rs ih =>
    rw [List.foldl_cons, ih]
    cases hr : isLocated tablets r <;> simp [more, hr, Binning.addAll_append]

/-- The binning has the located ranges, spread over the tablets that cover them, and the others are
reported back. -/
theorem ofTablets_eq_ok {tablets : List Tablet} {ranges : List KeyRange} {l : Located}
    (h : ofTablets tablets ranges = .ok l) :
    l = ⟨.spread Tablet.host tablets (ranges.filter (isLocated tablets)),
      ranges.filter fun r => !isLocated tablets r⟩ := by
  -- both are folds over the ranges, and each step of one is a step of the other
  suffices l = ranges.foldl (more tablets) empty by
    rw [this, foldl_more]
    rfl
  unfold ofTablets at h
  generalize empty = l₀ at h ⊢
  induction ranges generalizing l₀ with
  | nil => exact (Except.ok.inj h).symm
  | cons r rs ih =>
    rw [List.foldlM_cons] at h
    obtain ⟨mid, hmid, h⟩ := Result.bind_eq_ok.mp h
    rw [List.foldl_cons, ← (addRange_eq_ok hmid).2]
    exact ih mid h

/-- Ranges are located among tablets only if it can be told which of them cover each. So from an
answer something is learned about every range. -/
theorem exists_covering?_of_ofTablets {tablets : List Tablet} {ranges : List KeyRange} {l : Located}
    (h : ofTablets tablets ranges = .ok l) :
    ∀ r ∈ ranges, ∃ found, Tablet.covering? tablets r = .ok found := by
  unfold ofTablets at h
  generalize empty = l₀ at h
  induction ranges generalizing l₀ with
  | nil => exact fun r hr => (List.not_mem_nil hr).elim
  | cons r rs ih =>
    rw [List.foldlM_cons] at h
    obtain ⟨mid, hmid, h⟩ := Result.bind_eq_ok.mp h
    exact List.forall_mem_cons.mpr ⟨(addRange_eq_ok hmid).1, ih mid h⟩

/-- Among legible tablets ranges are located, spread over the tablets that cover them, or else
reported back in their order. -/
theorem ofTablets_of_legible {tablets : List Tablet} {ranges : List KeyRange}
    (h : Tablet.Legible tablets ranges) :
    ofTablets tablets ranges =
      .ok ⟨.spread Tablet.host tablets (ranges.filter (isLocated tablets)),
        ranges.filter fun r => !isLocated tablets r⟩ := by
  suffices ∃ l, ofTablets tablets ranges = .ok l by
    obtain ⟨l, hl⟩ := this
    rw [hl, ofTablets_eq_ok hl]
  have each : ∀ r ∈ ranges, ∀ l, addRange tablets l r = .ok (more tablets l r) :=
    fun r hr => addRange_of_legible h hr
  clear h
  unfold ofTablets
  generalize empty = l₀
  -- induction on the ranges, for whatever was located before
  induction ranges generalizing l₀ with
  | nil => exact ⟨l₀, rfl⟩
  | cons r rs ih =>
    rw [List.foldlM_cons, each r (by simp) l₀, Result.bind_ok]
    exact ih (fun r hr => each r (by simp [hr])) _

/-- No range is reported back just if each of them is located. -/
theorem isEmpty_unresolved (tablets : List Tablet) (ranges : List KeyRange) :
    (ranges.filter fun r => !isLocated tablets r).isEmpty = ranges.all (isLocated tablets) := by
  rw [Bool.eq_iff_iff, List.isEmpty_iff, List.filter_eq_nil_iff, List.all_eq_true]
  simp

/-- A complete answer has each of the ranges located, and no others, so its binning is spread over
all ranges. -/
theorem spread_of_isComplete {tablets : List Tablet} {ranges : List KeyRange} {l : Located}
    (h : ofTablets tablets ranges = .ok l) (complete : l.isComplete = true) :
    (∀ r ∈ ranges, isLocated tablets r = true) ∧
      l.binning = .spread Tablet.host tablets ranges := by
  have split := ofTablets_eq_ok h
  rw [split] at complete
  have each := List.all_eq_true.mp ((isEmpty_unresolved tablets ranges).symm.trans complete)
  refine ⟨each, ?_⟩
  rw [split, List.filter_eq_self.mpr each]

/-- A range that is located is covered by tablets without a gap. -/
theorem cover_of_isLocated {tablets : List Tablet} {range : KeyRange}
    (h : isLocated tablets range = true) : Tablet.Cover tablets range := by
  unfold isLocated at h
  split at h
  · next found hfound => exact ⟨found, hfound⟩
  · cases h

end Located

/-! ## Offline tables -/

namespace Offline

/-- Tablets cover the range, and none of them is hosted. -/
def isReleased (tablets : List Tablet) (range : KeyRange) : Bool :=
  match Tablet.covering? tablets range with
  | .ok (some found) => found.all fun t => t.location.isNone
  | _ => false

/-- A range that is covered by released tablets is covered without a gap. -/
theorem cover_of_isReleased {tablets : List Tablet} {range : KeyRange}
    (h : isReleased tablets range = true) : Tablet.Cover tablets range := by
  unfold isReleased at h
  split at h
  · next found hfound => exact ⟨found, hfound⟩
  · cases h

/-- A tablet that a range could be assigned to is not hosted, and gets the range at its last
address. -/
theorem addTablet_eq_ok {range : KeyRange} {b b' : Binning} {t : Tablet}
    (h : addTablet range b t = .ok b') :
    t.location = none ∧ b' = b.addAll [⟨lastAddress t, t.extent, range⟩] := by
  unfold addTablet at h
  -- a tablet that still has a host is an obstacle
  cases hl : t.location with
  | some location =>
    rw [hl] at h
    cases h
  | none =>
    rw [hl] at h
    refine ⟨rfl, ?_⟩
    cases ha : b.assign (lastAddress t) t.extent range with
    | error f =>
      simp only [ha] at h
      cases h
    | ok b'' =>
      simp only [ha] at h
      cases h
      exact Binning.assign_eq_ok ha

/-- A range that could be treated is covered by released tablets, and each of them gets it on the
node that hosted it last. -/
theorem addRange_eq_ok {tablets : List Tablet} {b b' : Binning} {range : KeyRange}
    (h : addRange tablets b range = .ok b') :
    isReleased tablets range = true ∧
      b' = b.addAll (Tablet.assigned lastAddress tablets range) := by
  unfold addRange at h
  unfold isReleased Tablet.assigned Tablet.coverers
  cases hc : Tablet.covering? tablets range with
  | error f =>
    rw [hc] at h
    cases h
  | ok found =>
    rw [hc] at h
    cases found with
    | none => cases h
    | some found =>
      obtain ⟨released, added⟩ := Binning.eq_addAll_of_foldlM (fun b t b' h => addTablet_eq_ok h) h
      refine ⟨List.all_eq_true.mpr fun t ht => ?_, ?_⟩
      · rw [released t ht, Option.isNone_none]
      · rw [added, List.map_eq_flatMap]

/-- A binning is given only if each range is covered by tablets none of which is hosted, and then
it has the ranges, spread over these. -/
theorem ofTablets_eq_ok {tablets : List Tablet} {ranges : List KeyRange} {b : Binning}
    (h : ofTablets tablets ranges = .ok b) :
    (∀ r ∈ ranges, isReleased tablets r = true) ∧ b = .spread lastAddress tablets ranges :=
  Binning.eq_addAll_of_foldlM (fun _ _ _ h => addRange_eq_ok h) h

/-! ### Legible tablets -/

/-- A walk along items that meets one that is no good stops there with an obstacle, whatever was
done for the items before it. -/
theorem exists_obstacle_of_foldlM {β : Type} {f : Binning → β → Except Setback Binning}
    {p : β → Bool} {xs : List β} (good : ∀ x ∈ xs, p x = true → ∀ b, ∃ b', f b x = .ok b')
    (bad : ∀ x ∈ xs, p x = false → ∀ b, ∃ why, f b x = .error (.obstacle why))
    (h : xs.all p = false) (b : Binning) : ∃ why, xs.foldlM f b = .error (.obstacle why) := by
  induction xs generalizing b with
  | nil => cases h
  | cons x xs ih =>
    rw [List.foldlM_cons]
    cases hx : p x with
    | false =>
      -- nothing that was added so far comes out
      obtain ⟨why, e⟩ := bad x (by simp) hx b
      exact ⟨why, by rw [e]; rfl⟩
    | true =>
      obtain ⟨b', e⟩ := good x (by simp) hx b
      rw [e]
      rw [List.all_cons, hx, Bool.true_and] at h
      exact ih (fun y hy => good y (by simp [hy])) (fun y hy => bad y (by simp [hy])) h b'

/-- The last address of a legible tablet can be looked up; a tablet that was never hosted has the
empty one. -/
theorem isScalar_lastAddress {tablets : List Tablet} {ranges : List KeyRange}
    (h : Tablet.Legible tablets ranges) {t : Tablet} (ht : t ∈ tablets) :
    (lastAddress t).isScalar = true := by
  unfold lastAddress
  cases hl : t.lastLocation with
  | none => rfl
  | some a =>
    simp only
    split
    · exact h.addresses t ht a (.inr hl)
    · rfl

/-- A legible tablet that is not hosted takes the range. Its extent and its last address can be
looked up, which adding it to the binning needs. -/
theorem addTablet_of_released {tablets : List Tablet} {ranges : List KeyRange}
    (h : Tablet.Legible tablets ranges) {t : Tablet} (ht : t ∈ tablets) (hl : t.location = none)
    (range : KeyRange) (b : Binning) :
    addTablet range b t = .ok (b.addAll [⟨lastAddress t, t.extent, range⟩]) := by
  unfold addTablet
  rw [hl]
  simp only
  rw [Binning.assign_of_isKey b range (isScalar_lastAddress h ht) (h.ids t ht)]
  rfl

/-- A range that is covered by released tablets goes to each of them. -/
theorem addRange_of_released {tablets : List Tablet} {ranges : List KeyRange}
    (h : Tablet.Legible tablets ranges) {range : KeyRange}
    (hr : isReleased tablets range = true) (b : Binning) :
    addRange tablets b range = .ok (b.addAll (Tablet.assigned lastAddress tablets range)) := by
  unfold isReleased at hr
  unfold addRange Tablet.assigned Tablet.coverers
  cases hc : Tablet.covering? tablets range with
  | error f => simp [hc] at hr
  | ok found =>
    cases found with
    | none => simp [hc] at hr
    | some found =>
      rw [hc] at hr
      have sub := (Tablet.covering?_eq_some hc).1
      rw [List.map_eq_flatMap]
      refine Binning.foldlM_eq_addAll (fun t ht b => ?_) b
      -- the tablets that cover a released range have no host
      have none := Option.isNone_iff_eq_none.mp (List.all_eq_true.mp hr t ht)
      exact addTablet_of_released h (sub.subset ht) none range b

/-- A range that is not covered, or by a tablet that is hosted, is an obstacle and no failure. So it
ends the attempt without a binning, and another one follows. -/
theorem addRange_of_not_released {tablets : List Tablet} {ranges : List KeyRange}
    (h : Tablet.Legible tablets ranges) {range : KeyRange} (hr : range ∈ ranges)
    (hn : isReleased tablets range = false) (b : Binning) :
    ∃ why, addRange tablets b range = .error (.obstacle why) := by
  obtain ⟨found, hc⟩ := h.exists_covering? hr
  unfold isReleased at hn
  unfold addRange
  rw [hc] at hn ⊢
  cases found with
  | none => exact ⟨_, rfl⟩
  | some found =>
    have sub := (Tablet.covering?_eq_some hc).1
    -- up to the first tablet that is hosted the range is assigned, and there the walk stops
    refine exists_obstacle_of_foldlM ?_ ?_ hn b
    · intro t ht none b
      have none := Option.isNone_iff_eq_none.mp none
      exact ⟨_, addTablet_of_released h (sub.subset ht) none range b⟩
    · intro t ht hosted b
      unfold addTablet
      cases hl : t.location with
      | none => simp [hl] at hosted
      | some a => exact ⟨_, rfl⟩

/-- Ranges each of which is covered by released tablets are assigned to the last hosts of these. -/
theorem ofTablets_of_released {tablets : List Tablet} {ranges : List KeyRange}
    (h : Tablet.Legible tablets ranges) (hr : ranges.all (isReleased tablets) = true) :
    ofTablets tablets ranges = .ok (.spread lastAddress tablets ranges) :=
  Binning.foldlM_eq_addAll (fun r hmem b =>
    addRange_of_released h (List.all_eq_true.mp hr r hmem) b) .empty

/-- If one of the ranges is no such one, none of them is assigned, and an obstacle is what comes
out. -/
theorem ofTablets_of_not_released {tablets : List Tablet} {ranges : List KeyRange}
    (h : Tablet.Legible tablets ranges) (hr : ranges.all (isReleased tablets) = false) :
    ∃ why, ofTablets tablets ranges = .error (.obstacle why) := by
  refine exists_obstacle_of_foldlM ?_ ?_ hr .empty
  · intro r _ released b
    exact ⟨_, addRange_of_released h released b⟩
  · intro r hmem not_released b
    exact addRange_of_not_released h hmem not_released b

end Offline

end ScanPlanner
