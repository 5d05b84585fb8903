import ScanPlanner.Proofs.Comparable
import ScanPlanner.Proofs.Coverage
import ScanPlanner.Proofs.TabletRecord

/-!
# The holders of ranges

To keep ranges whole, a binning is turned around: for each range, the extents and nodes that it has
been assigned to (`Splitting.owners`). What is lost on the way is the order in which the ranges and
the tablets came. It is found again by sorting, if the ranges say in truth values whether their ends
are closed (`KeyRange.Boolean`): such ranges are the same if they are equal, and their order is that
of the cuts where they begin and end (`KeyRange.pairwise_lt_of_sort`).
-/

namespace ScanPlanner

/-! ## First places -/

section

variable {α : Type} [DecidableEq α]

theorem eraseDups_induction {P : List α → Prop} (nil : P [])
    (cons : ∀ a as, P (as.filter fun b => !b == a) → P (a :: as)) : ∀ as, P as
  | [] => nil
  | a :: as => cons a as (eraseDups_induction nil cons (as.filter fun b => !b == a))
termination_by as => as.length
decreasing_by exact Nat.lt_succ_of_le (List.length_filter_le _ _)

/-- Dropping repetitions leaves the items in their order. -/
theorem sublist_eraseDups (as : List α) : as.eraseDups.Sublist as := by
  -- the items behind the first one are filtered before repetitions among them are dropped
  induction as using eraseDups_induction with
  | nil => exact List.Sublist.slnil
  | cons a as ih =>
    rw [List.eraseDups_cons]
    exact (ih.trans List.filter_sublist).cons_cons a

/-- Without repetitions no item comes twice. -/
theorem nodup_eraseDups (as : List α) : as.eraseDups.Nodup := by
  induction as using eraseDups_induction with
  | nil => exact List.nodup_nil
  | cons a as ih =>
    rw [List.eraseDups_cons, List.nodup_cons]
    refine ⟨fun again => ?_, ih⟩
    simpa using List.mem_eraseDups.mp again

end

namespace Splitting

/-- The values seen, with one more at the end unless it has been seen. -/
def see (seen : List Json) (x : Json) : List Json := if seen.contains x then seen else seen ++ [x]

/-- A value has been seen when it was seen before, or is the one that is seen now. -/
theorem contains_see (seen : List Json) (x y : Json) :
    (see seen x).contains y = (seen.contains y || y == x) := by
  unfold see
  by_cases h : seen.contains x = true
  · rw [if_pos h]
    by_cases same : (y == x) = true
    · obtain ⟨x', hx', e⟩ := List.contains_iff_exists_mem_beq.mp h
      rw [same, Bool.or_true]
      exact List.contains_iff_exists_mem_beq.mpr ⟨x', hx', BEq.trans same e⟩
    · rw [Bool.not_eq_true] at same
      rw [same, Bool.or_false]
  · rw [if_neg h, List.contains_eq_any_beq, List.contains_eq_any_beq, List.any_append]
    simp

/-- After some values those have been seen that were seen before or are equal to one of them. -/
theorem contains_foldl_see (seen xs : List Json) (y : Json) :
    (xs.foldl see seen).contains y = (seen.contains y || xs.contains y) := by
  induction xs generalizing seen with
  | nil => simp
  | cons x xs ih => rw [List.foldl_cons, ih, contains_see, List.contains_cons, Bool.or_assoc]

/-- What is added to the values seen are the others, each at its first place. With nothing seen
before, these are the values without repetitions. -/
theorem foldl_see (seen xs : List Json) :
    xs.foldl see seen = seen ++ (xs.filter fun x => !seen.contains x).eraseDups := by
  induction xs generalizing seen with
  | nil => simp
  | cons x xs ih =>
    rw [List.foldl_cons, ih]
    -- a value that was seen before is passed over; another one stands at its first place, and is
    -- seen from then on
    by_cases h : seen.contains x = true
    · rw [see, if_pos h, List.filter_cons_of_neg (by simp [h])]
    · rw [List.filter_cons_of_pos (by simpa using h), List.eraseDups_cons, List.filter_filter]
      simp only [contains_see, Bool.not_or]
      rw [see, if_neg h, List.append_assoc, List.singleton_append]
      simp only [Bool.and_comm]

theorem distinct_eq_eraseDups (xs : List Json) : distinct xs = xs.eraseDups := by
  show xs.foldl see [] = _
  rw [foldl_see]
  simp

/-- Values all of which have been seen add nothing. -/
theorem foldl_see_of_seen {seen xs : List Json} (h : ∀ x ∈ xs, seen.contains x = true) :
    xs.foldl see seen = seen := by
  have none : xs.filter (fun x => !seen.contains x) = [] :=
    List.filter_eq_nil_iff.mpr fun x hx => by simp [h x hx]
  rw [foldl_see, none]
  simp

/-- What comes from an item a second time has been seen, so the items that repeat it may be
dropped. -/
theorem foldl_see_flatMap_filter {α : Type} [DecidableEq α] (f : α → List Json) {a : α}
    {seen : List Json} (h : ∀ x ∈ f a, seen.contains x = true) (as : List α) :
    ((as.filter fun b => !b == a).flatMap f).foldl see seen = (as.flatMap f).foldl see seen := by
  induction as generalizing seen with
  | nil => rfl
  | cons b as ih =>
    rw [List.flatMap_cons, List.foldl_append]
    -- what comes from an equal item has been seen already
    by_cases same : b = a
    · rw [List.filter_cons_of_neg (by simp [same]), same, foldl_see_of_seen h]
      exact ih h
    · rw [List.filter_cons_of_pos (by simp [same]), List.flatMap_cons, List.foldl_append]
      refine ih fun x hx => ?_
      rw [contains_foldl_see, h x hx, Bool.true_or]

/-- Items that come again add nothing to the first places of what comes from them. A node that holds
several extents of a range has its hosts counted once. -/
theorem eraseDups_flatMap_eraseDups {α : Type} [DecidableEq α] (f : α → List Json) (as : List α) :
    (as.eraseDups.flatMap f).eraseDups = (as.flatMap f).eraseDups := by
  rw [← distinct_eq_eraseDups, ← distinct_eq_eraseDups]
  unfold distinct
  show (as.eraseDups.flatMap f).foldl see [] = (as.flatMap f).foldl see []
  generalize [] = seen
  induction as using eraseDups_induction generalizing seen with
  | nil => rfl
  | cons a as ih =>
    rw [List.eraseDups_cons, List.flatMap_cons, List.flatMap_cons, List.foldl_append,
      List.foldl_append, ih]
    refine foldl_see_flatMap_filter f (fun x hx => ?_) as
    rw [contains_foldl_see]
    exact Bool.or_eq_true_iff.mpr (.inr (List.contains_iff_exists_mem_beq.mpr ⟨x, hx, BEq.rfl⟩))

end Splitting

/-! ## Ranges that are told apart by their cuts -/

namespace KeyRange

/-- Whether an end of the range is closed is said by a truth value. A null says the same as a false,
and the two ranges are not equal. -/
structure Boolean (r : KeyRange) : Prop where
  lower : ∃ b, flag r.lower = .bool b
  upper : ∃ b, flag r.upper = .bool b

theorem boolean_everything : everything.Boolean := ⟨⟨_, rfl⟩, ⟨_, rfl⟩⟩

/-- A range whose ends say in truth values whether they are closed can be looked up if its keys can
be compared. -/
theorem Boolean.isKey {r : KeyRange} (h : r.Boolean) (sort : OneSort r.keys) : r.isKey = true := by
  obtain ⟨b, lower⟩ := h.lower
  obtain ⟨b', upper⟩ := h.upper
  have parts : r.keys.all RowKey.isScalar = true :=
    List.all_eq_true.mpr fun k hk => sort.isScalar hk
  unfold KeyRange.isKey
  rw [lower, upper, parts]
  rfl

/-- Where the range comes in the order: by the cut where it begins, then by the one where it
ends. -/
def rank (r : KeyRange) : Cut ×ₗ Cut := toLex (r.lo, r.hi)

theorem lt_iff_rank_lt {a b : KeyRange} : a < b ↔ a.rank < b.rank := by
  unfold rank
  rw [Prod.Lex.toLex_lt_toLex]
  rfl

/-- A lower end that says in a truth value whether it is closed is told by its cut. -/
theorem lowerAt_ofLower {e : Option Edge} (h : ∃ b, flag e = .bool b) :
    lowerAt (Cut.ofLower e) = e := by
  obtain ⟨b, h⟩ := h
  rcases e with _ | ⟨k, inclusive⟩
  · rfl
  · cases h
    cases b <;> rfl

/-- An upper end that says in a truth value whether it is closed is told by its cut. -/
theorem upperAt_ofUpper {e : Option Edge} (h : ∃ b, flag e = .bool b) :
    upperAt (Cut.ofUpper e) = e := by
  obtain ⟨b, h⟩ := h
  rcases e with _ | ⟨k, inclusive⟩
  · rfl
  · cases h
    cases b <;> rfl

/-- Such a range is told by its span. -/
theorem Boolean.ofSpan_span {r : KeyRange} (h : r.Boolean) : ofSpan r.span = r := by
  have lower : lowerAt r.span.lo = r.lower := lowerAt_ofLower h.lower
  have upper : upperAt r.span.hi = r.upper := upperAt_ofUpper h.upper
  obtain ⟨l, u, _⟩ := r
  unfold ofSpan
  congr

theorem Boolean.eq_of_span_eq {a b : KeyRange} (ha : a.Boolean) (hb : b.Boolean)
    (h : a.span = b.span) : a = b := by
  rw [← ha.ofSpan_span, h, hb.ofSpan_span]

theorem Boolean.eq_of_beq {a b : KeyRange} (ha : a.Boolean) (hb : b.Boolean)
    (h : (a == b) = true) : a = b :=
  ha.eq_of_span_eq hb (span_eq_of_beq h)

/-- Two such ranges are the same if they have the same place in the order: nothing else is said of
them. -/
theorem Boolean.eq_of_rank_eq {a b : KeyRange} (ha : a.Boolean) (hb : b.Boolean)
    (h : a.rank = b.rank) : a = b := by
  refine ha.eq_of_span_eq hb ?_
  have lo : a.lo = b.lo := congrArg (fun r => (ofLex r).1) h
  have hi : a.hi = b.hi := congrArg (fun r => (ofLex r).2) h
  exact Span.mk.injEq .. ▸ ⟨lo, hi⟩

/-- Different ranges, sorted, are in strictly ascending order. With truth values for their ends,
ranges that tie are the same. -/
theorem pairwise_lt_of_sort {rs sorted : List KeyRange} (boolean : ∀ r ∈ rs, r.Boolean)
    (nodup : rs.Nodup) (h : sort rs = .ok sorted) : sorted.Perm rs ∧ sorted.Pairwise (· < ·) := by
  have perm : sorted.Perm rs := Sorting.perm_of_sort? h
  refine ⟨perm, ?_⟩
  have ascending : sorted.Pairwise fun a b => a.rank ≤ b.rank := by
    refine Sorting.pairwise_of_sort? rank (fun a _ b _ => ?_) h
    rw [decide_eq_true_iff, lt_iff_rank_lt, not_lt]
  have different : sorted.Pairwise (· ≠ ·) := perm.symm.nodup nodup
  refine (ascending.and different).imp_of_mem fun {a b} ha hb both => ?_
  rw [lt_iff_rank_lt]
  refine lt_of_le_of_ne both.1 fun same => both.2 ?_
  exact (boolean a (perm.subset ha)).eq_of_rank_eq (boolean b (perm.subset hb)) same

/-- Ascending lists of the same ranges are the same. -/
theorem eq_of_pairwise_lt {rs rs' : List KeyRange} (h : rs.Pairwise (· < ·))
    (h' : rs'.Pairwise (· < ·)) (same : ∀ r, r ∈ rs ↔ r ∈ rs') : rs = rs' := by
  have irrefl : Std.Irrefl fun a b : KeyRange => a < b :=
    ⟨fun _ lt => lt_irrefl _ (lt_iff_rank_lt.mp lt)⟩
  have antisymm : Std.Antisymm fun a b : KeyRange => a < b :=
    ⟨fun _ _ lt gt => absurd (lt_iff_rank_lt.mp lt) (lt_asymm (lt_iff_rank_lt.mp gt))⟩
  exact List.Subset.antisymm_of_pairwise h h' (fun _ => (same _).mp) fun _ => (same _).mpr

end KeyRange

/-! ## Owners -/

namespace Splitting

/-- The owners with those of one more assignment. It is what the loop over the bins does to the
ledger of a range's holders. -/
def own (owners : Ledger KeyRange (List (Extent × Address))) (a : Assignment) :
    Ledger KeyRange (List (Extent × Address)) :=
  owners.alter a.range fun present => present.getD [] ++ [(a.extent, a.location)]

/-- The owners are gathered from the assignments of the bins, one after the other. In which bin an
assignment stands does not matter for them. -/
theorem owners_eq (bins : List Bin) :
    owners bins = (bins.flatMap Bin.assignments).foldl own [] := by
  unfold owners
  rw [List.foldl_flatMap]
  congr 1
  funext owners bin
  unfold Bin.assignments
  rw [List.foldl_map]
  rfl

/-- The owners of a range are the extents and nodes of the assignments of equal ranges, in their
order. -/
theorem get?_foldl_own (as : List Assignment) (r : KeyRange) :
    ((as.foldl own []).get? r).getD [] =
      (as.filter fun a => a.range == r).map fun a => (a.extent, a.location) := by
  induction as using List.reverseRecOn with
  | nil => rfl
  | append_singleton as a ih =>
    rw [List.foldl_append, List.foldl_cons, List.foldl_nil, own, Ledger.get?_alter,
      List.filter_append, List.map_append, ← ih]
    by_cases same : (a.range == r) = true
    · simp [same, Ledger.get?_congr _ same]
    · simp [same]

/-- No range has its owners listed at two places. -/
theorem distinct_foldl_own (as : List Assignment) : Ledger.Distinct (as.foldl own []) := by
  induction as using List.reverseRecOn with
  | nil => exact Ledger.distinct_nil
  | append_singleton as a ih =>
    rw [List.foldl_append]
    exact Ledger.distinct_alter ih _ _

/-- The holders of a range are the extents and nodes that it has been assigned to. -/
theorem mem_holders_iff {bins : List Bin} {r : KeyRange} {holder : Extent × Address} :
    holder ∈ ((owners bins).get? r).getD [] ↔
      ∃ a ∈ bins.flatMap Bin.assignments, (a.range == r) = true ∧
        (a.extent, a.location) = holder := by
  rw [owners_eq, get?_foldl_own]
  simp only [List.mem_map, List.mem_filter, and_assoc]

/-- A range has holders if it has been assigned, and only then. Equal ranges share their holders,
which are the very same ranges if their ends are told by truth values. -/
theorem mem_keys_owners_iff {bins : List Bin} (boolean : ∀ r ∈ bins.flatMap Bin.ranges, r.Boolean)
    {r : KeyRange} : r ∈ (owners bins).keys ↔ r ∈ bins.flatMap Bin.ranges := by
  refine ⟨mem_of_mem_keys_owners, fun hr => ?_⟩
  obtain ⟨bin, hbin, mem⟩ := List.mem_flatMap.mp hr
  have assigned : (⟨bin.location, bin.extent, r⟩ : Assignment) ∈ bins.flatMap Bin.assignments :=
    List.mem_flatMap.mpr ⟨bin, hbin, List.mem_map_of_mem mem⟩
  have held := mem_holders_iff.mpr ⟨_, assigned, BEq.rfl, rfl⟩
  -- the range that is listed is equal to the one that was assigned, and so the same one
  cases found : (owners bins).get? r with
  | none => simp [found] at held
  | some holders =>
    obtain ⟨k, same, he⟩ := Ledger.mem_of_get? found
    have hk : k ∈ (owners bins).keys := List.mem_map_of_mem he
    exact (boolean k (mem_of_mem_keys_owners hk)).eq_of_beq (boolean r hr) same ▸ hk

/-- No range is listed twice with its owners. -/
theorem nodup_keys_owners (bins : List Bin) : (owners bins).keys.Nodup := by
  rw [owners_eq]
  refine List.Pairwise.imp (fun {a b} ne e => ?_)
    (distinct_foldl_own (bins.flatMap Bin.assignments))
  rw [e, BEq.rfl] at ne
  cases ne

end Splitting

end ScanPlanner
