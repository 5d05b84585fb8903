import ScanPlanner.Proofs.KeyRange

/-!
# Keys of one sort

Ranges can be compared, clipped and united if the keys at their ends are of one sort (`OneSort`).
Then each operation on ranges has a result, which is that of the operation on their spans, and the
ranges that come from it have no other keys.
-/

namespace ScanPlanner

/-- The keys can be compared with each other. Each of them is compared with itself too, so that a
key that has no order at all is not among them. -/
def OneSort (ks : List RowKey) : Prop := ∀ a ∈ ks, ∀ b ∈ ks, a.alike b = true

instance (ks : List RowKey) : Decidable (OneSort ks) :=
  inferInstanceAs (Decidable (∀ a ∈ ks, ∀ b ∈ ks, a.alike b = true))

theorem OneSort.subset {ks ks' : List RowKey} (h : OneSort ks) (sub : ks' ⊆ ks) : OneSort ks' :=
  fun a ha b hb => h a (sub ha) b (sub hb)

theorem OneSort.isScalar {ks : List RowKey} (h : OneSort ks) {k : RowKey} (hk : k ∈ ks) :
    k.isScalar = true := by
  obtain ⟨s, hs, -⟩ := RowKey.alike_iff.mp (h k hk k hk)
  exact RowKey.isScalar_of_kind (hs ▸ rfl)

/-- Keys of one sort can be compared across two lists of them. -/
theorem OneSort.alikeKeys {ks xs ys : List RowKey} (h : OneSort ks) (hx : xs ⊆ ks) (hy : ys ⊆ ks) :
    alikeKeys xs ys = true := by
  unfold ScanPlanner.alikeKeys
  rw [List.all_eq_true]
  intro x hx'
  rw [List.all_eq_true]
  intro y hy'
  exact h x (hx hx') y (hy hy')

/-- Two lists of one sort each are of one sort together if their keys can be compared across. It is
enough to know this of one direction. -/
theorem OneSort.append {xs ys : List RowKey} (hx : OneSort xs) (hy : OneSort ys)
    (alike : ScanPlanner.alikeKeys xs ys = true) : OneSort (xs ++ ys) := by
  have across : ∀ x ∈ xs, ∀ y ∈ ys, x.alike y = true := by
    unfold ScanPlanner.alikeKeys at alike
    simpa only [List.all_eq_true] using alike
  intro a ha b hb
  rcases List.mem_append.mp ha with ha | ha <;> rcases List.mem_append.mp hb with hb | hb
  · exact hx a ha b hb
  · exact across a ha b hb
  · rw [RowKey.alike_comm]
    exact across b hb a ha
  · exact hy a ha b hb

/-! ## The keys of spans -/

/-- The key beside the cut of a lower end is the key of that end. -/
theorem Cut.key?_ofLower (e : Option Edge) : (Cut.ofLower e).key? = e.map Edge.key := by
  cases e with
  | none => rfl
  | some e =>
    rw [Cut.ofLower]
    cases e.closed <;> rfl

/-- The key beside the cut of an upper end is the key of that end. -/
theorem Cut.key?_ofUpper (e : Option Edge) : (Cut.ofUpper e).key? = e.map Edge.key := by
  cases e with
  | none => rfl
  | some e =>
    rw [Cut.ofUpper]
    cases e.closed <;> rfl

theorem KeyRange.keys_span (r : KeyRange) : r.span.keys = r.keys := by
  show (Cut.ofLower r.lower).key?.toList ++ (Cut.ofUpper r.upper).key?.toList = _
  rw [Cut.key?_ofLower, Cut.key?_ofUpper]
  rfl

@[simp] theorem KeyRange.keys_ofSpan (s : Span) : (ofSpan s).keys = s.keys := by
  rw [← keys_span, span_ofSpan]

/-- A join ends with keys of the spans that are joined. -/
theorem Span.keys_join_subset (s t : Span) : (s.join t).keys ⊆ s.keys ++ t.keys := by
  have lo : (s.join t).lo = s.lo ∨ (s.join t).lo = t.lo := min_choice s.lo t.lo
  have hi : (s.join t).hi = s.hi ∨ (s.join t).hi = t.hi := max_choice s.hi t.hi
  unfold Span.keys
  rcases lo with lo | lo <;> rcases hi with hi | hi <;> rw [lo, hi] <;> intro k hk <;>
    simp only [List.mem_append] at hk ⊢ <;> tauto

/-- Spans with one more end with the keys of the span or with those of the others, whether it is
joined with some of them or stands alone. -/
theorem Span.keys_insert_subset (s : Span) (ss : List Span) :
    KeyRange.spanKeys (s.insert ss) ⊆ s.keys ++ KeyRange.spanKeys ss := by
  -- for any new span, since it grows when it is joined with the head
  induction ss generalizing s with
  | nil => simp [insert, KeyRange.spanKeys]
  | cons t ts ih =>
    unfold insert
    unfold KeyRange.spanKeys at ih ⊢
    split
    · simp
    · split
      · intro k hk
        have := @ih s k
        simp only [List.flatMap_cons, List.mem_append] at hk this ⊢
        tauto
      · intro k hk
        have joined := @ih (s.join t) k hk
        have ends := @Span.keys_join_subset s t k
        simp only [List.flatMap_cons, List.mem_append] at joined ends ⊢
        tauto

/-- A meet ends with keys of the spans that meet. -/
theorem Span.keys_subset_of_meet? {s t u : Span} (h : s.meet? t = some u) :
    u.keys ⊆ s.keys ++ t.keys := by
  obtain ⟨lo, hi⟩ := meet?_eq_some_iff.mp h
  unfold keys
  rw [lo, hi]
  rcases max_choice s.lo t.lo with lo | lo <;> rcases min_choice s.hi t.hi with hi | hi <;>
    rw [lo, hi] <;> intro k hk <;> simp only [List.mem_append] at hk ⊢ <;> tauto

/-! ## Ranges with keys of one sort -/

namespace KeyRange

variable {ks : List RowKey} {a b : KeyRange}

/-- Ranges whose keys are of one sort can be compared. Only keys on the same side ever are, but they
may be any. -/
theorem comparable_of_oneSort (h : OneSort ks) (ha : a.keys ⊆ ks) (hb : b.keys ⊆ ks) :
    a.comparable b = true := by
  have lower (r : KeyRange) : edgeKeys r.lower ⊆ r.keys := List.subset_append_left _ _
  have upper (r : KeyRange) : edgeKeys r.upper ⊆ r.keys := List.subset_append_right _ _
  have uppers := h.alikeKeys (List.Subset.trans (upper a) ha) (List.Subset.trans (upper b) hb)
  have lowers := h.alikeKeys (List.Subset.trans (lower a) ha) (List.Subset.trans (lower b) hb)
  unfold comparable
  rw [Bool.or_eq_true]
  right
  -- with one lower end missing its key is not looked at; with both the upper ends decide
  cases hla : a.lower with
  | none =>
    cases hlb : b.lower with
    | none => exact uppers
    | some f => rfl
  | some e =>
    cases hlb : b.lower with
    | none => rfl
    | some f => simpa [hla, hlb, edgeKeys, alikeKeys] using lowers

/-- Ranges whose keys are of one sort overlap just if their spans have a meet. -/
theorem overlaps?_of_oneSort (h : OneSort ks) (ha : a.keys ⊆ ks) (hb : b.keys ⊆ ks) :
    a.overlaps? b = .ok (a.span.meet? b.span).isSome := by
  obtain ⟨lowerA, upperA⟩ := List.append_subset.mp ha
  obtain ⟨lowerB, upperB⟩ := List.append_subset.mp hb
  unfold overlaps? facing
  rw [h.alikeKeys upperA lowerB, h.alikeKeys lowerA upperB, h.alikeKeys lowerA lowerB]
  rfl

theorem covers?_of_oneSort (h : OneSort ks) (ha : a.keys ⊆ ks) (hb : b.keys ⊆ ks) :
    a.covers? b = .ok (decide (a.span.Covers b.span)) :=
  if_pos (h.alikeKeys ha hb)

theorem clip?_of_oneSort (h : OneSort ks) (ha : a.keys ⊆ ks) (hb : b.keys ⊆ ks) :
    a.clip? b = .ok ((a.span.meet? b.span).map ofSpan) :=
  if_pos (h.alikeKeys ha hb)

/-- Which of two ranges comes first is decided by the order of ranges if their keys are of one
sort. -/
theorem before?_of_oneSort (h : OneSort ks) (ha : a.keys ⊆ ks) (hb : b.keys ⊆ ks) :
    a.before? b = .ok (decide (a < b)) :=
  if_pos (comparable_of_oneSort h ha hb)

theorem contains?_of_oneSort (h : OneSort ks) (ha : a.keys ⊆ ks) {k : RowKey} (hk : k ∈ ks) :
    a.contains? (some k) = .ok (decide (k ∈ a)) :=
  if_pos (h.alikeKeys ha (List.cons_subset.mpr ⟨hk, List.nil_subset _⟩))

theorem addTo_of_oneSort {ss : List Span} (h : OneSort ks) (hs : spanKeys ss ⊆ ks)
    (ha : a.keys ⊆ ks) : addTo ss a = .ok (a.span.insert ss) :=
  if_pos (h.alikeKeys hs ha)

/-- Ranges whose keys are of one sort can be united, and the union is that of their spans. -/
theorem foldlM_addTo_of_oneSort (h : OneSort ks) {rs : List KeyRange}
    (hr : ∀ r ∈ rs, r.keys ⊆ ks) (ss : List Span) (hs : spanKeys ss ⊆ ks) :
    rs.foldlM addTo ss = .ok (Span.insertAll ss (rs.map span)) := by
  induction rs generalizing ss with
  | nil => rfl
  | cons r rs ih =>
    obtain ⟨first, rest⟩ := List.forall_mem_cons.mp hr
    rw [List.foldlM_cons, addTo_of_oneSort h hs first, Result.bind_ok]
    refine ih rest _ (List.Subset.trans (Span.keys_insert_subset _ _) ?_)
    rw [keys_span]
    exact List.append_subset.mpr ⟨first, hs⟩

end KeyRange

end ScanPlanner
