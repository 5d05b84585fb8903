import Mathlib.Data.List.Pairwise
import ScanPlanner.Proofs.Cut

/-!
# The keys of spans

What the operations on spans do to the keys that a span holds: the meet holds the keys that both
spans hold (`Span.holds_meet?`), and a list of spans with one more holds the keys of the list and
those of the span (`Span.anyHolds_insert`), whatever the list is like. The same is true of the cuts
that a span has, of which one lies before each key. A list in order stays in order
(`Span.separated_insert`), and then one of its spans covers all that they have together
(`Span.someCovers_iff`).
-/

namespace ScanPlanner.Span

variable {s t u : Span} {k : RowKey}

/-- Spans of which the second begins where the first ends, or behind that, hold no key in common. -/
theorem not_holds_of_le (h : s.hi ≤ t.lo) (hs : s.Holds k) : ¬ t.Holds k := by
  intro ht
  have := Cut.before_lt_after k
  have after_le : Cut.after k ≤ s.hi := hs.2
  have le_before : t.lo ≤ Cut.before k := ht.1
  order

/-! ## Covering -/

theorem Covers.refl (s : Span) : s.Covers s := ⟨le_refl _, le_refl _⟩

/-- Spans that cover each other are the same one. -/
theorem Covers.antisymm (h : s.Covers t) (h' : t.Covers s) : s = t := by
  obtain ⟨slo, shi, _⟩ := s
  obtain ⟨tlo, thi, _⟩ := t
  have lo : slo = tlo := le_antisymm h.1 h'.1
  have hi : shi = thi := le_antisymm h'.2 h.2
  subst lo hi
  rfl

/-! ## The meet -/

/-- The meet begins with the later of both beginnings and ends with the earlier of both ends, and
there is one if something is left between them. -/
theorem meet?_eq_some_iff :
    s.meet? t = some u ↔ u.lo = max s.lo t.lo ∧ u.hi = min s.hi t.hi := by
  unfold meet?
  -- a span is told by its ends, so the proof that it is not empty does not matter
  split
  · next h =>
    constructor
    · intro e
      cases e
      exact ⟨rfl, rfl⟩
    · rintro ⟨hlo, hhi⟩
      obtain ⟨lo, hi, _⟩ := u
      subst hlo hhi
      rfl
  · next h =>
    constructor
    · nofun
    · rintro ⟨hlo, hhi⟩
      have := u.lo_lt_hi
      rw [hlo, hhi] at this
      exact absurd this h

/-- Spans have no meet if one of them ends before the other begins, or just there. -/
theorem meet?_eq_none_iff : s.meet? t = none ↔ s.hi ≤ t.lo ∨ t.hi ≤ s.lo := by
  have hs := s.lo_lt_hi
  have ht := t.lo_lt_hi
  have overlap : Cut.max s.lo t.lo < Cut.min s.hi t.hi ↔ ¬ (s.hi ≤ t.lo ∨ t.hi ≤ s.lo) := by
    rw [Cut.max_eq, Cut.min_eq, max_lt_iff, lt_min_iff, lt_min_iff, not_or, not_le, not_le]
    tauto
  unfold meet?
  split
  · next h => simp [overlap.mp h]
  · next h => simpa using not_imp_comm.mp overlap.mpr h

/-- The meet holds the keys that both spans hold. -/
theorem holds_meet? (h : s.meet? t = some u) : u.Holds k ↔ s.Holds k ∧ t.Holds k := by
  obtain ⟨hlo, hhi⟩ := meet?_eq_some_iff.mp h
  unfold Holds
  rw [hlo, hhi, max_le_iff, le_min_iff]
  tauto

theorem covers_of_meet?_left (h : s.meet? t = some u) : s.Covers u := by
  obtain ⟨hlo, hhi⟩ := meet?_eq_some_iff.mp h
  exact ⟨hlo ▸ le_max_left _ _, hhi ▸ min_le_left _ _⟩

/-- Spans that both cover a third one have a meet. -/
theorem meet?_ne_none_of_covers (hs : s.Covers u) (ht : t.Covers u) : s.meet? t ≠ none := by
  have := u.lo_lt_hi
  obtain ⟨hs₁, hs₂⟩ := hs
  obtain ⟨ht₁, ht₂⟩ := ht
  rw [ne_eq, meet?_eq_none_iff]
  rintro (h | h) <;> order

/-! ## Joining and inserting -/

/-- The span has the cut: it begins there or before, and ends behind it. -/
def Has (s : Span) (c : Cut) : Prop := s.lo ≤ c ∧ c < s.hi

instance (s : Span) (c : Cut) : Decidable (s.Has c) := inferInstanceAs (Decidable (_ ∧ _))

/-- A span holds a key if it has the cut before the key: no cut lies inside the key. -/
theorem holds_iff_has : s.Holds k ↔ s.Has (.before k) := by
  have lt := Cut.before_lt_after k
  refine and_congr_right fun _ => ⟨fun le => lt_of_lt_of_le lt le, fun lt => ?_⟩
  rcases s.hi.le_before_or_after_le k with le | le
  · exact absurd lt (not_lt.mpr le)
  · exact le

/-- Spans between which there is no gap: their join has the cuts that one of them has. With a gap it
would have those in the gap as well. -/
theorem has_join {c : Cut} (h : t.lo ≤ s.hi) (h' : s.lo ≤ t.hi) :
    (s.join t).Has c ↔ s.Has c ∨ t.Has c := by
  show min s.lo t.lo ≤ c ∧ c < max s.hi t.hi ↔ _
  rw [min_le_iff, lt_max_iff]
  unfold Has
  constructor
  · -- behind the end of one span, the other one has the cut
    rintro ⟨lo | lo, hi | hi⟩
    · exact .inl ⟨lo, hi⟩
    · rcases lt_or_ge c s.hi with hi' | hi'
      · exact .inl ⟨lo, hi'⟩
      · exact .inr ⟨le_trans h hi', hi⟩
    · rcases lt_or_ge c t.hi with hi' | hi'
      · exact .inr ⟨lo, hi'⟩
      · exact .inl ⟨le_trans h' hi', hi⟩
    · exact .inr ⟨lo, hi⟩
  · tauto

/-- Some of the spans has the cut. -/
def AnyHas (ss : List Span) (c : Cut) : Prop := ∃ s ∈ ss, s.Has c

@[simp] theorem anyHas_nil {c : Cut} : AnyHas [] c ↔ False := by
  simp [AnyHas]

@[simp] theorem anyHas_cons {ss : List Span} {c : Cut} :
    AnyHas (s :: ss) c ↔ s.Has c ∨ AnyHas ss c := by
  simp [AnyHas]

/-- Spans with one more have the cuts that one of them or the new span has, since a span is joined
only with those that it leaves no gap to. -/
theorem anyHas_insert (s : Span) (ss : List Span) {c : Cut} :
    AnyHas (s.insert ss) c ↔ s.Has c ∨ AnyHas ss c := by
  -- induction on the list, for any new span: it grows when it is joined with the head
  induction ss generalizing s with
  | nil => simp [insert]
  | cons t ts ih =>
    unfold insert
    split
    · rw [anyHas_cons]
    · split
      · rw [anyHas_cons, ih, anyHas_cons]
        tauto
      -- the span grows by the head, and is inserted behind it
      · next h h' => rw [ih, has_join (not_lt.mp h) (not_lt.mp h'), anyHas_cons, or_assoc]

/-- Some of the spans holds the key. -/
def AnyHolds (ss : List Span) (k : RowKey) : Prop := ∃ s ∈ ss, s.Holds k

@[simp] theorem anyHolds_nil : AnyHolds [] k ↔ False := by
  simp [AnyHolds]

@[simp] theorem anyHolds_cons {ss : List Span} :
    AnyHolds (s :: ss) k ↔ s.Holds k ∨ AnyHolds ss k := by
  simp [AnyHolds]

/-- Spans with one more hold the keys that one of them or the new span holds. -/
theorem anyHolds_insert (s : Span) (ss : List Span) :
    AnyHolds (s.insert ss) k ↔ s.Holds k ∨ AnyHolds ss k := by
  unfold AnyHolds
  simp only [holds_iff_has]
  exact anyHas_insert s ss

/-- A list of spans with one more is not empty. -/
theorem insert_ne_nil (s : Span) (ss : List Span) : s.insert ss ≠ [] := by
  induction ss generalizing s with
  | nil => simp [insert]
  | cons t ts ih =>
    unfold insert
    split
    · simp
    · split
      · simp
      · exact ih _

/-- If the span and those of the list all begin behind a cut, so do the spans of the longer list.
Joining moves a beginning only to another one of them. -/
theorem lt_lo_insert {c : Cut} {ss : List Span} (hs : c < s.lo) (hss : ∀ t ∈ ss, c < t.lo) :
    ∀ t ∈ s.insert ss, c < t.lo := by
  induction ss generalizing s with
  | nil => simpa [insert] using hs
  | cons t ts ih =>
    have ht : c < t.lo := hss t (by simp)
    have hts : ∀ u ∈ ts, c < u.lo := fun u hu => hss u (by simp [hu])
    unfold insert
    split
    · intro u hu
      rcases List.mem_cons.mp hu with rfl | hu
      · exact hs
      · exact hss u hu
    · split
      · intro u hu
        rcases List.mem_cons.mp hu with rfl | hu
        · exact ht
        · exact ih hs hts u hu
      · -- joined with the head, the span begins where the earlier of the two does
        exact ih (lt_min hs ht) hts

/-- A list of spans with gaps between them keeps gaps when a span is added: it stands before the
head, behind it, or is joined with it. -/
theorem separated_insert (s : Span) {ss : List Span} (h : Separated ss) :
    Separated (s.insert ss) := by
  induction ss generalizing s with
  | nil => exact List.pairwise_singleton _ _
  | cons t ts ih =>
    obtain ⟨head, tail⟩ := List.pairwise_cons.mp h
    unfold insert
    split
    · next before =>
      refine List.pairwise_cons.mpr ⟨?_, h⟩
      intro u hu
      rcases List.mem_cons.mp hu with rfl | hu
      · exact before
      · have := head u hu
        have := t.lo_lt_hi
        order
    · split
      · next behind => exact List.pairwise_cons.mpr ⟨lt_lo_insert behind head, ih s tail⟩
      · -- the span and the head have no gap between them: their join goes on to the tail
        exact ih (s.join t) tail

/-- The spans with some more, one after the other. -/
def insertAll (ss more : List Span) : List Span := more.foldl (fun ss s => s.insert ss) ss

/-- Spans that are added one after the other give the list their cuts and no more. In which order
they come does not matter for this. -/
theorem anyHas_insertAll (ss more : List Span) {c : Cut} :
    AnyHas (insertAll ss more) c ↔ AnyHas ss c ∨ AnyHas more c := by
  unfold insertAll
  induction more generalizing ss with
  | nil => simp
  | cons s more ih =>
    rw [List.foldl_cons, ih, anyHas_insert, anyHas_cons]
    tauto

/-- However many spans are added, gaps stay between those of the list. -/
theorem separated_insertAll {ss : List Span} (h : Separated ss) (more : List Span) :
    Separated (insertAll ss more) := by
  unfold insertAll
  induction more generalizing ss with
  | nil => exact h
  | cons s more ih => exact ih (separated_insert s h)

/-- Between two of the spans there is a gap. -/
theorem Separated.gap {ss : List Span} (h : Separated ss) (hs : s ∈ ss) (ht : t ∈ ss)
    (different : s ≠ t) : s.hi < t.lo ∨ t.hi < s.lo := by
  have symm : Std.Symm fun s t : Span => s.hi < t.lo ∨ t.hi < s.lo := ⟨fun _ _ => Or.symm⟩
  have gaps : ss.Pairwise fun s t => s.hi < t.lo ∨ t.hi < s.lo := h.imp Or.inl
  exact List.Pairwise.forall gaps hs ht different

/-- The cut where one of the spans ends is in none of them: a span does not have its own end, and
the others leave a gap to it. -/
theorem Separated.not_anyHas_hi {ss : List Span} (h : Separated ss) (hs : s ∈ ss) :
    ¬ AnyHas ss s.hi := by
  rintro ⟨t, ht, lo, hi⟩
  have lt := s.lo_lt_hi
  -- it is not the span itself, whose end is open, and another one has a gap to it
  by_cases same : s = t
  · rw [← same] at hi
    exact lt_irrefl _ hi
  · rcases h.gap hs ht same with gap | gap <;> order

/-- Of spans that leave gaps, one covers a span if each of its cuts is in some of them. That the
cuts may be in different spans does not help, because of the gaps. -/
theorem someCovers_iff {ss : List Span} (h : Separated ss) :
    someCovers ss s = true ↔ ∀ c, s.Has c → AnyHas ss c := by
  unfold someCovers
  simp only [List.any_eq_true, decide_eq_true_eq]
  constructor
  · rintro ⟨t, ht, lo, hi⟩ c hc
    exact ⟨t, ht, le_trans lo hc.1, lt_of_lt_of_le hc.2 hi⟩
  · intro each
    obtain ⟨t, ht, lo, hi⟩ := each s.lo ⟨le_refl _, s.lo_lt_hi⟩
    refine ⟨t, ht, lo, ?_⟩
    by_contra short
    -- the span goes on where `t` ends
    exact h.not_anyHas_hi ht (each t.hi ⟨le_of_lt hi, not_le.mp short⟩)

/-- Of spans united one after the other, one covers a span if each of its cuts is in some of them.
-/
theorem someCovers_insertAll {ss : List Span} :
    someCovers (insertAll [] ss) s = true ↔ ∀ c, s.Has c → AnyHas ss c := by
  rw [someCovers_iff (separated_insertAll .nil _)]
  simp only [anyHas_insertAll, anyHas_nil, false_or]

/-- Spans with gaps between them hold no key in common. -/
theorem Separated.pairwise_disjoint {ss : List Span} (h : Separated ss) :
    ss.Pairwise fun s t => ∀ k, ¬ (s.Holds k ∧ t.Holds k) :=
  h.imp fun lt _ both => not_holds_of_le (le_of_lt lt) both.1 both.2

end ScanPlanner.Span
