import ScanPlanner.Proofs.Sorting
import ScanPlanner.Proofs.Span

/-!
# Unions of spans

Spans that leave gaps are the normal form of a union: they are told by the cuts that they have
together (`Span.Separated.ext`), and no fewer spans have the same cuts (`Span.Separated.length_le`).
So it does not matter in which order spans are united, or how often.

Spans can also be united all at once: they are sorted by the cut where they begin, and each is
joined with the next one unless there is a gap between them (`Span.unite`). This has the result of
adding a span to a union (`Span.insert_eq_unite`), and of adding them one after the other
(`Span.insertAll_eq_unite`). -/

namespace ScanPlanner.Span

variable {s t u : Span} {ss ts : List Span}

/-! ## Spans that leave gaps -/

/-- Together the spans have the same cuts. -/
def SameCuts (ss ts : List Span) : Prop := ∀ c, AnyHas ss c ↔ AnyHas ts c

theorem SameCuts.symm (h : SameCuts ss ts) : SameCuts ts ss := fun c => (h c).symm

theorem SameCuts.trans {us : List Span} (h : SameCuts ss ts) (h' : SameCuts ts us) :
    SameCuts ss us :=
  fun c => (h c).trans (h' c)

theorem sameCuts_insertAll (ss ts : List Span) : SameCuts (insertAll ss ts) (ss ++ ts) := by
  intro c
  rw [anyHas_insertAll]
  simp only [AnyHas, List.mem_append, or_and_right, exists_or]

theorem has_lo (s : Span) : s.Has s.lo := ⟨le_refl _, s.lo_lt_hi⟩

/-- If spans with gaps have all cuts of a span, one of them covers it: in a gap there would be a cut
that the span has and they do not. -/
theorem Separated.exists_covers (h : Separated ss) (has : ∀ c, s.Has c → AnyHas ss c) :
    ∃ t ∈ ss, t.Covers s := by
  simpa [someCovers] using (someCovers_iff h).mpr has

/-- Of two lists with gaps and the same cuts, each one has the spans of the other. A span of one
list is covered by one of the other list, which is covered by one of the first list in turn; that
can only be the span itself. -/
theorem Separated.subset (h : Separated ss) (h' : Separated ts) (same : SameCuts ss ts) :
    ss ⊆ ts := by
  intro s hs
  -- a span of either list is covered by one of the other list
  obtain ⟨t, ht, wide⟩ := h'.exists_covers fun c hc => (same c).mp ⟨s, hs, hc⟩
  obtain ⟨u, hu, wide'⟩ := h.exists_covers fun c hc => (same c).mpr ⟨t, ht, hc⟩
  have back : s = u := by
    by_contra different
    have lt := s.lo_lt_hi
    obtain ⟨lo, hi⟩ := wide
    obtain ⟨lo', hi'⟩ := wide'
    rcases h.gap hs hu different with gap | gap <;> order
  subst back
  rwa [wide'.antisymm wide]

/-- Spans that leave gaps are told by their cuts: each of them is a longest stretch of cuts without
a gap. -/
theorem Separated.ext (h : Separated ss) (h' : Separated ts) (same : SameCuts ss ts) : ss = ts := by
  have irrefl : Std.Irrefl fun s t : Span => s.hi < t.lo :=
    ⟨fun s gap => lt_asymm s.lo_lt_hi gap⟩
  have antisymm : Std.Antisymm fun s t : Span => s.hi < t.lo := by
    refine ⟨fun s t gap gap' => ?_⟩
    have := s.lo_lt_hi
    have := t.lo_lt_hi
    order
  exact List.Subset.antisymm_of_pairwise h h' (h.subset h' same) (h'.subset h same.symm)

/-- No fewer spans have the cuts of spans that leave gaps, because no span has cuts of two of them
without those in the gap. -/
theorem Separated.length_le (h : Separated ss) (same : SameCuts ss ts) :
    ss.length ≤ ts.length := by
  -- the spans of the longer list have the cuts where those with gaps begin, a different one for
  -- each
  have begun (s : Span) : ∃ t, s ∈ ss → t ∈ ts ∧ t.Has s.lo := by
    by_cases hs : s ∈ ss
    · obtain ⟨t, ht, has⟩ := (same s.lo).mp ⟨s, hs, s.has_lo⟩
      exact ⟨t, fun _ => ⟨ht, has⟩⟩
    · exact ⟨s, fun hs' => absurd hs' hs⟩
  choose owner howner using begun
  -- a span that has the cuts where two of the spans begin has the gap between them
  have distinct : (ss.map owner).Nodup := by
    rw [List.Nodup, List.pairwise_map]
    refine h.imp_of_mem fun {s t} hs ht gap one => ?_
    obtain ⟨mem, lo, -⟩ := howner s hs
    obtain ⟨-, -, hi⟩ := howner t ht
    rw [← one] at hi
    have lt := s.lo_lt_hi
    have has : (owner s).Has s.hi := ⟨by order, by order⟩
    exact h.not_anyHas_hi hs ((same s.hi).mpr ⟨_, mem, has⟩)
  have owners : ss.map owner ⊆ ts := by
    intro t ht
    obtain ⟨s, hs, rfl⟩ := List.mem_map.mp ht
    exact (howner s hs).1
  simpa using (List.subperm_of_subset distinct owners).length_le

/-! ## All spans at once -/

/-- Joins the first span with those behind it, one after the other, up to a gap, and goes on behind
the gap. -/
def coalesce (s : Span) : List Span → List Span
  | [] => [s]
  | t :: ts => if s.hi < t.lo then s :: coalesce t ts else coalesce (s.join t) ts

/-- The union of spans: they are sorted by the cut where they begin, and neighbours are joined that
overlap or touch. -/
def unite (ss : List Span) : List Span :=
  match Sorting.sort (fun s t => decide (s.lo ≤ t.lo)) ss with
  | [] => []
  | s :: ss => coalesce s ss

/-- The spans begin one after the other. -/
def Ascending (ss : List Span) : Prop := ss.Pairwise fun s t => s.lo ≤ t.lo

theorem Ascending.join (h : Ascending (s :: t :: ts)) : Ascending (s.join t :: ts) := by
  obtain ⟨first, rest⟩ := List.pairwise_cons.mp h
  refine List.pairwise_cons.mpr ⟨fun u hu => ?_, rest.of_cons⟩
  exact le_trans (min_le_left _ _) (first u (List.mem_cons_of_mem _ hu))

/-- Joining neighbours neither adds a cut nor takes one away, since two are joined only if there is
no gap between them. -/
theorem anyHas_coalesce (h : Ascending (s :: ts)) {c : Cut} :
    AnyHas (coalesce s ts) c ↔ AnyHas (s :: ts) c := by
  -- induction on the spans behind, for any first span: it grows when they are joined with it
  induction ts generalizing s with
  | nil => rfl
  | cons t ts ih =>
    unfold coalesce
    split
    · rw [anyHas_cons, ih h.of_cons, ← anyHas_cons]
    · next touch =>
      have begins : s.lo ≤ t.lo := (List.pairwise_cons.mp h).1 t List.mem_cons_self
      rw [ih h.join, anyHas_cons, anyHas_cons, anyHas_cons,
        has_join (not_lt.mp touch) (le_trans begins (le_of_lt t.lo_lt_hi)), or_assoc]

/-- None of the joined spans begins before the first one does, as the spans are in the order of
their beginnings. -/
theorem le_lo_coalesce (h : Ascending (s :: ts)) : ∀ u ∈ coalesce s ts, s.lo ≤ u.lo := by
  induction ts generalizing s with
  | nil => simp [coalesce]
  | cons t ts ih =>
    have begins : s.lo ≤ t.lo := (List.pairwise_cons.mp h).1 t List.mem_cons_self
    unfold coalesce
    split
    · intro u hu
      rcases List.mem_cons.mp hu with rfl | hu
      · exact le_refl _
      · exact le_trans begins (ih h.of_cons u hu)
    · intro u hu
      exact le_trans (le_min (le_refl _) begins) (ih h.join u hu)

/-- Joined spans leave gaps: what does not follow a gap has been joined. -/
theorem separated_coalesce (h : Ascending (s :: ts)) : Separated (coalesce s ts) := by
  induction ts generalizing s with
  | nil => exact List.pairwise_singleton _ _
  | cons t ts ih =>
    unfold coalesce
    split
    · next gap =>
      refine List.pairwise_cons.mpr ⟨fun u hu => ?_, ih h.of_cons⟩
      exact lt_of_lt_of_le gap (le_lo_coalesce h.of_cons u hu)
    · exact ih h.join

/-- The union of spans leaves gaps and has their cuts. There is one list of which this is true, so
both ways of uniting come to it. -/
theorem unite_spec (ss : List Span) : Separated (unite ss) ∧ SameCuts (unite ss) ss := by
  have ascending : Ascending (Sorting.sort (fun s t => decide (s.lo ≤ t.lo)) ss) :=
    Sorting.pairwise_sort lo fun s _ t _ => decide_eq_true_iff
  have perm := Sorting.perm_sort (fun s t : Span => decide (s.lo ≤ t.lo)) ss
  have same (c : Cut) : AnyHas (Sorting.sort (fun s t => decide (s.lo ≤ t.lo)) ss) c ↔
      AnyHas ss c := by
    simp only [AnyHas, perm.mem_iff]
  -- sorting the spans changes none of their cuts
  unfold unite
  cases sorted : Sorting.sort (fun s t : Span => decide (s.lo ≤ t.lo)) ss with
  | nil =>
    rw [sorted] at same
    exact ⟨.nil, same⟩
  | cons s rest =>
    rw [sorted] at ascending same
    exact ⟨separated_coalesce ascending, fun c => (anyHas_coalesce ascending).trans (same c)⟩

/-- Spans that leave gaps are the union of any spans with the same cuts. -/
theorem Separated.eq_unite (h : Separated ss) (same : SameCuts ss ts) : ss = unite ts := by
  obtain ⟨separated, same'⟩ := unite_spec ts
  exact h.ext separated (same.trans same'.symm)

/-- To add a span to a union is to unite it with the spans of the union. -/
theorem insert_eq_unite (h : Separated ss) : s.insert ss = unite (s :: ss) := by
  refine (separated_insert s h).eq_unite fun c => ?_
  rw [anyHas_insert, anyHas_cons]

/-- Spans that are united one after the other come to what they come to all at once. -/
theorem insertAll_eq_unite (ss : List Span) : insertAll [] ss = unite ss :=
  (separated_insertAll .nil ss).eq_unite (sameCuts_insertAll [] ss)

end ScanPlanner.Span
