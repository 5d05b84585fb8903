import ScanPlanner.Proofs.OneSort

/-!
# Clipped ranges

What is left of a range that is clipped to another one is the greatest range that both cover
(`Span.meet?_eq_some_iff_covers`). From this it follows that it makes no difference which of the two
is clipped, or in which order three ranges are clipped to each other. Whether anything is left is
what `KeyRange.overlaps?` tells (`KeyRange.clip_laws`).
-/

namespace ScanPlanner

/-! ## The meet of spans -/

namespace Span

variable {s t u v : Span}

/-- The meet of two spans covers what both of them cover. -/
theorem covers_meet?_iff (h : s.meet? t = some u) : u.Covers v ↔ s.Covers v ∧ t.Covers v := by
  obtain ⟨hlo, hhi⟩ := meet?_eq_some_iff.mp h
  unfold Covers
  rw [hlo, hhi, max_le_iff, le_min_iff]
  tauto

/-- The meet of two spans is the greatest span that both cover. The laws of clipping follow from
this alone, without comparing cuts. -/
theorem meet?_eq_some_iff_covers :
    s.meet? t = some u ↔ ∀ v, u.Covers v ↔ s.Covers v ∧ t.Covers v := by
  constructor
  · exact fun h v => covers_meet?_iff h
  · intro greatest
    obtain ⟨hs, ht⟩ := (greatest u).mp (.refl u)
    obtain ⟨w, hw⟩ := Option.ne_none_iff_exists'.mp (meet?_ne_none_of_covers hs ht)
    have larger : w.Covers u := (covers_meet?_iff hw).mpr ⟨hs, ht⟩
    have smaller : u.Covers w := (greatest w).mpr ((covers_meet?_iff hw).mp (.refl w))
    rw [hw, larger.antisymm smaller]

theorem meet?_comm (s t : Span) : s.meet? t = t.meet? s := by
  ext u
  simp only [meet?_eq_some_iff_covers, and_comm]

/-- The meet of three spans is the greatest span that all three cover, which says nothing about the
order in which they are taken. -/
theorem bind_meet?_eq_some_iff : ((s.meet? t).bind fun w => w.meet? u) = some v ↔
    ∀ x, v.Covers x ↔ s.Covers x ∧ t.Covers x ∧ u.Covers x := by
  rw [Option.bind_eq_some_iff]
  constructor
  · rintro ⟨w, hw, hv⟩ x
    rw [covers_meet?_iff hv, covers_meet?_iff hw, and_assoc]
  · intro greatest
    obtain ⟨hs, ht, -⟩ := (greatest v).mp (.refl v)
    obtain ⟨w, hw⟩ := Option.ne_none_iff_exists'.mp (meet?_ne_none_of_covers hs ht)
    refine ⟨w, hw, meet?_eq_some_iff_covers.mpr fun x => ?_⟩
    rw [greatest, covers_meet?_iff hw, and_assoc]

/-- The meet of three spans does not depend on the order in which it is taken. Where one way comes
to nothing, so does the other one. -/
theorem meet?_assoc (s t u : Span) :
    ((s.meet? t).bind fun w => w.meet? u) = (t.meet? u).bind fun w => s.meet? w := by
  have turned : ((t.meet? u).bind fun w => s.meet? w) = (t.meet? u).bind fun w => w.meet? s := by
    simp only [meet?_comm s]
  rw [turned]
  ext v
  rw [bind_meet?_eq_some_iff, bind_meet?_eq_some_iff]
  refine forall_congr' fun x => ?_
  rw [and_rotate]

/-- A span has no keys at its ends only if it goes on without bounds in both directions. -/
theorem keys_eq_nil_iff : s.keys = [] ↔ s.lo = .bottom ∧ s.hi = .top := by
  obtain ⟨lo, hi, lt⟩ := s
  unfold keys
  rw [List.append_eq_nil_iff]
  cases lo <;> cases hi <;> first | exact lt.elim | simp [Cut.key?]

/-- Only of two spans without ends the meet has no ends. Each end of a span that there is limits the
meet on its side. -/
theorem keys_meet?_eq_nil_iff (h : s.meet? t = some u) : u.keys = [] ↔ s.keys ++ t.keys = [] := by
  obtain ⟨hlo, hhi⟩ := meet?_eq_some_iff.mp h
  -- the later of two lower ends is missing only if both are missing, and the same is true of upper
  -- ends
  have lo : max s.lo t.lo = .bottom ↔ s.lo = .bottom ∧ t.lo = .bottom := by
    constructor
    · intro e
      have hs := e ▸ le_max_left s.lo t.lo
      have ht := e ▸ le_max_right s.lo t.lo
      exact ⟨le_antisymm hs (Cut.bottom_le _), le_antisymm ht (Cut.bottom_le _)⟩
    · rintro ⟨hs, ht⟩
      rw [hs, ht, max_self]
  have hi : min s.hi t.hi = .top ↔ s.hi = .top ∧ t.hi = .top := by
    constructor
    · intro e
      have hs := e ▸ min_le_left s.hi t.hi
      have ht := e ▸ min_le_right s.hi t.hi
      exact ⟨le_antisymm (Cut.le_top _) hs, le_antisymm (Cut.le_top _) ht⟩
    · rintro ⟨hs, ht⟩
      rw [hs, ht, min_self]
  rw [List.append_eq_nil_iff, keys_eq_nil_iff, keys_eq_nil_iff, keys_eq_nil_iff, hlo, hhi, lo, hi]
  tauto

end Span

/-! ## Keys -/

/-- Some keys of one sort can be compared with the same keys as all of them. -/
theorem OneSort.alikeKeys_eq {ks xs : List RowKey} (h : OneSort ks) (sub : xs ⊆ ks)
    (empty : xs = [] → ks = []) (ys : List RowKey) :
    ScanPlanner.alikeKeys xs ys = ScanPlanner.alikeKeys ks ys := by
  rw [Bool.eq_iff_iff]
  unfold ScanPlanner.alikeKeys
  simp only [List.all_eq_true]
  constructor
  · intro alike k hk y hy
    cases xs with
    | nil =>
      rw [empty rfl] at hk
      cases hk
    | cons x xs =>
      -- with a key to compare all others with, being alike is passed on through it
      have first := h k hk x (sub List.mem_cons_self)
      exact RowKey.alike_trans first (alike x List.mem_cons_self y hy)
  · exact fun alike x hx => alike x (sub hx)

/-! ## The common part of ranges -/

namespace KeyRange

variable {a b c r : KeyRange}

/-- The range is the greatest common part of two ranges: clipping either of them to the other one
gives it, it contains what both contain, and it covers what both cover. Where one of the two has no
answer, neither has the part. -/
structure CommonPart (a b r : KeyRange) : Prop where
  clip : a.clip b = .ok r
  swapped : b.clip a = .ok r
  contains : ∀ key, r.contains? key = do return (← a.contains? key) && (← b.contains? key)
  covers : ∀ c, r.covers? c = do return (← a.covers? c) && (← b.covers? c)

/-- If the ranges have no part in common, clipping one to the other is refused, and the failure
shows them in the order in which they were given. -/
theorem clip_of_none (h : a.clip? b = .ok none) :
    a.clip b = .error (.invalid (.disjointRanges b.shown a.shown)) := by
  unfold clip
  rw [h]
  rfl

theorem clip_of_some (h : a.clip? b = .ok (some r)) : a.clip b = .ok r := by
  unfold clip
  rw [h]
  rfl

section

variable {u : Span} (sort : OneSort (a.keys ++ b.keys)) (h : a.span.meet? b.span = some u)
include sort h

/-- Keys can be compared with those of the common part if they can be compared with those of both
ranges. -/
theorem alikeKeys_meet? (ys : List RowKey) :
    alikeKeys (ofSpan u).keys ys = (alikeKeys a.keys ys && alikeKeys b.keys ys) := by
  have sub := Span.keys_subset_of_meet? h
  have empty := (Span.keys_meet?_eq_nil_iff h).mp
  rw [keys_span, keys_span] at sub empty
  rw [keys_ofSpan, sort.alikeKeys_eq sub empty]
  exact List.all_append

/-- The common part contains a key if both ranges do, and has no answer where one of them has
none. -/
theorem contains?_meet? (key : Option RowKey) :
    (ofSpan u).contains? key = do return (← a.contains? key) && (← b.contains? key) := by
  -- a missing key lies in a range only if the range has no ends
  cases key with
  | none =>
    have empty : (ofSpan u).keys.isEmpty = (a.keys.isEmpty && b.keys.isEmpty) := by
      have nil := Span.keys_meet?_eq_nil_iff h
      rw [keys_span, keys_span, List.append_eq_nil_iff] at nil
      rw [Bool.eq_iff_iff, Bool.and_eq_true]
      simpa using nil
    simp only [contains?, empty]
    cases a.keys.isEmpty <;> cases b.keys.isEmpty <;> rfl
  | some k =>
    have holds := Span.holds_meet? (k := k) h
    simp only [contains?, alikeKeys_meet? sort h, span_ofSpan, holds]
    cases alikeKeys a.keys [k] <;> cases alikeKeys b.keys [k] <;> simp

/-- The common part covers a range if both ranges do, and has no answer where one of them has
none. -/
theorem covers?_meet? (c : KeyRange) :
    (ofSpan u).covers? c = do return (← a.covers? c) && (← b.covers? c) := by
  have covers := Span.covers_meet?_iff (v := c.span) h
  simp only [covers?, alikeKeys_meet? sort h, span_ofSpan, covers]
  cases alikeKeys a.keys c.keys <;> cases alikeKeys b.keys c.keys <;> simp

/-- The range that is made of the meet of two spans is the common part of their ranges. -/
theorem commonPart_of_meet? : CommonPart a b (ofSpan u) where
  clip := by
    rw [clip_of_some]
    rw [clip?_of_oneSort sort (List.subset_append_left _ _) (List.subset_append_right _ _), h]
    rfl
  swapped := by
    rw [clip_of_some]
    rw [clip?_of_oneSort sort (List.subset_append_right _ _) (List.subset_append_left _ _),
      Span.meet?_comm, h]
    rfl
  contains := contains?_meet? sort h
  covers := covers?_meet? sort h

end

/-! ## Clipping to more than one range -/

/-- The common part of two ranges, each of which may be missing. Then there is none. -/
def part? : Option KeyRange → Option KeyRange → Result (Option KeyRange)
  | some a, some b => a.clip? b
  | _, _ => .ok none

/-- Where keys are of one sort, to take a part that may be missing is to take the meet of spans that
may be missing. -/
theorem part?_of_oneSort {ks : List RowKey} (sort : OneSort ks) {x y : Option KeyRange}
    (hx : ∀ r ∈ x, r.keys ⊆ ks) (hy : ∀ r ∈ y, r.keys ⊆ ks) :
    part? x y = .ok ((x.bind fun a => y.bind fun b => a.span.meet? b.span).map ofSpan) := by
  cases x with
  | none => rfl
  | some a =>
    cases y with
    | none => rfl
    | some b => exact clip?_of_oneSort sort (hx a rfl) (hy b rfl)

/-- It does not matter which two of three ranges are clipped first: either way gives the same range,
or none. The keys are of one sort, as otherwise one way could fail where the other one finds that
the ranges are disjoint. -/
theorem exists_clip_assoc {ks : List RowKey} (sort : OneSort ks) (ha : a.keys ⊆ ks)
    (hb : b.keys ⊆ ks) (hc : c.keys ⊆ ks) :
    ∃ out, (a.clip? b >>= fun part => part? part (some c)) = .ok out ∧
      (b.clip? c >>= fun part => part? (some a) part) = .ok out := by
  have whole {r : KeyRange} (hr : r.keys ⊆ ks) : ∀ r' ∈ some r, r'.keys ⊆ ks := by
    simpa using hr
  -- no new keys come in when ranges are clipped
  have part {r r' : KeyRange} (hr : r.keys ⊆ ks) (hr' : r'.keys ⊆ ks) :
      ∀ p ∈ (r.span.meet? r'.span).map ofSpan, p.keys ⊆ ks := by
    intro p hp
    obtain ⟨u, hu, rfl⟩ := Option.map_eq_some_iff.mp hp
    have sub := Span.keys_subset_of_meet? hu
    rw [keys_span, keys_span] at sub
    rw [keys_ofSpan]
    exact List.Subset.trans sub (List.append_subset.mpr ⟨hr, hr'⟩)
  rw [clip?_of_oneSort sort ha hb, clip?_of_oneSort sort hb hc, Result.bind_ok, Result.bind_ok,
    part?_of_oneSort sort (part ha hb) (whole hc), part?_of_oneSort sort (whole ha) (part hb hc)]
  refine ⟨_, rfl, ?_⟩
  simp only [Option.bind_map, Option.bind_some, Function.comp_def, span_ofSpan, Span.meet?_assoc]

/-- Clipping ranges whose keys can be compared. Two ranges overlap, seen from either side, unless
nothing is left of them when they are clipped to each other; otherwise they have a greatest common
part. And three ranges have the same common part, or none, in whatever order they are clipped. -/
theorem clip_laws (sort : OneSort (a.keys ++ b.keys ++ c.keys)) :
    (∃ overlap, a.overlaps? b = .ok overlap ∧ b.overlaps? a = .ok overlap ∧
      (a.clip? b = .ok none ↔ overlap = false) ∧
      (a.clip b = .error (.invalid (.disjointRanges b.shown a.shown)) ↔ overlap = false) ∧
      (overlap = true → ∃ r, a.clip? b = .ok (some r) ∧ CommonPart a b r)) ∧
    ∃ out, (a.clip? b >>= fun part => part? part (some c)) = .ok out ∧
      (b.clip? c >>= fun part => part? (some a) part) = .ok out := by
  obtain ⟨two, hc⟩ := List.append_subset.mp (List.Subset.refl (a.keys ++ b.keys ++ c.keys))
  obtain ⟨ha, hb⟩ := List.append_subset.mp two
  have clipped := clip?_of_oneSort sort ha hb
  refine ⟨⟨_, overlaps?_of_oneSort sort ha hb, ?_, ?_⟩, exists_clip_assoc sort ha hb hc⟩
  · rw [overlaps?_of_oneSort sort hb ha, Span.meet?_comm]
  · -- what two ranges have in common decides everything that is said about the two
    cases h : a.span.meet? b.span with
    | none =>
      rw [h] at clipped
      exact ⟨iff_of_true clipped rfl, iff_of_true (clip_of_none clipped) rfl, nofun⟩
    | some u =>
      have common := commonPart_of_meet? (sort.subset two) h
      rw [h] at clipped
      simp [clipped, common.clip, common]

/-- The rows of a tablet. -/
def gToP : KeyRange := ⟨some ⟨.text "g", .bool false⟩, some ⟨.text "p", .bool true⟩, by decide⟩

def hToZ : KeyRange := ⟨some ⟨.text "h", .bool true⟩, some ⟨.text "z", .bool true⟩, by decide⟩

/-- The rows before `k`, of which it is not said whether it is one of them. -/
def toK : KeyRange := ⟨none, some ⟨.text "k", .null⟩, trivial⟩

/-- A tablet, a range that was asked for and a bound: what is left of all three does not depend on
which two are clipped first. -/
theorem clip_laws_tablet :
    OneSort (gToP.keys ++ hToZ.keys ++ toK.keys) ∧
      (∃ r, gToP.clip? hToZ = .ok (some r) ∧ CommonPart gToP hToZ r) ∧
      (gToP.clip? hToZ >>= fun part => part? part (some toK)) =
        .ok (some ⟨some ⟨.text "h", .bool true⟩, some ⟨.text "k", .bool false⟩, by decide⟩) ∧
      (hToZ.clip? toK >>= fun part => part? (some gToP) part) =
        .ok (some ⟨some ⟨.text "h", .bool true⟩, some ⟨.text "k", .bool false⟩, by decide⟩) := by
  have sort : OneSort (gToP.keys ++ hToZ.keys ++ toK.keys) := by decide
  obtain ⟨⟨overlap, overlaps, -, -, -, common⟩, out, left, right⟩ := clip_laws sort
  have meets : gToP.overlaps? hToZ = .ok true := by decide +kernel
  have known : (gToP.clip? hToZ >>= fun part => part? part (some toK)) =
      .ok (some ⟨some ⟨.text "h", .bool true⟩, some ⟨.text "k", .bool false⟩, by decide⟩) := by
    decide +kernel
  rw [meets] at overlaps
  rw [known] at left
  cases overlaps
  cases left
  exact ⟨sort, common rfl, known, right⟩

end KeyRange

end ScanPlanner
