import ScanPlanner.KeyRange.Merge
import ScanPlanner.Proofs.Outcome
import ScanPlanner.Proofs.Span

/-!
# The keys of ranges

A key lies in a range, `k ∈ r`, if the span of the range holds it; this is what `KeyRange.contains?`
tells of keys that can be compared with those of the range. Ranges that are equal hold the same keys
(`KeyRange.span_eq_of_beq`), a part of a range holds the keys of the two ranges that it was clipped
from (`KeyRange.mem_clip`), and the ranges to locate hold the keys of the requested ones, or all
keys if none is requested (`KeyRange.exists_mem_normalize`). Ranges that were merged have no key in
common (`KeyRange.pairwise_disjoint_normalize`). -/

namespace ScanPlanner

/-! ## Values that mean the same -/

theorem Binary64.ratio_den_pos (mantissa : Nat) (exponent : Int) :
    0 < (ratio mantissa exponent).2 :=
  Nat.pow_pos (by decide)

/-- The numerator is zero only for zero. -/
theorem Binary64.ratio_num_eq_zero_iff (mantissa : Nat) (exponent : Int) :
    (ratio mantissa exponent).1 = 0 ↔ mantissa = 0 := by
  have factor : 0 < Nat.pow 2 exponent.toNat := Nat.pow_pos (by decide)
  show mantissa * Nat.pow 2 exponent.toNat = 0 ↔ _
  rw [Nat.mul_eq_zero]
  omega

/-- A number that equals a whole number is zero if that one is. Both zeros equal the whole number
zero. -/
theorem Binary64.whole?_eq_zero_iff {x : Binary64} {n : Int} (h : x.whole? = some n) :
    n = 0 ↔ x.isZero = true := by
  cases x with
  | infinite _ => simp [whole?] at h
  | nan => simp [whole?] at h
  | finite negative mantissa exponent =>
    have unit := ratio_den_pos mantissa exponent
    have zero := ratio_num_eq_zero_iff mantissa exponent
    simp only [whole?] at h
    split at h
    · next divides =>
      -- the denominator divides, so the quotient is zero only if the numerator is
      have quotient : (ratio mantissa exponent).1 / (ratio mantissa exponent).2 = 0 ↔
          mantissa = 0 := by
        rw [Nat.div_eq_zero_iff_lt unit, ← zero]
        constructor
        · intro lt
          rwa [Nat.mod_eq_of_lt lt] at divides
        · intro e
          rwa [e]
      cases h
      simp only [isZero, decide_eq_true_eq, ← quotient]
      split <;> omega
    · cases h

namespace Json

/-- An object with a member has one in its canonical form, so both count as something or neither
does. -/
theorem canonicalMembers_ne_nil (m : String × Json) (ms : List (String × Json)) :
    canonicalMembers (m :: ms) ≠ [] := by
  obtain ⟨name, value⟩ := m
  rw [canonicalMembers]
  cases canonicalMembers ms with
  | nil => simp [insertMember]
  | cons m' ms' =>
    unfold insertMember
    split <;> simp

/-- A value counts as something or nothing in its canonical form as it does itself; so true, 1 and
1.0 count alike. -/
theorem isPresent_canonical (v : Json) : v.canonical.isPresent = v.isPresent := by
  -- only numbers, lists and objects may change, and what is empty or zero stays so
  cases v with
  | null => rfl
  | bool b => cases b <;> rfl
  | int n => rfl
  | text s => rfl
  | list items => cases items <;> simp [canonical, canonicalItems, isPresent]
  | object members =>
    cases members with
    | nil => simp [canonical, canonicalMembers, isPresent]
    | cons m ms =>
      have := canonicalMembers_ne_nil m ms
      simpa [canonical, isPresent] using this
  | real x =>
    cases h : x.whole? with
    | none => simp [canonical, h]
    | some n =>
      have := Binary64.whole?_eq_zero_iff h
      cases hx : x.isZero <;> simp_all [canonical, isPresent]

theorem canonical_eq_of_beq {v w : Json} (h : (v == w) = true) : v.canonical = w.canonical :=
  of_decide_eq_true h

theorem isScalar_canonical (v : Json) : v.canonical.isScalar = v.isScalar := by
  cases v with
  | real x => cases h : x.whole? <;> simp [canonical, h, isScalar]
  | _ => rfl

/-- Equal values can both be keys or neither. -/
theorem isScalar_eq_of_beq {v w : Json} (h : (v == w) = true) : v.isScalar = w.isScalar := by
  rw [← isScalar_canonical v, canonical_eq_of_beq h, isScalar_canonical w]

theorem text_beq_text (s t : String) : (text s == text t) = decide (s = t) := by
  show decide ((text s).canonical = (text t).canonical) = _
  simp [canonical]

/-- Only a text has a text as its canonical form. -/
theorem eq_text_of_canonical {v : Json} {s : String} (h : v.canonical = .text s) : v = .text s := by
  cases v with
  | text t => simpa [canonical] using h
  | real x =>
    cases hx : x.whole? <;> simp [canonical, hx] at h
  | _ => simp [canonical] at h

end Json

namespace KeyRange

/-! ## Keys -/

instance : Membership RowKey KeyRange := ⟨fun r k => r.span.Holds k⟩

theorem mem_iff {r : KeyRange} {k : RowKey} : k ∈ r ↔ r.span.Holds k := Iff.rfl

instance (k : RowKey) (r : KeyRange) : Decidable (k ∈ r) :=
  inferInstanceAs (Decidable (r.span.Holds k))

/-- For a key that can be compared with those of the range, the test whether the range contains it
has an answer, and the answer is whether the key lies in it. -/
theorem contains?_of_alike {r : KeyRange} {k : RowKey} (h : alikeKeys r.keys [k] = true) :
    r.contains? (some k) = .ok (decide (r.span.Holds k)) :=
  if_pos h

@[simp] theorem mem_everything (k : RowKey) : k ∈ everything :=
  ⟨Cut.bottom_le _, Cut.le_top _⟩

theorem map_span_ofSpan (ss : List Span) : (ss.map ofSpan).map span = ss := by
  rw [List.map_map]
  exact (List.map_congr_left fun s _ => span_ofSpan s).trans (List.map_id _)

theorem mem_ofSpan {s : Span} {k : RowKey} : k ∈ ofSpan s ↔ s.Holds k := by
  rw [mem_iff, span_ofSpan]

/-- An end is told by its cut, whatever value says that it is closed. -/
theorem Edge.closed_eq_of_identity {e f : Edge} (h : e.identity = f.identity) :
    e.key = f.key ∧ e.closed = f.closed := by
  obtain ⟨hk, hc⟩ := Prod.mk.injEq .. ▸ h
  refine ⟨hk, ?_⟩
  -- values that count as equal count alike as something or nothing
  rw [Edge.closed, Edge.closed, ← Json.isPresent_canonical, hc, Json.isPresent_canonical]

/-- Equal ranges hold the same keys, however the flags of their ends are written. A flag counts as
closed or not, and equal flags count the same. -/
theorem span_eq_of_beq {a b : KeyRange} (h : (a == b) = true) : a.span = b.span := by
  have same : a.identity = b.identity := of_decide_eq_true h
  obtain ⟨la, ua, _⟩ := a
  obtain ⟨lb, ub, _⟩ := b
  simp only [identity, Prod.mk.injEq] at same
  -- a flag tells only whether it counts as something
  have lower : Cut.ofLower la = Cut.ofLower lb := by
    cases la <;> cases lb <;> simp at same
    · rfl
    · obtain ⟨hk, hc⟩ := Edge.closed_eq_of_identity same.1
      simp only [Cut.ofLower, hk, hc]
  have upper : Cut.ofUpper ua = Cut.ofUpper ub := by
    cases ua <;> cases ub <;> simp at same
    · rfl
    · obtain ⟨hk, hc⟩ := Edge.closed_eq_of_identity same.2
      simp only [Cut.ofUpper, hk, hc]
  simp only [span, lower, upper]

/-- It can be told which end of the range comes first. Such are the ranges that can be made. -/
def Told (r : KeyRange) : Prop :=
  RowKey.toldEnds (r.lower.map Edge.key) (r.upper.map Edge.key) = true

instance (r : KeyRange) : Decidable r.Told := inferInstanceAs (Decidable (_ = true))

/-- A range is made of two ends exactly if they are its own ends and their order can be told: that
something lies between them is part of what a range is. -/
theorem make_eq_ok_iff {lower upper : Option Edge} {r : KeyRange} : make lower upper = .ok r ↔
    r.Told ∧ r.lower = lower ∧ r.upper = upper := by
  unfold make
  constructor
  · intro h
    split at h
    · next told =>
      split at h
      · cases h
        exact ⟨told, rfl, rfl⟩
      · cases h
    · cases h
  · rintro ⟨told, rfl, rfl⟩
    unfold Told at told
    rw [if_pos told, dif_pos r.nonempty]

/-! ## Two ranges -/

/-- If the test for overlap has an answer, it is whether the spans meet. -/
theorem overlaps?_eq_ok {a b : KeyRange} {r : Bool} (h : a.overlaps? b = .ok r) :
    r = (a.span.meet? b.span).isSome := by
  unfold overlaps? at h
  split at h
  · exact (Except.ok.inj h).symm
  · cases h

/-- If a range can be clipped, the part is where the spans meet. -/
theorem clip_eq_ok {a b r : KeyRange} (h : a.clip b = .ok r) :
    a.span.meet? b.span = some r.span := by
  unfold clip at h
  obtain ⟨part, hpart, h⟩ := Result.bind_eq_ok.mp h
  unfold clip? at hpart
  split at hpart
  · cases hpart
    cases hm : a.span.meet? b.span with
    | none => simp [hm] at h
    | some u =>
      simp only [hm, Option.map_some, Except.ok.injEq] at h
      rw [← h, span_ofSpan]
  · cases hpart

/-- Ranges that overlap have a part in common. To make it all ends are compared, while only some are
to see whether the ranges overlap: hence the first hypothesis. -/
theorem exists_clip {a b : KeyRange} (keys : alikeKeys a.keys b.keys = true)
    (overlap : a.overlaps? b = .ok true) : ∃ r, a.clip b = .ok r := by
  have some := (overlaps?_eq_ok overlap).symm
  obtain ⟨u, hu⟩ := Option.isSome_iff_exists.mp some
  refine ⟨ofSpan u, ?_⟩
  unfold clip clip?
  rw [if_pos keys, hu]
  rfl

/-- The part of a range holds the keys that both ranges hold. -/
theorem mem_clip {a b r : KeyRange} {k : RowKey} (h : a.clip b = .ok r) :
    k ∈ r ↔ k ∈ a ∧ k ∈ b :=
  Span.holds_meet? (clip_eq_ok h)

/-! ## Many ranges -/

/-- Some of the ranges holds the key. -/
def AnyHolds (rs : List KeyRange) (k : RowKey) : Prop := ∃ r ∈ rs, k ∈ r

/-- To add a range to a union is to insert its span. -/
theorem addTo_eq_ok {ss ss' : List Span} {r : KeyRange} (h : addTo ss r = .ok ss') :
    ss' = r.span.insert ss := by
  unfold addTo at h
  split at h
  · exact (Except.ok.inj h).symm
  · cases h

/-- The union of ranges, added to a union, holds the keys of both and is in order if that one is.
The induction is over any union to begin with, as it changes with each range. -/
theorem foldlM_addTo_eq_ok {rs : List KeyRange} {ss ss' : List Span}
    (h : rs.foldlM addTo ss = .ok ss') :
    (∀ k, Span.AnyHolds ss' k ↔ Span.AnyHolds ss k ∨ AnyHolds rs k) ∧
      (Span.Separated ss → Span.Separated ss') ∧ (ss' = [] → ss = [] ∧ rs = []) := by
  -- induction on the ranges, for any union to begin with
  induction rs generalizing ss with
  | nil =>
    cases h
    simp [AnyHolds]
  | cons r rs ih =>
    rw [List.foldlM_cons] at h
    obtain ⟨mid, hmid, h⟩ := Result.bind_eq_ok.mp h
    obtain ⟨keys, order, empty⟩ := ih h
    have e := addTo_eq_ok hmid
    refine ⟨fun k => ?_, fun sep => order (e ▸ Span.separated_insert _ sep), fun none => ?_⟩
    · rw [keys, e, Span.anyHolds_insert]
      simp only [AnyHolds, List.exists_mem_cons_iff]
      tauto
    · have hnil : r.span.insert ss = [] := e ▸ (empty none).1
      exact absurd hnil (Span.insert_ne_nil _ _)

/-- Merged ranges hold the keys of the ranges that were merged, and no other ones. Keys between two
ranges that touch are not added, because there are none. -/
theorem exists_mem_merge {rs out : List KeyRange} (h : merge rs = .ok out) (k : RowKey) :
    AnyHolds out k ↔ AnyHolds rs k := by
  obtain ⟨ss, hss, h⟩ := Result.bind_eq_ok.mp h
  cases h
  obtain ⟨keys, -, -⟩ := foldlM_addTo_eq_ok hss
  have := keys k
  simp only [Span.anyHolds_nil, false_or] at this
  rw [← this]
  simp [AnyHolds, Span.AnyHolds, mem_ofSpan]

/-- Merged ranges are in order, with a gap between each two. -/
theorem separated_merge {rs out : List KeyRange} (h : merge rs = .ok out) :
    Span.Separated (out.map span) := by
  obtain ⟨ss, hss, h⟩ := Result.bind_eq_ok.mp h
  cases h
  obtain ⟨-, order, -⟩ := foldlM_addTo_eq_ok hss
  rw [map_span_ofSpan]
  exact order List.Pairwise.nil

theorem merge_eq_nil {rs : List KeyRange} (h : merge rs = .ok []) : rs = [] := by
  obtain ⟨ss, hss, h⟩ := Result.bind_eq_ok.mp h
  obtain ⟨-, -, empty⟩ := foldlM_addTo_eq_ok hss
  exact (empty (List.map_eq_nil_iff.mp (Except.ok.inj h))).2

/-- The ranges to locate are the requested ones or what these are merged to, and the range of all
keys if there are none. -/
theorem normalize_eq_ok {rs out : List KeyRange} {adjust : Bool}
    (h : normalize rs adjust = .ok out) :
    ∃ ns, (if adjust then merge rs else .ok rs) = .ok ns ∧
      out = if ns.isEmpty then [everything] else ns := by
  cases adjust with
  | true =>
    obtain ⟨ns, hns, h⟩ := Result.bind_eq_ok.mp h
    exact ⟨ns, hns, (Except.ok.inj h).symm⟩
  | false => exact ⟨rs, rfl, (Except.ok.inj h).symm⟩

/-- The ranges to locate hold the keys of the requested ones; with none requested, all keys. This is
so whether or not the ranges are to be merged. -/
theorem exists_mem_normalize {rs out : List KeyRange} {adjust : Bool}
    (h : normalize rs adjust = .ok out) (k : RowKey) :
    AnyHolds out k ↔ rs = [] ∨ AnyHolds rs k := by
  obtain ⟨ns, hns, rfl⟩ := normalize_eq_ok h
  have same : AnyHolds ns k ↔ AnyHolds rs k := by
    cases adjust with
    | true => exact exists_mem_merge hns k
    | false => rw [Except.ok.inj hns]
  -- merging leaves nothing only of nothing, so everything is located only if nothing is requested
  have empty : ns = [] ↔ rs = [] := by
    cases adjust with
    | true =>
      constructor
      · rintro rfl
        exact merge_eq_nil hns
      · rintro rfl
        exact (Except.ok.inj hns).symm
    | false => rw [Except.ok.inj hns]
  cases ns with
  | nil =>
    have := empty.mp rfl
    simp [AnyHolds, this]
  | cons n ns =>
    have : rs ≠ [] := fun e => by simpa using empty.mpr e
    simpa [this] using same

/-- No two of the ranges hold the same key. -/
def Disjoint (a b : KeyRange) : Prop := ∀ k, ¬ (k ∈ a ∧ k ∈ b)

theorem Disjoint.symm {a b : KeyRange} (h : Disjoint a b) : Disjoint b a :=
  fun k both => h k both.symm

/-- Merged ranges are pairwise disjoint. -/
theorem pairwise_disjoint_normalize {rs out : List KeyRange} (h : normalize rs true = .ok out) :
    out.Pairwise Disjoint := by
  obtain ⟨ns, hns, rfl⟩ := normalize_eq_ok h
  cases ns with
  | nil => exact List.pairwise_singleton _ _
  | cons n ns =>
    have apart := (separated_merge hns).pairwise_disjoint
    rw [List.pairwise_map] at apart
    exact apart

end KeyRange

end ScanPlanner
