import ScanPlanner.Proofs.Holders

/-!
# The order of ranges

Ranges whose keys can be compared are ordered as the intervals that they denote: one of two ranges
comes before the other one, or each covers the other one. They are equal if besides they say the
same about their ends, and all ranges that are read from records with plain truth values do
(`KeyRange.order_and_equality`).

A record may leave it unsaid whether an end is closed. Such a range denotes the same interval as one
that denies it, and neither comes before the other, but the two are not equal
(`KeyRange.tied_unsaid`).
-/

namespace ScanPlanner

/-- What a record says about the ends of a range being closed are truth values. It may also say
nothing about them. -/
def Json.SaysPlainly (v : Json) : Prop :=
  ∀ name ∈ ["startInclusive", "endInclusive"], ∀ said,
    v.member? name = .ok (some said) → ∃ b, said = .bool b

namespace KeyRange

variable {ks : List RowKey} {a b c : KeyRange}

/-! ## Ranges that are read -/

/-- An end with a plain flag has that flag, and a missing end has its own. -/
theorem flag_map_eq_bool {key : Option RowKey} {said : Json} (h : ∃ b, said = .bool b) :
    ∃ b, flag (key.map (⟨·, said⟩)) = .bool b := by
  cases key with
  | none => exact ⟨false, rfl⟩
  | some k => exact h

/-- Of a record that says plainly whether its ends are closed a range with plain flags is read. An
end that nothing is said of counts as said plainly. -/
theorem boolean_of_ofJson {v : Json} {r : KeyRange} (h : ofJson v = .ok r)
    (plain : v.SaysPlainly) : r.Boolean := by
  obtain ⟨_, -, h⟩ := Result.bind_eq_ok.mp h
  obtain ⟨start, -, h⟩ := Result.bind_eq_ok.mp h
  obtain ⟨_, -, h⟩ := Result.bind_eq_ok.mp h
  obtain ⟨last, -, h⟩ := Result.bind_eq_ok.mp h
  obtain ⟨startSaid, hs, h⟩ := Result.bind_eq_ok.mp h
  obtain ⟨lastSaid, hl, h⟩ := Result.bind_eq_ok.mp h
  obtain ⟨-, lower, upper⟩ := make_eq_ok_iff.mp h
  -- an end that nothing is said about is closed
  have truth {name : String} {said : Option Json}
      (named : name ∈ ["startInclusive", "endInclusive"]) (h : v.member? name = .ok said) :
      ∃ b, said.getD (.bool true) = .bool b := by
    cases said with
    | none => exact ⟨true, rfl⟩
    | some said => exact plain name named said h
  constructor
  · rw [lower]
    exact flag_map_eq_bool (truth (by decide) hs)
  · rw [upper]
    exact flag_map_eq_bool (truth (by decide) hl)

/-! ## Equality and order -/

/-- Each of the ranges covers the other one. Two such ranges need not be equal, as a null and a
false are two ways to say that an end is open. -/
def SameInterval (a b : KeyRange) : Prop := a.covers? b = .ok true ∧ b.covers? a = .ok true

/-- Ranges whose keys can be compared cover each other exactly if they have the same span. Other
ranges would fail to be compared. -/
theorem sameInterval_iff (sort : OneSort ks) (ha : a.keys ⊆ ks) (hb : b.keys ⊆ ks) :
    SameInterval a b ↔ a.span = b.span := by
  unfold SameInterval
  rw [covers?_of_oneSort sort ha hb, covers?_of_oneSort sort hb ha]
  simp only [Except.ok.injEq, decide_eq_true_eq]
  constructor
  · exact fun both => both.1.antisymm both.2
  · intro e
    rw [e]
    exact ⟨.refl _, .refl _⟩

theorem rank_eq_iff : a.rank = b.rank ↔ a.span = b.span := by
  show toLex (a.span.lo, a.span.hi) = toLex (b.span.lo, b.span.hi) ↔ _
  rw [toLex_inj, Prod.mk.injEq, ← Span.mk.injEq]

/-- Ends are told apart by their keys, and then by the flags as they are given, so a flag that
counts as another one may differ from it. -/
theorem identity_eq_iff {e f : Option Edge} : e.map Edge.identity = f.map Edge.identity ↔
    e.map Edge.key = f.map Edge.key ∧ (flag e == flag f) = true := by
  have means (v w : Json) : (v == w) = true ↔ v.canonical = w.canonical := decide_eq_true_iff
  rw [means]
  cases e <;> cases f <;> simp [flag, Edge.identity]

/-- Equal ranges denote the same interval and say the same about their ends. The second part is not
implied by the first one: a flag may be null or false. -/
theorem beq_iff : (a == b) = true ↔ a.span = b.span ∧
    (flag a.lower == flag b.lower) = true ∧ (flag a.upper == flag b.upper) = true := by
  have identities : (a == b) = true ↔ a.identity = b.identity := decide_eq_true_iff
  unfold identity at identities
  rw [Prod.mk.injEq, identity_eq_iff, identity_eq_iff] at identities
  constructor
  · intro h
    obtain ⟨⟨-, lower⟩, -, upper⟩ := identities.mp h
    exact ⟨span_eq_of_beq h, lower, upper⟩
  · rintro ⟨same, lower, upper⟩
    -- the span has the keys of the ends, and whether they belong to it
    have lowers : a.lower.map Edge.key = b.lower.map Edge.key := by
      rw [← Cut.key?_ofLower, ← Cut.key?_ofLower]
      exact congrArg (fun s => s.lo.key?) same
    have uppers : a.upper.map Edge.key = b.upper.map Edge.key := by
      rw [← Cut.key?_ofUpper, ← Cut.key?_ofUpper]
      exact congrArg (fun s => s.hi.key?) same
    exact identities.mpr ⟨⟨lowers, lower⟩, uppers, upper⟩

/-- Of two ranges one comes before the other, or they denote the same interval. So ranges that tie
in order cover each other, even if they are not equal. -/
theorem before?_trichotomy (sort : OneSort ks) (ha : a.keys ⊆ ks) (hb : b.keys ⊆ ks) :
    (a.before? b = .ok true ∧ b.before? a = .ok false ∧ ¬ SameInterval a b) ∨
    (a.before? b = .ok false ∧ b.before? a = .ok false ∧ SameInterval a b) ∨
    (a.before? b = .ok false ∧ b.before? a = .ok true ∧ ¬ SameInterval a b) := by
  rw [sameInterval_iff sort ha hb, ← rank_eq_iff, before?_of_oneSort sort ha hb,
    before?_of_oneSort sort hb ha]
  simp only [Except.ok.injEq, decide_eq_true_eq, decide_eq_false_iff_not, lt_iff_rank_lt]
  rcases lt_trichotomy a.rank b.rank with lt | same | gt
  · exact .inl ⟨lt, lt_asymm lt, ne_of_lt lt⟩
  · exact .inr (.inl ⟨same ▸ lt_irrefl _, same ▸ lt_irrefl _, same⟩)
  · exact .inr (.inr ⟨lt_asymm gt, gt, ne_of_gt gt⟩)

/-- The order of ranges whose keys can be compared is transitive, since it is the order of their
ranks. -/
theorem before?_trans (sort : OneSort ks) (ha : a.keys ⊆ ks) (hb : b.keys ⊆ ks) (hc : c.keys ⊆ ks)
    (h : a.before? b = .ok true) (h' : b.before? c = .ok true) : a.before? c = .ok true := by
  rw [before?_of_oneSort sort ha hb] at h
  rw [before?_of_oneSort sort hb hc] at h'
  rw [before?_of_oneSort sort ha hc]
  simp only [Except.ok.injEq, decide_eq_true_eq, lt_iff_rank_lt] at h h' ⊢
  exact lt_trans h h'

/-- Ranges that are read from records, with keys that can be compared. They are equal just if each
covers the other one and they say the same about their ends, and the latter makes no difference if
both records use truth values; one of the two comes before the other one just if it is not so that
each covers the other; and the order is transitive. -/
theorem order_and_equality {v w : Json} (ha : ofJson v = .ok a) (hb : ofJson w = .ok b)
    (sort : OneSort (a.keys ++ b.keys ++ c.keys)) :
    ((a == b) = true ↔ SameInterval a b ∧
      (flag a.lower == flag b.lower) = true ∧ (flag a.upper == flag b.upper) = true) ∧
    (v.SaysPlainly → w.SaysPlainly → ((a == b) = true ↔ SameInterval a b)) ∧
    ((a.before? b = .ok true ∧ b.before? a = .ok false ∧ ¬ SameInterval a b) ∨
      (a.before? b = .ok false ∧ b.before? a = .ok false ∧ SameInterval a b) ∨
      (a.before? b = .ok false ∧ b.before? a = .ok true ∧ ¬ SameInterval a b)) ∧
    (a.before? b = .ok true → b.before? c = .ok true → a.before? c = .ok true) := by
  obtain ⟨two, keysC⟩ := List.append_subset.mp (List.Subset.refl (a.keys ++ b.keys ++ c.keys))
  obtain ⟨keysA, keysB⟩ := List.append_subset.mp two
  have same := sameInterval_iff sort keysA keysB
  refine ⟨?_, fun plain plain' => ?_, before?_trichotomy sort keysA keysB,
    before?_trans sort keysA keysB keysC⟩
  · rw [same]
    exact beq_iff
  · rw [same]
    -- flags that are said plainly are the same once they count as the same
    refine ⟨span_eq_of_beq, fun e => ?_⟩
    rw [(boolean_of_ofJson ha plain).eq_of_span_eq (boolean_of_ofJson hb plain') e]
    exact BEq.rfl

/-- The record of a range from `a` to `b`, with what is said about its end. -/
def aToB (said : List (String × Json)) : Json :=
  .object (("start", .text "a") :: ("end", .text "b") :: said)

/-- The range from `a` to `b`, which is closed at its end or open. -/
def fromAToB (closed : Bool) : KeyRange where
  lower := some ⟨.text "a", .bool true⟩
  upper := some ⟨.text "b", .bool closed⟩
  nonempty := by cases closed <;> decide

/-- The range of all rows from `b` on. -/
def fromB : KeyRange := ⟨some ⟨.text "b", .bool true⟩, none, by decide⟩

/-- If the end is said to be open, the range comes before the one with an end of which nothing is
said, and so before all that come after that one. -/
theorem order_and_equality_aToB :
    ofJson (aToB [("endInclusive", .bool false)]) = .ok (fromAToB false) ∧
      ofJson (aToB []) = .ok (fromAToB true) ∧
      OneSort ((fromAToB false).keys ++ (fromAToB true).keys ++ fromB.keys) ∧
      (aToB [("endInclusive", .bool false)]).SaysPlainly ∧ (aToB []).SaysPlainly ∧
      (fromAToB false == fromAToB true) = false ∧
      ¬ SameInterval (fromAToB false) (fromAToB true) ∧
      (fromAToB false).before? (fromAToB true) = .ok true ∧
      (fromAToB true).before? fromB = .ok true ∧ (fromAToB false).before? fromB = .ok true := by
  have said : (aToB [("endInclusive", .bool false)]).SaysPlainly := by
    intro name named said h
    obtain rfl | rfl := List.mem_pair.mp named
    · cases h
    · cases h
      exact ⟨false, rfl⟩
  have unsaid : (aToB []).SaysPlainly := by
    intro name named said h
    obtain rfl | rfl := List.mem_pair.mp named <;> cases h
  have sort : OneSort ((fromAToB false).keys ++ (fromAToB true).keys ++ fromB.keys) := by decide
  obtain ⟨-, equal, order, trans⟩ :=
    order_and_equality (v := aToB [("endInclusive", .bool false)]) (w := aToB []) rfl rfl sort
  have before : (fromAToB false).before? (fromAToB true) = .ok true := by decide +kernel
  have after : (fromAToB true).before? fromB = .ok true := by decide +kernel
  have apart : ¬ SameInterval (fromAToB false) (fromAToB true) := by
    obtain ⟨-, -, apart⟩ | ⟨tied, -⟩ | ⟨late, -⟩ := order
    · exact apart
    · cases before.symm.trans tied
    · cases before.symm.trans late
  exact ⟨rfl, rfl, sort, said, unsaid,
    eq_false_of_ne_true fun e => apart ((equal said unsaid).mp e), apart, before,
    after, trans before after⟩

/-- A range with an end that is not said to be closed or open, and the one with an open end: each
covers the other one and none comes first, so they stay as they are when they are sorted, but they
are not equal. -/
theorem tied_unsaid : ∃ a b,
    ofJson (aToB [("endInclusive", .null)]) = .ok a ∧
      ofJson (aToB [("endInclusive", .bool false)]) = .ok b ∧ SameInterval a b ∧
      (a == b) = false ∧ a.before? b = .ok false ∧ b.before? a = .ok false ∧
      sort [a, b] = .ok [a, b] ∧ sort [b, a] = .ok [b, a] := by
  refine ⟨_, _, rfl, rfl, ⟨?_, ?_⟩, ?_, ?_, ?_, ?_, ?_⟩ <;> decide +kernel

end KeyRange

end ScanPlanner
