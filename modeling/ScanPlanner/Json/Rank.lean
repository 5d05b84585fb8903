import ScanPlanner.Json.Order

/-!
# All values in a row

`Json.before?` orders some values and leaves others without an order: a text and a number, two
objects, what is no number and anything at all. Where a place is needed for every value, `precedes`
gives one. It is a total order (`precedes_trichotomy`, `precedes_trans`, `not_precedes_self`): first
come the numbers by their size, then what is no number, then the texts, the lists, item by item, and
the objects, member by member.

Values without parts are told apart by rows of numbers (`label`), and the order is that of the
labels; only two texts, two lists or two objects share a label, and are compared further.
-/

namespace ScanPlanner

namespace Binary64

/-- The rational number that a finite number is. -/
def rational (negative : Bool) (mantissa : Nat) (exponent : Int) : Rat :=
  let (num, den) := ratio mantissa exponent
  ((if negative then -(num : Int) else num : Int) : Rat) / (den : Rat)

/-- The place of a number among the kinds of values, then its size and how it is given. -/
def label : Binary64 → List Rat
  | .infinite true => [2]
  | .finite negative mantissa exponent =>
    [3, rational negative mantissa exponent, exponent, mantissa, negative.toNat]
  | .infinite false => [4]
  | .nan => [5]

end Binary64

namespace Json

/-- The place of a value's kind, and of a number also its size. -/
def label : Json → List Rat
  | .null => [0]
  | .bool b => [1, b.toNat]
  | .int n => [3, n]
  | .real x => x.label
  | .text _ => [6]
  | .list _ => [7]
  | .object _ => [8]

mutual

/-- The first value has its place before the second one. -/
def precedes (v w : Json) : Bool :=
  match v, w with
  | .int m, .int n => decide (m < n)
  | .text s, .text t => decide (s < t)
  | .list xs, .list ys => itemsPrecede xs ys
  | .object xs, .object ys => membersPrecede xs ys
  | v, w => decide (v.label < w.label)

/-- The first items that differ decide; items that end come before those that go on. -/
def itemsPrecede (xs ys : List Json) : Bool :=
  match xs, ys with
  | [], ys => !ys.isEmpty
  | _ :: _, [] => false
  | x :: xs, y :: ys => precedes x y || decide (x = y) && itemsPrecede xs ys

/-- The first members that differ decide, by their names and then by their values. -/
def membersPrecede (xs ys : List (String × Json)) : Bool :=
  match xs, ys with
  | [], ys => !ys.isEmpty
  | _ :: _, [] => false
  | (n, x) :: xs, (m, y) :: ys =>
    decide (n < m) || decide (n = m) && (precedes x y || decide (x = y) && membersPrecede xs ys)

end

/-! ## Labels -/

/-- The first of two values with the same label comes before the second one. -/
def Within : Json → Json → Prop
  | .text s, .text t => s < t
  | .list xs, .list ys => itemsPrecede xs ys = true
  | .object xs, .object ys => membersPrecede xs ys = true
  | _, _ => False

/-- The order of values is that of their labels, and for values that share one the order within. -/
theorem precedes_iff {v w : Json} : v.precedes w = true ↔ v.label < w.label ∨ Within v w := by
  cases v <;> cases w <;>
    simp [precedes, Within, label, List.cons_lt_cons_iff, Std.lt_irrefl, Rat.intCast_lt_intCast] <;>
    exact decide_eq_true_iff

theorem label_eq_of_within {v w : Json} (h : Within v w) : v.label = w.label := by
  cases v <;> cases w <;> first | exact h.elim | rfl

/-- Values that share a label are the same value, or both are texts, both lists or both objects. The
label of a number ends with the way in which it is given, so two numbers of one size differ. -/
theorem eq_of_label_eq {v w : Json} (h : v.label = w.label) :
    v = w ∨ (∃ s t, v = .text s ∧ w = .text t) ∨ (∃ xs ys, v = .list xs ∧ w = .list ys) ∨
      ∃ xs ys, v = .object xs ∧ w = .object ys := by
  have sign (b c : Bool) : b.toNat = c.toNat ↔ b = c := by cases b <;> cases c <;> simp
  unfold label Binary64.label at h
  split at h <;> split at h
  all_goals try split at h
  all_goals try split at h
  all_goals simp [sign, Rat.intCast_inj, Rat.natCast_inj] at h ⊢
  all_goals simp [h]

/-! ## No value before itself -/

mutual

/-- No value comes before itself. -/
theorem not_precedes_self (v : Json) : precedes v v = false := by
  cases v with
  | int n => simp [precedes]
  | text s => simp [precedes, Std.lt_irrefl]
  | list items => simp [precedes, not_itemsPrecede_self items]
  | object members => simp [precedes, not_membersPrecede_self members]
  | _ => simp [precedes, Std.lt_irrefl]

theorem not_itemsPrecede_self : (xs : List Json) → itemsPrecede xs xs = false
  | [] => rfl
  | x :: xs => by simp [itemsPrecede, not_precedes_self x, not_itemsPrecede_self xs]

theorem not_membersPrecede_self : (xs : List (String × Json)) → membersPrecede xs xs = false
  | [] => rfl
  | (n, x) :: xs => by
    simp [membersPrecede, not_precedes_self x, not_membersPrecede_self xs, Std.lt_irrefl]

end

/-! ## One of two values before the other -/

/-- Of two values one comes before the other, or they are the same, if that is so of two lists and
of two objects. -/
theorem precedes_or_eq {v w : Json}
    (lists : ∀ {xs ys}, v = .list xs → w = .list ys →
      v.precedes w = true ∨ v = w ∨ w.precedes v = true)
    (objects : ∀ {xs ys}, v = .object xs → w = .object ys →
      v.precedes w = true ∨ v = w ∨ w.precedes v = true) :
    v.precedes w = true ∨ v = w ∨ w.precedes v = true := by
  rcases Std.lt_trichotomy v.label w.label with lt | same | gt
  · exact .inl (precedes_iff.mpr (.inl lt))
  · rcases eq_of_label_eq same with same | ⟨s, t, rfl, rfl⟩ | ⟨xs, ys, hv, hw⟩ | ⟨xs, ys, hv, hw⟩
    · exact .inr (.inl same)
    · simp only [precedes, decide_eq_true_eq, Json.text.injEq]
      exact Std.lt_trichotomy s t
    · exact lists hv hw
    · exact objects hv hw
  · exact .inr (.inr (precedes_iff.mpr (.inl gt)))

mutual

/-- Of any two values one comes before the other, or they are the same. Induction on the first one:
lists and objects by their parts, all others by their labels. -/
theorem precedes_trichotomy : (v w : Json) → v.precedes w = true ∨ v = w ∨ w.precedes v = true
  | .list xs, w => precedes_or_eq (fun hv hw => by
      cases hv
      rw [hw, precedes, precedes, Json.list.injEq]
      exact itemsPrecede_trichotomy xs _) nofun
  | .object xs, w => precedes_or_eq nofun fun hv hw => by
      cases hv
      rw [hw, precedes, precedes, Json.object.injEq]
      exact membersPrecede_trichotomy xs _
  | .null, _ | .bool _, _ | .int _, _ | .real _, _ | .text _, _ => precedes_or_eq nofun nofun

/-- Of two lists one comes first unless they are the same. The first item that differs decides, and
a list that ends there comes before the longer one. -/
theorem itemsPrecede_trichotomy : (xs ys : List Json) →
    itemsPrecede xs ys = true ∨ xs = ys ∨ itemsPrecede ys xs = true
  | [], [] => .inr (.inl rfl)
  | [], _ :: _ => .inl rfl
  | _ :: _, [] => .inr (.inr rfl)
  | x :: xs, y :: ys => by
    have rest := itemsPrecede_trichotomy xs ys
    simp only [itemsPrecede, Bool.or_eq_true, Bool.and_eq_true, decide_eq_true_eq, List.cons.injEq]
    rcases precedes_trichotomy x y with h | rfl | h
    · exact .inl (.inl h)
    · exact rest.imp (fun h => .inr ⟨rfl, h⟩) (Or.imp (⟨rfl, ·⟩) fun h => .inr ⟨rfl, h⟩)
    · exact .inr (.inr (.inl h))

/-- Of two objects one comes first unless they are the same; the first member that differs decides,
by its name and then by its value. -/
theorem membersPrecede_trichotomy : (xs ys : List (String × Json)) →
    membersPrecede xs ys = true ∨ xs = ys ∨ membersPrecede ys xs = true
  | [], [] => .inr (.inl rfl)
  | [], _ :: _ => .inl rfl
  | _ :: _, [] => .inr (.inr rfl)
  | (n, x) :: xs, (m, y) :: ys => by
    have rest := membersPrecede_trichotomy xs ys
    simp only [membersPrecede, Bool.or_eq_true, Bool.and_eq_true, decide_eq_true_eq,
      List.cons.injEq, Prod.mk.injEq]
    -- names decide first, then values, and then the members that are left
    rcases Std.lt_trichotomy n m with h | rfl | h
    · exact .inl (.inl h)
    · rcases precedes_trichotomy x y with h | rfl | h
      · exact .inl (.inr ⟨rfl, .inl h⟩)
      · exact rest.imp (fun h => .inr ⟨rfl, .inr ⟨rfl, h⟩⟩)
          (Or.imp (⟨⟨rfl, rfl⟩, ·⟩) fun h => .inr ⟨rfl, .inr ⟨rfl, h⟩⟩)
      · exact .inr (.inr (.inr ⟨rfl, .inl h⟩))
    · exact .inr (.inr (.inl h))

end

/-! ## One value after the other -/

/-- The order of values is transitive if that of lists and that of objects is. The two hypotheses
ask for it only at the first value, so that the proof by recursion on that value can provide
them. -/
theorem precedes_of_precedes {u v w : Json}
    (lists : ∀ {xs ys zs}, u = .list xs → itemsPrecede xs ys = true →
      itemsPrecede ys zs = true → itemsPrecede xs zs = true)
    (objects : ∀ {xs ys zs}, u = .object xs → membersPrecede xs ys = true →
      membersPrecede ys zs = true → membersPrecede xs zs = true)
    (h : u.precedes v = true) (h' : v.precedes w = true) : u.precedes w = true := by
  rw [precedes_iff] at h h' ⊢
  -- a strict step between labels settles the matter; otherwise all three values share one label
  rcases h with lt | within
  · left
    rcases h' with lt' | within'
    · exact Std.lt_trans lt lt'
    · exact label_eq_of_within within' ▸ lt
  · rcases h' with lt' | within'
    · exact .inl (label_eq_of_within within ▸ lt')
    · right
      match u, v, w, within, within' with
      | .text _, .text _, .text _, h, h' => exact Std.lt_trans h h'
      | .list _, .list _, .list _, h, h' => exact lists rfl h h'
      | .object _, .object _, .object _, h, h' => exact objects rfl h h'

mutual

/-- What precedes a value precedes all that this one precedes. The recursion is on the first value,
together with that for lists and for objects below. -/
theorem precedes_trans : (u v w : Json) → precedes u v = true → precedes v w = true →
    precedes u w = true
  | .list xs, _, _, h, h' => precedes_of_precedes (fun hu h h' => by
      cases hu
      exact itemsPrecede_trans xs _ _ h h') nofun h h'
  | .object xs, _, _, h, h' => precedes_of_precedes nofun (fun hu h h' => by
      cases hu
      exact membersPrecede_trans xs _ _ h h') h h'
  | .null, _, _, h, h' | .bool _, _, _, h, h' | .int _, _, _, h, h' | .real _, _, _, h, h'
  | .text _, _, _, h, h' => precedes_of_precedes nofun nofun h h'

/-- Where two lists differ first decides, so the order of lists is transitive if that of items
is. -/
theorem itemsPrecede_trans : (xs ys zs : List Json) → itemsPrecede xs ys = true →
    itemsPrecede ys zs = true → itemsPrecede xs zs = true
  | [], [], [], _, h' => h'
  | [], _ :: _, [], _, h' => h'
  | [], _, _ :: _, _, _ => rfl
  | x :: xs, y :: ys, z :: zs, h, h' => by
    simp only [itemsPrecede, Bool.or_eq_true, Bool.and_eq_true, decide_eq_true_eq] at h h' ⊢
    rcases h with lt | ⟨rfl, h⟩
    · rcases h' with lt' | ⟨rfl, -⟩
      · exact .inl (precedes_trans x y z lt lt')
      · exact .inl lt
    · exact h'.imp_right fun ⟨same, h'⟩ => ⟨same, itemsPrecede_trans xs ys zs h h'⟩

/-- The order of objects is transitive as well: names are compared before values, and both before
the members behind them. -/
theorem membersPrecede_trans : (xs ys zs : List (String × Json)) → membersPrecede xs ys = true →
    membersPrecede ys zs = true → membersPrecede xs zs = true
  | [], [], [], _, h' => h'
  | [], _ :: _, [], _, h' => h'
  | [], _, _ :: _, _, _ => rfl
  | (n, x) :: xs, (m, y) :: ys, (l, z) :: zs, h, h' => by
    simp only [membersPrecede, Bool.or_eq_true, Bool.and_eq_true, decide_eq_true_eq] at h h' ⊢
    rcases h with lt | ⟨rfl, lt | ⟨rfl, h⟩⟩
    · exact .inl (h'.elim (Std.lt_trans lt) fun ⟨same, _⟩ => same ▸ lt)
    · rcases h' with lt' | ⟨rfl, lt' | ⟨rfl, -⟩⟩
      · exact .inl lt'
      · exact .inr ⟨rfl, .inl (precedes_trans x y z lt lt')⟩
      · exact .inr ⟨rfl, .inl lt⟩
    · exact h'.imp_right fun ⟨same, h'⟩ =>
        ⟨same, h'.imp_right fun ⟨same, h'⟩ => ⟨same, membersPrecede_trans xs ys zs h h'⟩⟩

end

end Json

end ScanPlanner
