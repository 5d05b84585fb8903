import ScanPlanner.Identity
import ScanPlanner.Json.Basic

/-!
# Order of values

Which values mean the same, and which of two comes first. A truth value means zero or one, a number
with a fraction means the whole number that it equals, and the members of an object have no order:
`canonical` picks one of the values that mean the same, so `==` is an equivalence of values.

Numbers come in the order of their size and texts in that of their code points; the first items that
differ decide about two lists. No other two values have an order.
-/

namespace ScanPlanner

/-- Where a number lies on the line. -/
inductive Position where
  /-- Before all other positions. -/
  | least
  | quotient (num : Int) (den : Nat)
  /-- Behind all other positions. -/
  | greatest
  /-- The position of what is no number; it has no order with any other. -/
  | nowhere
deriving DecidableEq

/-- The first position is before the second one. -/
def Position.isBefore : Position → Position → Bool
  | .nowhere, _ => false
  | _, .nowhere => false
  | .least, .least => false
  | .least, _ => true
  | _, .least => false
  | .greatest, _ => false
  | _, .greatest => true
  | .quotient m c, .quotient n d => decide (m * d < n * c)

/-- The position of a number. -/
def Binary64.position : Binary64 → Position
  | .finite negative mantissa exponent =>
    let (num, den) := ratio mantissa exponent
    .quotient (if negative then -(num : Int) else num) den
  | .infinite negative => if negative then .least else .greatest
  | .nan => .nowhere

/-- The whole number that a number equals, if there is one. -/
def Binary64.whole? (x : Binary64) : Option Int :=
  match x with
  | .finite negative mantissa exponent =>
    let (num, den) := ratio mantissa exponent
    if num % den = 0 then some (if negative then -((num / den : Nat) : Int) else (num / den : Nat))
    else none
  | _ => none

namespace Json

/-- Puts a member before the first one whose name is not before its own. -/
def insertMember (member : String × Json) : List (String × Json) → List (String × Json)
  | [] => [member]
  | m :: rest => if m.1 < member.1 then m :: insertMember member rest else member :: m :: rest

mutual

/-- The value picked among those that mean the same. -/
def canonical : Json → Json
  | .null => .null
  | .bool b => .int (if b then 1 else 0)
  | .int n => .int n
  | .real x => match x.whole? with
    | some n => .int n
    | none => .real x
  | .text s => .text s
  | .list items => .list (canonicalItems items)
  | .object members => .object (canonicalMembers members)

/-- The items picked. -/
def canonicalItems : List Json → List Json
  | [] => []
  | item :: rest => canonical item :: canonicalItems rest

/-- The members picked, by name. -/
def canonicalMembers : List (String × Json) → List (String × Json)
  | [] => []
  | (name, value) :: rest => insertMember (name, canonical value) (canonicalMembers rest)

end

/-! ## A value that is picked -/

/-- No member has a name before that of one in front of it. -/
def NamesAscend (members : List (String × Json)) : Prop := members.Pairwise fun m m' => ¬ m'.1 < m.1

/-- Inserting a member brings in that member and no other one. -/
theorem mem_of_mem_insertMember {m member : String × Json} {members : List (String × Json)}
    (h : m ∈ insertMember member members) : m = member ∨ m ∈ members := by
  induction members with
  | nil => exact .inl (List.mem_singleton.mp h)
  | cons first rest ih =>
    unfold insertMember at h
    split at h
    · rcases List.mem_cons.mp h with rfl | h
      · exact .inr List.mem_cons_self
      · exact (ih h).imp_right (List.mem_cons_of_mem _)
    · exact List.mem_cons.mp h

/-- Members in the order of their names stay so when one is put in at its place. Among equal names
the new member stands in front, which the order allows. -/
theorem namesAscend_insertMember {member : String × Json} {members : List (String × Json)}
    (h : NamesAscend members) : NamesAscend (insertMember member members) := by
  induction members with
  | nil => exact List.pairwise_singleton _ _
  | cons first rest ih =>
    obtain ⟨behind, h⟩ := List.pairwise_cons.mp h
    unfold insertMember
    split
    · rename_i before
      refine List.pairwise_cons.mpr ⟨fun m hm => ?_, ih h⟩
      -- behind the first member stand the rest and what was inserted there, which does not come
      -- before it
      rcases mem_of_mem_insertMember hm with rfl | hm
      · exact fun lt => Std.lt_irrefl (Std.lt_trans lt before)
      · exact behind m hm
    · rename_i notBefore
      refine List.pairwise_cons.mpr ⟨fun m hm => ?_, List.pairwise_cons.mpr ⟨behind, h⟩⟩
      -- the new member stands in front of the first one, so in front of all that come behind that
      -- one
      rcases List.mem_cons.mp hm with rfl | hm
      · exact notBefore
      · exact fun lt => behind m hm (Std.lt_of_lt_of_le lt (Std.not_lt.mp notBefore))

/-- A member that no name is before stays in front. -/
theorem insertMember_of_namesAscend {member : String × Json} {members : List (String × Json)}
    (h : NamesAscend (member :: members)) : insertMember member members = member :: members := by
  cases members with
  | nil => rfl
  | cons first rest => exact if_neg ((List.pairwise_cons.mp h).1 first List.mem_cons_self)

theorem namesAscend_canonicalMembers :
    (members : List (String × Json)) → NamesAscend (canonicalMembers members)
  | [] => .nil
  | (_, _) :: rest => namesAscend_insertMember (namesAscend_canonicalMembers rest)

/-- Members in the order of their names whose values are picked are picked: there is nothing to
move, because each of them is inserted in front of those that it was in front of. -/
theorem canonicalMembers_eq_self {members : List (String × Json)} (h : NamesAscend members)
    (values : ∀ m ∈ members, m.2.canonical = m.2) : canonicalMembers members = members := by
  induction members with
  | nil => rfl
  | cons m rest ih =>
    obtain ⟨first, others⟩ := List.forall_mem_cons.mp values
    rw [canonicalMembers, ih (List.pairwise_cons.mp h).2 others, first]
    exact insertMember_of_namesAscend h

mutual

/-- The value that is picked among those that mean the same is picked for itself. So picking twice
is picking once, and the picked values can serve as keys. -/
theorem canonical_canonical : (v : Json) → v.canonical.canonical = v.canonical
  | .null | .bool _ | .int _ | .text _ => rfl
  | .real x => by
    cases h : x.whole? <;> simp [canonical, h]
  | .list items => by rw [canonical, canonical, canonicalItems_canonicalItems items]
  | .object members => by
    rw [canonical, canonical, canonicalMembers_eq_self (namesAscend_canonicalMembers members)
      (canonical_of_mem_canonicalMembers members)]

theorem canonicalItems_canonicalItems : (items : List Json) →
    canonicalItems (canonicalItems items) = canonicalItems items
  | [] => rfl
  | item :: rest => by
    rw [canonicalItems, canonicalItems, canonical_canonical item,
      canonicalItems_canonicalItems rest]

theorem canonical_of_mem_canonicalMembers : (members : List (String × Json)) →
    ∀ m ∈ canonicalMembers members, m.2.canonical = m.2
  | [] => nofun
  | (_, value) :: rest => fun m hm => by
    rcases mem_of_mem_insertMember hm with rfl | hm
    · exact canonical_canonical value
    · exact canonical_of_mem_canonicalMembers rest m hm

end

/-! ## Equality and order -/

/-- Values are equal if they mean the same. -/
instance : BEq Json := Identity.beq canonical

instance : EquivBEq Json := Identity.equivBEq canonical

/-- The position of a value that is a number or counts as one. -/
def position? : Json → Option Position
  | .bool b => some (.quotient (if b then 1 else 0) 1)
  | .int n => some (.quotient n 1)
  | .real x => some x.position
  | _ => none

mutual

/-- The first value comes before the second one, if the two have an order. -/
def before? (v w : Json) : Option Bool :=
  match v, w with
  | .text s, .text t => some (decide (s < t))
  | .list xs, .list ys => itemsBefore? xs ys
  | v, w => match v.position?, w.position? with
    | some p, some q => some (p.isBefore q)
    | _, _ => none

/-- The first list comes before the second one, if the two have an order. -/
def itemsBefore? (xs ys : List Json) : Option Bool :=
  match xs, ys with
  | [], ys => some (!ys.isEmpty)
  | _ :: _, [] => some false
  | x :: xs, y :: ys => if x == y then itemsBefore? xs ys else before? x y

end

/-- The values are equal, or their order can be told. -/
def comparable (v w : Json) : Bool := v == w || (v.before? w).isSome

/-- The first value comes before the second one. -/
def isBefore (v w : Json) : Bool := v.before? w == some true

end Json

end ScanPlanner
