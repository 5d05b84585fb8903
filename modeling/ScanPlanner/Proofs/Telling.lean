import ScanPlanner.Proofs.Congruence
import ScanPlanner.Proofs.Walking

/-!
# Splits as the lookups tell them

If a function tells what lookups give, it also tells what is made with a host book at hand: the
result is the same whatever the host book has remembered so far, and the world is left as it is
(`Naming.Tells`). The splits of a scan are of this kind (`Splitting.exists_tells_splits`), and those
that keep ranges whole are a plain function of the binning (`Splitting.tells_wholes`).
-/

namespace ScanPlanner

variable {ω α β : Type}

/-- The two sessions differ by the log and by lookups at most. -/
structure Session.Rested (s s' : Session ω) : Prop where
  world : s'.world = s.world
  drawn : s'.drawn = s.drawn

theorem Session.Rested.trans {s s' s'' : Session ω} (h : s.Rested s') (h' : s'.Rested s'') :
    s.Rested s'' :=
  ⟨h'.world.trans h.world, h'.drawn.trans h.drawn⟩

/-- The host book holds what the lookup tells, and it has room. -/
structure HostBook.Serves (lookup : String → Result Json) (book : HostBook) : Prop where
  faithful : book.Faithful lookup
  room : 1 ≤ book.capacity

theorem HostBook.serves_empty (lookup : String → Result Json) {size : Int} (room : 1 ≤ size) :
    Serves lookup (Lru.empty size) :=
  ⟨faithful_empty lookup size, room⟩

namespace Naming

/-- With every host book that serves the lookup, and in every session, the result is `r`. -/
def Tells (lookup : String → Result Json) (r : Result α) (x : Naming ω α) : Prop :=
  ∀ book s, book.Serves lookup → ∃ book' s', outcome (x.run book) s = (r.map (·, book'), s') ∧
    book'.Serves lookup ∧ s.Rested s'

variable {lookup : String → Result Json}

theorem tells_pure (a : α) : Tells lookup (.ok a) (pure a : Naming ω α) :=
  fun book s serves => ⟨book, s, rfl, serves, rfl, rfl⟩

theorem tells_throw (f : Failure) : Tells lookup (.error f) (throw f : Naming ω α) :=
  fun book s serves => ⟨book, s, rfl, serves, rfl, rfl⟩

/-- If lookups tell the first part, and after each value of it the second part, they tell both
together. -/
theorem Tells.bind {r : Result α} {x : Naming ω α} {q : α → Result β} {g : α → Naming ω β}
    (hx : Tells lookup r x) (hg : ∀ a, r = .ok a → Tells lookup (q a) (g a)) :
    Tells lookup (r >>= q) (x >>= g) := by
  intro book s serves
  obtain ⟨book₁, s₁, run₁, serves₁, rested₁⟩ := hx book s serves
  rw [StateT.run_bind, outcome_bind, run₁]
  cases r with
  | error f => exact ⟨book₁, s₁, rfl, serves₁, rested₁⟩
  | ok a =>
    obtain ⟨book₂, s₂, run₂, serves₂, rested₂⟩ := hg a rfl book₁ s₁ serves₁
    exact ⟨book₂, s₂, run₂, serves₂, rested₁.trans rested₂⟩

theorem tells_ofResult (r : Result α) : Tells lookup r (Splitting.ofResult r : Naming ω α) := by
  cases r with
  | ok a => exact tells_pure a
  | error f => exact tells_throw f

/-- Items each of which is told are told one after the other, up to the first that fails. The host
book goes along, but what is told does not depend on it. -/
theorem tells_mapM {r : α → Result β} {g : α → Naming ω β} (each : ∀ x, Tells lookup (r x) (g x))
    (xs : List α) : Tells lookup (xs.mapM r) (xs.mapM g) := by
  induction xs with
  | nil =>
    rw [List.mapM_nil, List.mapM_nil]
    exact tells_pure _
  | cons x xs ih =>
    rw [List.mapM_cons, List.mapM_cons]
    refine (each x).bind fun y _ => ?_
    exact ih.bind fun ys _ => tells_pure _

/-- Something is related with itself if lookups tell what it ends with. -/
def told (ω : Type) (lookup : String → Result Json) : Congruence (Naming ω) (Naming ω) where
  Rel x _ := ∃ r, Tells lookup r x
  pure a := ⟨_, tells_pure a⟩
  throw f := ⟨_, tells_throw f⟩
  bind {_ _ _ _ _ _} hx hg := by
    obtain ⟨r, hx⟩ := hx
    choose q hq using hg
    exact ⟨_, hx.bind fun a _ => hq a⟩

end Naming

section

variable {lookup : String → Result Json} {c : Collaborators ω}
  (names : ∀ host, c.canonical host = Effect.ofResult (lookup host))
include names

namespace HostBook

/-- Looking a host up gives what the lookup tells. The host book takes the name in, so it stays one
that serves the lookup. -/
theorem tells_lookUp (host : String) : Naming.Tells lookup (lookup host) (lookUp c host) := by
  intro book s serves
  obtain ⟨s', run, world, ⟨-, drawn⟩, -⟩ := outcome_lookUp c host book s
  rw [names, Effect.outcome_ofResult] at run world
  rw [run]
  have rested : s.Rested s' := ⟨world, drawn⟩
  -- a failed lookup is not remembered, and so the book serves as before
  cases named : lookup host with
  | error f => exact ⟨book, s', rfl, serves, rested⟩
  | ok name =>
    obtain ⟨book', inserted, -, capacity⟩ := Lru.find?_of_insert serves.room host name
    have faithful := serves.faithful.insert named inserted
    refine ⟨book', s', ?_, ⟨faithful, ?_⟩, rested⟩
    · simp only [Result.bind_ok, inserted]
      rfl
    · rw [capacity]
      exact serves.room

/-- Resolving an address gives the name of its host, whether the host book holds it or not. A book
that serves holds only names that the lookup tells. -/
theorem tells_resolve (address : Address) :
    Naming.Tells lookup (hostOfAddress address >>= hostName lookup) (resolve c address) := by
  unfold resolve
  refine (Naming.tells_ofResult (hostOfAddress address)).bind fun host _ => ?_
  unfold hostName
  by_cases none : host = ""
  · rw [if_pos none, if_pos none]
    exact Naming.tells_pure _
  · rw [if_neg none, if_neg none]
    have looked := tells_lookUp names host
    intro book s serves
    rw [StateT.run_bind, outcome_bind, Naming.outcome_book]
    dsimp only
    cases hf : book.find? host with
    | none => exact looked book s serves
    | some found =>
      obtain ⟨name, book'⟩ := found
      obtain ⟨named, faithful⟩ := serves.faithful.find? hf
      have serves' : Serves lookup book' := ⟨faithful, (Lru.find?_again hf).2 ▸ serves.room⟩
      dsimp only
      rw [StateT.run_bind, outcome_bind, Naming.outcome_setBook]
      dsimp only
      -- what is found is the name that the lookup tells; only if that is null, it is asked for
      -- again
      by_cases null : name = .null
      · rw [if_pos null]
        exact looked book' s serves'
      · rw [if_neg null, named]
        exact Naming.tells_pure name book' s serves'

end HostBook

namespace Splitting

/-- The hosts of a node are the name of its host, if it has one. -/
theorem tells_hosts (node : Address) :
    Naming.Tells lookup (hostNames lookup node) (hosts c node) := by
  unfold hostNames
  rw [← bind_assoc]
  exact (HostBook.tells_resolve names node).bind fun name _ => Naming.tells_pure _

/-- Whatever the shape of the splits of a scan, lookups tell them. -/
theorem exists_tells_splits (f : SplitFrame) (b : Binning) (scan : TableScan) :
    ∃ r, Naming.Tells lookup r (splits c f b scan) := by
  have each (node : Address) : (Naming.told ω lookup).Rel (HostBook.resolve c node)
      (HostBook.resolve c node) := ⟨_, HostBook.tells_resolve names node⟩
  exact (Naming.told ω lookup).splits each f b scan

/-! ## Ranges that stay whole -/

omit names

/-- The split of a range that stays whole, located at the hosts of its holders. -/
def wholeBy (lookup : String → Result Json) (f : SplitFrame)
    (owners : Ledger KeyRange (List (Extent × Address))) (range : KeyRange) : Result Split := do
  let holders ← Extent.sortOn Prod.fst ((owners.get? range).getD [])
  let locations ← holders.mapM fun holder => hostNames lookup holder.2
  return f.split (distinct locations.flatten) (.single range)

/-- A split for each range of a binning, whole, where lookups tell the hosts of nodes. -/
def wholesBy (lookup : String → Result Json) (f : SplitFrame) (b : Binning) :
    Result (List Split) := do
  let owners := owners (← keyedBins b)
  (← KeyRange.sort owners.keys).mapM (wholeBy lookup f owners)

include names

/-- The splits of ranges that stay whole are told by the binning and the lookup. The same
computation is done without a host book. -/
theorem tells_wholes (f : SplitFrame) (b : Binning) :
    Naming.Tells lookup (wholesBy lookup f b) (wholes c f b) := by
  unfold wholesBy wholes
  refine (Naming.tells_ofResult (keyedBins b)).bind fun bins _ => ?_
  refine (Naming.tells_ofResult _).bind fun sorted _ => ?_
  refine Naming.tells_mapM (fun range => ?_) sorted
  unfold wholeBy
  refine (Naming.tells_ofResult _).bind fun holders _ => ?_
  have hosted := Naming.tells_mapM (fun holder => tells_hosts names (Prod.snd holder)) holders
  exact hosted.bind fun _ _ => Naming.tells_pure _

/-- A scan that wants neither batches nor parts of ranges has those splits. -/
theorem tells_unadjusted (f : SplitFrame) (b : Binning) {scan : TableScan}
    (batch : scan.batch = false) (adjust : scan.adjust = false) :
    Naming.Tells lookup (wholesBy lookup f b) (splits c f b scan) := by
  unfold splits
  rw [batch, adjust]
  exact tells_wholes names f b

omit names

/-- Making the splits of a scan gives those that lookups tell, and leaves the world and the numbers
drawn as they are. -/
theorem outcome_make_of_tells {f : SplitFrame} {b : Binning} {scan : TableScan}
    {r : Result (List Split)} (tells : Naming.Tells lookup r (splits c f b scan)) {size : Int}
    (room : 1 ≤ size) (s : Session ω) :
    ∃ s', outcome (make c f b scan size) s = (r, s') ∧ s.Rested s' := by
  obtain ⟨book, s₁, run, -, rested⟩ := tells (Lru.empty size) s (HostBook.serves_empty lookup room)
  unfold make
  rw [outcome_bind, run]
  cases r with
  | error f => exact ⟨s₁, rfl, rested⟩
  | ok splits => exact ⟨_, rfl, rested.world, rested.drawn⟩

end Splitting

end

end ScanPlanner
