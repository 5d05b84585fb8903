import ScanPlanner.Planning.Basic
import ScanPlanner.Proofs.Outcome

/-!
# Relations that composition keeps

What holds of two steps if it holds of the parts that they are put together of is a `Congruence`.
Attempts to locate ranges are put together of questions and notes (`Congruence.attemptOnline`,
`Congruence.attemptOffline`), and the splits of a binning of the names of nodes
(`Congruence.splits`). A property of single steps is a congruence too, one that relates a step with
itself.
-/

namespace ScanPlanner

/-- A relation of two kinds of computations that is kept by composing them. It relates computations
with values of the same type. -/
structure Congruence (m m' : Type → Type) [Monad m] [Monad m'] [MonadExceptOf Failure m]
    [MonadExceptOf Failure m'] where
  Rel : {α : Type} → m α → m' α → Prop
  pure : ∀ {α : Type} (a : α), Rel (pure a) (pure a)
  throw : ∀ {α : Type} (f : Failure), Rel (throw f : m α) (throw f)
  bind : ∀ {α β : Type} {x : m α} {y : m' α} {g : α → m β} {h : α → m' β}, Rel x y →
    (∀ a, Rel (g a) (h a)) → Rel (x >>= g) (y >>= h)

variable {ω ω' α β : Type}

/-- A lookup while the log has the given level. The level is what a step reads from its session, so
a lookup is divided into lookups that do not read it. -/
def Naming.lookUpAt (c : Collaborators ω) (host : String) (level : Int) : Naming ω Json := do
  (Step.record (.lookedUp host level) : Step ω Unit)
  let name ← (Step.perform (c.canonical host) : Step ω Json)
  (Step.note .debug .hosts ("Resolved " ++ host ++ " to " ++ name.shown) : Step ω Unit)
  set (← (Step.ofResult ((← get).insert host name) : Step ω HostBook))
  return name

namespace Congruence

section

variable {m m' : Type → Type} [Monad m] [Monad m'] [LawfulMonad m] [LawfulMonad m']
  [MonadExceptOf Failure m] [MonadExceptOf Failure m'] (C : Congruence m m')

/-- Items that are related one by one are related in turn. The relation is of steps, so it carries
what the steps do to the session along. -/
theorem mapM {g : α → m β} {h : α → m' β} (each : ∀ x, C.Rel (g x) (h x)) (xs : List α) :
    C.Rel (xs.mapM g) (xs.mapM h) := by
  induction xs with
  | nil =>
    rw [List.mapM_nil, List.mapM_nil]
    exact C.pure _
  | cons x xs ih =>
    rw [List.mapM_cons, List.mapM_cons]
    refine C.bind (each x) fun y => ?_
    exact C.bind ih fun ys => C.pure _

end

/-! ## Attempts -/

section

variable (C : Congruence (Step ω) (Step ω')) {c : Collaborators ω} {c' : Collaborators ω'}
  (note : ∀ severity source text,
    C.Rel (Step.note severity source text) (Step.note severity source text))
  (id : TableId) (ranges : List KeyRange)
include note

/-- Attempts to locate ranges of an online table are related if the four questions are. Which of
them are asked depends on the answers alone, and these are the same on both sides. -/
theorem attemptOnline
    (invalidate : C.Rel (Step.ask .invalidate id (c.backend.locator.invalidate id))
      (Step.ask .invalidate id (c'.backend.locator.invalidate id)))
    (resolve : C.Rel (Step.ask .resolve id (c.backend.locator.resolve id ranges))
      (Step.ask .resolve id (c'.backend.locator.resolve id ranges)))
    (tableExists : C.Rel (Step.ask .tableExists id (c.backend.locator.tableExists id))
      (Step.ask .tableExists id (c'.backend.locator.tableExists id)))
    (tableState : C.Rel (Step.ask .tableState id (c.backend.locator.tableState id))
      (Step.ask .tableState id (c'.backend.locator.tableState id))) :
    C.Rel (Locating.attemptOnline c id ranges) (Locating.attemptOnline c' id ranges) := by
  unfold Locating.attemptOnline
  refine C.bind invalidate fun _ => ?_
  refine C.bind resolve fun located => ?_
  -- both sides have the same answers here, so they decide alike
  by_cases complete : located.isComplete = true
  · rw [if_pos complete, if_pos complete]
    exact C.pure _
  · rw [if_neg complete, if_neg complete]
    refine C.bind tableExists fun there => ?_
    by_cases gone : (!there) = true
    · rw [if_pos gone, if_pos gone]
      exact C.throw _
    · rw [if_neg gone, if_neg gone]
      refine C.bind tableState fun state => ?_
      by_cases offline : state = .offline
      · rw [if_pos offline, if_pos offline]
        exact C.throw _
      · rw [if_neg offline, if_neg offline]
        exact C.bind (note _ _ _) fun _ => C.pure _

/-- Attempts to bin ranges of an offline table are related if the one question is. -/
theorem attemptOffline
    (binOffline : C.Rel (Step.ask .binOffline id (c.backend.binOffline id ranges))
      (Step.ask .binOffline id (c'.backend.binOffline id ranges))) :
    C.Rel (Locating.attemptOffline c id ranges) (Locating.attemptOffline c' id ranges) := by
  unfold Locating.attemptOffline
  refine C.bind binOffline fun found => ?_
  cases found with
  | some binning => exact C.pure _
  | none => exact C.bind (note _ _ _) fun _ => C.pure _

end

/-! ## Splits -/

section

variable (C : Congruence (Naming ω) (Naming ω'))

/-- A result that is known is related with itself. -/
theorem ofResult (r : Result α) :
    C.Rel (Splitting.ofResult r : Naming ω α) (Splitting.ofResult r : Naming ω' α) := by
  cases r with
  | ok a => exact C.pure a
  | error f => exact C.throw f

variable {c : Collaborators ω} {c' : Collaborators ω'}
  (resolve : ∀ node, C.Rel (HostBook.resolve c node) (HostBook.resolve c' node))
  (f : SplitFrame) (b : Binning)
include resolve

theorem hosts (node : Address) : C.Rel (Splitting.hosts c node) (Splitting.hosts c' node) :=
  C.bind (resolve node) fun _ => C.pure _

/-- Batches by extent are put together of the hosts of nodes, once for each bin. -/
theorem extentBatches : C.Rel (Splitting.extentBatches c f b) (Splitting.extentBatches c' f b) := by
  refine C.bind (C.ofResult _) fun nodes => ?_
  refine C.bind (C.mapM (fun node => ?_) nodes) fun _ => C.pure _
  refine C.bind (C.ofResult _) fun bins => C.mapM (fun bin => ?_) bins
  refine C.bind (C.ofResult _) fun parts => ?_
  exact C.bind (C.hosts resolve _) fun _ => C.pure _

theorem nodeBatches : C.Rel (Splitting.nodeBatches c f b) (Splitting.nodeBatches c' f b) := by
  refine C.bind (C.ofResult _) fun nodes => C.mapM (fun node => ?_) nodes
  refine C.bind (C.ofResult _) fun parts => ?_
  exact C.bind (C.hosts resolve _) fun _ => C.pure _

/-- Splits of single ranges are put together of the hosts of nodes, once for each bin. -/
theorem singles : C.Rel (Splitting.singles c f b) (Splitting.singles c' f b) := by
  refine C.bind (C.ofResult _) fun nodes => ?_
  refine C.bind (C.mapM (fun node => ?_) nodes) fun _ => C.pure _
  refine C.bind (C.ofResult _) fun bins => C.mapM (fun bin => ?_) bins
  refine C.bind (C.hosts resolve _) fun locations => ?_
  exact C.bind (C.ofResult _) fun _ => C.pure _

/-- Ranges that stay whole are put together of the hosts of nodes, once for each holder. -/
theorem wholes : C.Rel (Splitting.wholes c f b) (Splitting.wholes c' f b) := by
  refine C.bind (C.ofResult _) fun bins => ?_
  refine C.bind (C.ofResult _) fun sorted => C.mapM (fun range => ?_) sorted
  refine C.bind (C.ofResult _) fun holders => ?_
  refine C.bind (C.mapM (fun holder => ?_) holders) fun _ => C.pure _
  exact C.hosts resolve _

/-- Whatever the shape that a scan asks for, its splits are related if resolving the nodes is. The
lookups of hosts are all that splits are made with besides the binning. -/
theorem splits (scan : TableScan) :
    C.Rel (Splitting.splits c f b scan) (Splitting.splits c' f b scan) := by
  unfold Splitting.splits
  -- one case for each shape
  cases scan.batch with
  | true =>
    cases scan.grouping with
    | node => exact C.nodeBatches resolve f b
    | extent => exact C.extentBatches resolve f b
  | false =>
    cases scan.adjust with
    | true => exact C.singles resolve f b
    | false => exact C.wholes resolve f b

end

/-! ## Whatever the host book -/

section

variable (C : Congruence (Step ω) (Step ω'))

/-- The two are related, whatever host book is at hand. This carries a relation of steps over to the
steps that resolve the hosts of nodes, which pass a host book on. -/
def pointwise : Congruence (Naming ω) (Naming ω') where
  Rel x y := ∀ book, C.Rel (x.run book) (y.run book)
  pure a book := C.pure (a, book)
  throw f _ := C.throw f
  bind {_ _ x y g h} hx hg book := by
    rw [StateT.run_bind, StateT.run_bind]
    exact C.bind (hx book) fun found => hg found.1 found.2

theorem pointwise_lift {x : Step ω α} {y : Step ω' α} (h : C.Rel x y) :
    C.pointwise.Rel (x : Naming ω α) (y : Naming ω' α) :=
  fun _ => C.bind h fun _ => C.pure _

theorem pointwise_get : C.pointwise.Rel (get : Naming ω HostBook) (get : Naming ω' HostBook) :=
  fun book => C.pure (book, book)

theorem pointwise_set (book : HostBook) :
    C.pointwise.Rel (set book : Naming ω PUnit) (set book : Naming ω' PUnit) :=
  fun _ => C.pure _

variable {c : Collaborators ω} {c' : Collaborators ω'}
  (note : ∀ severity source text,
    C.Rel (Step.note severity source text) (Step.note severity source text))

include note in
/-- Lookups at a level of the log are related if the collaborators and the records of the lookup
are. -/
theorem pointwise_lookUpAt {host : String}
    (canonical : C.Rel (Step.perform (c.canonical host)) (Step.perform (c'.canonical host)))
    {level : Int}
    (record : C.Rel (Step.record (.lookedUp host level)) (Step.record (.lookedUp host level))) :
    C.pointwise.Rel (Naming.lookUpAt c host level) (Naming.lookUpAt c' host level) := by
  unfold Naming.lookUpAt
  refine C.pointwise.bind (C.pointwise_lift record) fun _ => ?_
  refine C.pointwise.bind (C.pointwise_lift canonical) fun name => ?_
  refine C.pointwise.bind (C.pointwise_lift (note _ _ _)) fun _ => ?_
  refine C.pointwise.bind C.pointwise_get fun book => ?_
  refine C.pointwise.bind (C.pointwise.ofResult _) fun book' => ?_
  exact C.pointwise.bind (C.pointwise_set book') fun _ => C.pointwise.pure name

variable (lookUp : ∀ host,
  C.pointwise.Rel (HostBook.lookUp c host) (HostBook.lookUp c' host))
include lookUp

/-- Resolving an address is related if lookups are: both sides search the same host book, so they
look up at the same times. -/
theorem pointwise_resolve (address : Address) :
    C.pointwise.Rel (HostBook.resolve c address) (HostBook.resolve c' address) := by
  unfold HostBook.resolve
  refine C.pointwise.bind (C.pointwise.ofResult _) fun host => ?_
  by_cases empty : host = ""
  · rw [if_pos empty, if_pos empty]
    exact C.pointwise.pure _
  · rw [if_neg empty, if_neg empty]
    refine C.pointwise.bind C.pointwise_get fun book => ?_
    -- both sides find the host or both look it up, and a name that is null is looked up again by
    -- both
    cases book.find? host with
    | none => exact lookUp host
    | some found =>
      refine C.pointwise.bind (C.pointwise_set _) fun _ => ?_
      by_cases unnamed : found.1 = .null
      · rw [if_pos unnamed, if_pos unnamed]
        exact lookUp host
      · rw [if_neg unnamed, if_neg unnamed]
        exact C.pointwise.pure _

include note in
/-- Making splits is related if lookups are, and so is what is noted about them. -/
theorem make (f : SplitFrame) (b : Binning) (scan : TableScan) (size : Int) :
    C.Rel (Splitting.make c f b scan size) (Splitting.make c' f b scan size) := by
  unfold Splitting.make
  refine C.bind (C.pointwise.splits (C.pointwise_resolve lookUp) f b scan (Lru.empty size))
    fun found => ?_
  exact C.bind (note _ _ _) fun _ => C.pure _

end

end Congruence

end ScanPlanner
