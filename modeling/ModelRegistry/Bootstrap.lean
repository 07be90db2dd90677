import ModelRegistry.Event
import ModelRegistry.Table

/-!
# The bootstrap layer

A mapping from kinds to model types that is derived once from the names of the
candidates. Candidates are taken in order; of several with one kind the last
one stays, and a candidate whose name names no kind is left out. A kind that is
not mapped is looked up once more in the core group. The way back goes through the
kinds in an order that is drawn when the mapping is made, so of several kinds of a
type any may be found, but the same one each time.
-/

namespace ModelRegistry

/-- An order in which mapped kinds are gone through, whatever they are. -/
structure KindOrder where
  /-- The entries of a mapping in this order. -/
  arrange : List (GroupVersionKind × ModelType) → List (GroupVersionKind × ModelType)
  /-- Each entry is gone through, and once. -/
  perm : ∀ entries, (arrange entries).Perm entries

/-- The order in which the kinds were mapped first. -/
def KindOrder.asMapped : KindOrder := ⟨id, .refl⟩

/-- The mapping derived from names. -/
structure Bootstrap where
  /-- The model type of each kind. -/
  byKind : Table GroupVersionKind ModelType
  /-- The order in which the way back goes through the kinds. -/
  order : KindOrder

namespace Bootstrap

/-- How far the building of a bootstrap layer has come. -/
structure Progress where
  /-- The mapping so far. -/
  byKind : Table GroupVersionKind ModelType
  /-- The candidates for objects so far. -/
  objects : Nat
  /-- The candidates for lists so far. -/
  lists : Nat
  /-- The candidates left out so far. -/
  skipped : Nat
  /-- The events so far. -/
  events : List Event

/-- Nothing taken up yet. -/
def Progress.start : Progress := ⟨.empty, 0, 0, 0, []⟩

/-- Takes up one candidate. -/
def Progress.take (naming : Naming) (progress : Progress) (candidate : Candidate) : Progress :=
  match naming.resolve candidate.name with
  | .error error =>
    { progress with
      skipped := progress.skipped + 1
      events := progress.events ++ [.candidateSkipped candidate.name error] }
  | .ok kind =>
    { progress with
      byKind := progress.byKind.insert kind candidate.model
      objects := progress.objects + if candidate.category = .object then 1 else 0
      lists := progress.lists + if candidate.category = .list then 1 else 0
      events :=
        match progress.byKind.lookup kind with
        | some previous => progress.events ++ [.kindCollision kind previous candidate.model]
        | none => progress.events }

/-- All candidates taken up in order. -/
def progress (naming : Naming) (candidates : List Candidate) : Progress :=
  candidates.foldl (Progress.take naming) .start

/-- The bootstrap layer of some candidates. -/
def build (order : KindOrder) (naming : Naming) (candidates : List Candidate) : Bootstrap :=
  ⟨(progress naming candidates).byKind, order⟩

/-- What the building reports: each candidate left out and each collision in
order, and the counts at the end. -/
def buildEvents (naming : Naming) (candidates : List Candidate) : List Event :=
  let done := progress naming candidates
  done.events ++ [.bootstrapped done.byKind.size done.objects done.lists done.skipped]

/-- The model type of a kind, or else of the same kind in the core group. -/
def lookup (bootstrap : Bootstrap) (kind : GroupVersionKind) : Option ModelType :=
  (bootstrap.byKind.lookup kind).or (bootstrap.byKind.lookup kind.inCoreGroup)

/-- The first kind in order that is mapped to a model type. -/
def kindOf (bootstrap : Bootstrap) (model : ModelType) : Option GroupVersionKind :=
  ((bootstrap.order.arrange bootstrap.byKind.entries).find? fun entry => entry.2 = model).map
    Prod.fst

/-- The number of mapped kinds. -/
def size (bootstrap : Bootstrap) : Nat := bootstrap.byKind.size

/-- Whether no kind is mapped. -/
def isEmpty (bootstrap : Bootstrap) : Bool := bootstrap.size = 0

end Bootstrap

end ModelRegistry
