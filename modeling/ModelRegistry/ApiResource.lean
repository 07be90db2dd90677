import ModelRegistry.Identifier

/-!
# Resources served by an API

A resource descriptor names one kind at every version it is served at, with its
plural name and whether its objects live in a namespace. Discovery answers with
a set of descriptors, kept as a list without repetitions; the order of that
list is the order in which the descriptors are taken up.
-/

namespace ModelRegistry

/-- One kind as it is served. -/
structure ApiResource where
  /-- The group; empty for the core group. -/
  group : String
  /-- The kind of the objects. -/
  kind : String
  /-- The versions, the preferred one first. -/
  versions : List String
  /-- The plural name of the resource. -/
  plural : String
  /-- Whether the objects live in a namespace. -/
  namespaced : Bool
deriving DecidableEq, Ord

namespace ApiResource

/-- The identifier of the kind at one version. -/
def kindAt (resource : ApiResource) (version : String) : GroupVersionKind :=
  ⟨resource.group, version, resource.kind⟩

/-- The identifier of the collection at one version. -/
def resourceAt (resource : ApiResource) (version : String) : GroupVersionResource :=
  ⟨resource.group, version, resource.plural⟩

/-- The identifiers of the kind at every version, in the order of versions. -/
def kinds (resource : ApiResource) : List GroupVersionKind :=
  resource.versions.map resource.kindAt

end ApiResource

/-- Puts an item into an ascending list unless an equal one is there. -/
def insertDistinct {α : Type} [Ord α] (item : α) : List α → List α
  | [] => [item]
  | head :: rest =>
    match compare item head with
    | .lt => item :: head :: rest
    | .eq => head :: rest
    | .gt => head :: insertDistinct item rest

/-- The different items of a list in ascending order. -/
def sortDistinct {α : Type} [Ord α] (items : List α) : List α :=
  items.foldr insertDistinct []

/-- Descriptors without repetitions. -/
structure ResourceSet where
  /-- The descriptors, in the order in which they are taken up. -/
  toList : List ApiResource
  /-- No descriptor is repeated. -/
  distinct : toList.Nodup

namespace ResourceSet

/-- The set without descriptors. -/
def empty : ResourceSet := ⟨[], List.nodup_nil⟩

/-- Puts a descriptor in front unless it is there. -/
def insert (resource : ApiResource) (set : ResourceSet) : ResourceSet :=
  if h : resource ∈ set.toList then set
  else ⟨resource :: set.toList, List.nodup_cons.mpr ⟨h, set.distinct⟩⟩

/-- The set of the descriptors of a list; of repetitions the last one stays. -/
def ofList (resources : List ApiResource) : ResourceSet := resources.foldr insert empty

/-- The number of descriptors. -/
def size (set : ResourceSet) : Nat := set.toList.length

/-- The descriptors in ascending order. -/
def sorted (set : ResourceSet) : List ApiResource := sortDistinct set.toList

/-- A set holds what was put into it and what it held. -/
theorem mem_insert {resource other : ApiResource} {set : ResourceSet} :
    other ∈ (set.insert resource).toList ↔ other = resource ∨ other ∈ set.toList := by
  unfold insert
  split
  · rename_i h
    exact ⟨Or.inr, fun ho => ho.elim (fun e => e ▸ h) id⟩
  · exact List.mem_cons

/-- A set holds exactly the descriptors of the list it was made from. -/
theorem mem_ofList {resource : ApiResource} {resources : List ApiResource} :
    resource ∈ (ofList resources).toList ↔ resource ∈ resources := by
  induction resources with
  | nil => exact Iff.rfl
  | cons head rest ih =>
    simp only [ofList, List.foldr_cons, mem_insert, List.mem_cons]
    exact or_congr Iff.rfl ih

end ResourceSet

end ModelRegistry
