import ModelRegistry.TextCut
import ModelRegistry.TextDigest

/-!
# Identifiers of API objects

A group and a version together with a kind name the schema of an object, and
together with a plural resource name the collection it is listed under. Group
and version have one written form, `group/version`; the core group is the empty
one and its form is the version alone. Reading cuts at the first `/`, so the
written form is read back exactly when it has no other `/` in front of it.
-/

namespace ModelRegistry

/-- A group and a version of an API. -/
structure GroupVersion where
  /-- The group; empty for the core group. -/
  group : String
  /-- The version. -/
  version : String
deriving DecidableEq, Ord

/-- Names the schema of an object. -/
structure GroupVersionKind where
  /-- The group; empty for the core group. -/
  group : String
  /-- The version. -/
  version : String
  /-- The kind of the object. -/
  kind : String
deriving DecidableEq, Ord

/-- Names the collection that objects are listed under. -/
structure GroupVersionResource where
  /-- The group; empty for the core group. -/
  group : String
  /-- The version. -/
  version : String
  /-- The plural name of the resource. -/
  plural : String
deriving DecidableEq, Ord

namespace GroupVersion

/-- Reads a group and a version; without a `/` the text is a version of the
core group. -/
def ofText (text : String) : GroupVersion :=
  match TextCut.atFirst? '/' text.toList with
  | some (group, version) => ⟨String.ofList group, String.ofList version⟩
  | none => ⟨"", text⟩

/-- The written form. -/
def text (gv : GroupVersion) : String :=
  if gv.group = "" then gv.version else gv.group ++ "/" ++ gv.version

/-- The identifier of a kind in this group and version. -/
def withKind (gv : GroupVersion) (kind : String) : GroupVersionKind :=
  ⟨gv.group, gv.version, kind⟩

/-- The identifier of a resource in this group and version. -/
def withResource (gv : GroupVersion) (plural : String) : GroupVersionResource :=
  ⟨gv.group, gv.version, plural⟩

end GroupVersion

namespace GroupVersionKind

/-- The group and the version. -/
def groupVersion (gvk : GroupVersionKind) : GroupVersion := ⟨gvk.group, gvk.version⟩

/-- Reads group and version and adds a kind. -/
def ofText (text kind : String) : GroupVersionKind := (GroupVersion.ofText text).withKind kind

/-- The same kind and version in the core group. -/
def inCoreGroup (gvk : GroupVersionKind) : GroupVersionKind := ⟨"", gvk.version, gvk.kind⟩

/-- The text of the identifier in messages. -/
def text (gvk : GroupVersionKind) : String := gvk.groupVersion.text ++ ", Kind=" ++ gvk.kind

/-- Moving to the core group a second time changes nothing. -/
theorem inCoreGroup_inCoreGroup (gvk : GroupVersionKind) :
    gvk.inCoreGroup.inCoreGroup = gvk.inCoreGroup := rfl

/-- The digest of all three parts. -/
instance : Hashable GroupVersionKind where
  hash gvk :=
    TextDigest.mixText (TextDigest.mixText (TextDigest.mixText TextDigest.start gvk.group)
      gvk.version) gvk.kind

end GroupVersionKind

namespace GroupVersionResource

/-- The group and the version. -/
def groupVersion (gvr : GroupVersionResource) : GroupVersion := ⟨gvr.group, gvr.version⟩

/-- The text of the identifier in messages. -/
def text (gvr : GroupVersionResource) : String :=
  gvr.groupVersion.text ++ ", Resource=" ++ gvr.plural

/-- The digest of all three parts. -/
instance : Hashable GroupVersionResource where
  hash gvr :=
    TextDigest.mixText (TextDigest.mixText (TextDigest.mixText TextDigest.start gvr.group)
      gvr.version) gvr.plural

end GroupVersionResource

end ModelRegistry
