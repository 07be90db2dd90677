import ModelRegistry.ApiResource
import ModelRegistry.JsonRecord

/-!
# Identifiers and descriptors as JSON

Each value is written as an object with its fields in declaration order, and is
read from an object, whose other members do not matter, or from the list of its
fields. Descriptors write their plural name as `resourcePlural`, identifiers of
collections as `resource_plural`.
-/

namespace ModelRegistry

open JsonReader

namespace GroupVersion

/-- The fields of a group and version. -/
def shape : RecordShape :=
  ⟨"GroupVersion", [("group", string.check), ("version", string.check)], false⟩

/-- Writes a group and version. -/
def toJson (gv : GroupVersion) : Json :=
  .object [("group", .text gv.group), ("version", .text gv.version)]

/-- Reads a group and version. -/
def ofJson : JsonReader GroupVersion :=
  shape.read
    (fun members => do
      let group ← Members.field members "group" string
      let version ← Members.field members "version" string
      return ⟨group, version⟩)
    (fun items => do
      let group ← shape.item items 0 string
      let version ← shape.item items 1 string
      return ⟨group, version⟩)

end GroupVersion

namespace GroupVersionKind

/-- The fields of a kind's identifier. -/
def shape : RecordShape :=
  ⟨"GroupVersionKind",
    [("group", string.check), ("version", string.check),
      ("kind", string.check)], false⟩

/-- Writes a kind's identifier. -/
def toJson (gvk : GroupVersionKind) : Json :=
  .object [("group", .text gvk.group), ("version", .text gvk.version), ("kind", .text gvk.kind)]

/-- Reads a kind's identifier. -/
def ofJson : JsonReader GroupVersionKind :=
  shape.read
    (fun members => do
      let group ← Members.field members "group" string
      let version ← Members.field members "version" string
      let kind ← Members.field members "kind" string
      return ⟨group, version, kind⟩)
    (fun items => do
      let group ← shape.item items 0 string
      let version ← shape.item items 1 string
      let kind ← shape.item items 2 string
      return ⟨group, version, kind⟩)

end GroupVersionKind

namespace GroupVersionResource

/-- The fields of a collection's identifier. -/
def shape : RecordShape :=
  ⟨"GroupVersionResource",
    [("group", string.check), ("version", string.check),
      ("resource_plural", string.check)], false⟩

/-- Writes a collection's identifier. -/
def toJson (gvr : GroupVersionResource) : Json :=
  .object
    [("group", .text gvr.group), ("version", .text gvr.version),
      ("resource_plural", .text gvr.plural)]

/-- Reads a collection's identifier. -/
def ofJson : JsonReader GroupVersionResource :=
  shape.read
    (fun members => do
      let group ← Members.field members "group" string
      let version ← Members.field members "version" string
      let plural ← Members.field members "resource_plural" string
      return ⟨group, version, plural⟩)
    (fun items => do
      let group ← shape.item items 0 string
      let version ← shape.item items 1 string
      let plural ← shape.item items 2 string
      return ⟨group, version, plural⟩)

end GroupVersionResource

namespace ApiResource

/-- The fields of a descriptor. -/
def shape : RecordShape :=
  ⟨"ApiResource",
    [("group", string.check), ("kind", string.check), ("versions", (list string).check),
      ("resourcePlural", string.check), ("namespaced", boolean.check)], false⟩

/-- Writes a descriptor. -/
def toJson (resource : ApiResource) : Json :=
  .object
    [("group", .text resource.group), ("kind", .text resource.kind),
      ("versions", .array (resource.versions.map .text)),
      ("resourcePlural", .text resource.plural), ("namespaced", .bool resource.namespaced)]

/-- Reads a descriptor. -/
def ofJson : JsonReader ApiResource :=
  shape.read
    (fun members => do
      let group ← Members.field members "group" string
      let kind ← Members.field members "kind" string
      let versions ← Members.field members "versions" (list string)
      let plural ← Members.field members "resourcePlural" string
      let namespaced ← Members.field members "namespaced" boolean
      return ⟨group, kind, versions, plural, namespaced⟩)
    (fun items => do
      let group ← shape.item items 0 string
      let kind ← shape.item items 1 string
      let versions ← shape.item items 2 (list string)
      let plural ← shape.item items 3 string
      let namespaced ← shape.item items 4 boolean
      return ⟨group, kind, versions, plural, namespaced⟩)

end ApiResource

end ModelRegistry
