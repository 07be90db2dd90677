import ModelRegistry.Identifier

/-!
# The naming convention of model types

The name of a model type may begin with a stem that stands for an API group,
then with a version, and ends with the kind: `StorageV1StorageClass`. Stems are
tried in order and the first one the name begins with is taken; versions are
tried with the longer names of a version before the shorter ones. A part that
is missing leaves its field empty, so a name without a stem names a kind of the
core group. Only the form of the name is looked at: whether the group serves
the kind is not known here.
-/

namespace ModelRegistry

/-- A beginning of names and the API group it stands for. -/
structure GroupStem where
  /-- How the names begin. -/
  stem : String
  /-- The group; empty for the core group. -/
  group : String
deriving DecidableEq

/-- Why a name names no kind. -/
inductive NameError where
  /-- The name is no identifier that begins with a capital letter. -/
  | invalidName (name : String)
  /-- Nothing is left for the kind. -/
  | emptyKind (name : String)
deriving DecidableEq

/-- The wording of a naming error. -/
def NameError.message : NameError → String
  | .invalidName name => "Invalid model type name: '" ++ name ++ "'"
  | .emptyKind name =>
    "Model type name '" ++ name ++ "' has no kind after its group and version prefixes"

/-- The stems that are tried, in order. -/
structure Naming where
  /-- The stems with their groups. -/
  stems : List GroupStem

namespace Naming

/-- The stems of the groups that every cluster serves. -/
def builtinStems : List GroupStem :=
  [⟨"Admissionregistration", "admissionregistration.k8s.io"⟩,
    ⟨"Apiextensions", "apiextensions.k8s.io"⟩,
    ⟨"Apiregistration", "apiregistration.k8s.io"⟩,
    ⟨"Apps", "apps"⟩,
    ⟨"Authentication", "authentication.k8s.io"⟩,
    ⟨"Authorization", "authorization.k8s.io"⟩,
    ⟨"Autoscaling", "autoscaling"⟩,
    ⟨"Batch", "batch"⟩,
    ⟨"Certificates", "certificates.k8s.io"⟩,
    ⟨"Core", ""⟩,
    ⟨"Extensions", "extensions"⟩,
    ⟨"Events", "events.k8s.io"⟩,
    ⟨"FlowControl", "flowcontrol.apiserver.k8s.io"⟩,
    ⟨"Networking", "networking.k8s.io"⟩,
    ⟨"Policy", "policy"⟩,
    ⟨"RbacAuthorization", "rbac.authorization.k8s.io"⟩,
    ⟨"Scheduling", "scheduling.k8s.io"⟩,
    ⟨"Settings", "settings.k8s.io"⟩,
    ⟨"Storage", "storage.k8s.io"⟩]

/-- The versions a name may hold, in the order in which they are tried. -/
def versionNames : List String :=
  ["V2beta1", "V2beta2", "V2alpha1", "V1beta2", "V1beta1", "V1alpha1", "V1"]

/-- The convention with the stems that every cluster serves. -/
def builtin : Naming := ⟨builtinStems⟩

/-- The convention with further stems, tried after those of `builtin`. -/
def withExtra (extra : List GroupStem) : Naming := ⟨builtinStems ++ extra⟩

/-- Whether a character may stand in a name. -/
def isNameChar (c : Char) : Bool := c.isAlphanum || c = '_'

/-- Whether a text has the form of a name: ASCII letters, digits and
underscores after a capital letter. -/
def isName : List Char → Bool
  | [] => false
  | c :: rest => c.isUpper && (c :: rest).all isNameChar

/-- The first stem that a name begins with, and the rest of the name. -/
def firstStem? (stems : List GroupStem) (name : List Char) : Option (GroupStem × List Char) :=
  stems.findSome? fun entry => (TextCut.after? entry.stem.toList name).map fun rest => (entry, rest)

/-- The first version that a text begins with, and the rest of the text. -/
def firstVersion? (versions : List String) (text : List Char) : Option (String × List Char) :=
  versions.findSome? fun version =>
    (TextCut.after? version.toList text).map fun rest => (version, rest)

/-- A version as an API writes it: in small letters. -/
def writtenVersion (version : String) : String := String.ofList (version.toList.map Char.toLower)

/-- The kind that a name names. -/
def resolve (naming : Naming) (name : String) : Except NameError GroupVersionKind :=
  if isName name.toList then
    let (group, rest) :=
      match firstStem? naming.stems name.toList with
      | some (entry, rest) => (entry.group, rest)
      | none => ("", name.toList)
    let (version, kind) :=
      match firstVersion? versionNames rest with
      | some (version, kind) => (writtenVersion version, kind)
      | none => ("", rest)
    if kind = [] then .error (.emptyKind name)
    else .ok ⟨group, version, String.ofList kind⟩
  else .error (.invalidName name)

example : builtin.resolve "V1beta1TokenReview" = .ok ⟨"", "v1beta1", "TokenReview"⟩ := by rfl
example : builtin.resolve "AppsV1" = .error (.emptyKind "AppsV1") := by rfl

end Naming

end ModelRegistry
