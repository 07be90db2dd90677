import ModelRegistry.Naming
import ModelRegistry.TextBlank

/-!
# Model types and candidates

A model type is known by its full name, path and arguments included. That two types are
the same exactly when their full names are is a convention made here: types have identities
of their own, which decide equality, and two of them may be called the same; a full name
here stands for the identity together with the name. A candidate is a model type offered
under a name of its own, from which its kind is to be derived.
-/

namespace ModelRegistry

/-- A model type, known by its full name, which no other type has. -/
structure ModelType where
  /-- The full name with path and type arguments. -/
  name : String
deriving DecidableEq

namespace ModelType

/-- The name without path and type arguments: the last path segment of what
stands before the first `<`. -/
def simpleName (model : ModelType) : String :=
  String.ofList (TextCut.lastSegment (model.name.toList.takeWhile (· ≠ '<')))

/-- The digest of the full name. -/
instance : Hashable ModelType where
  hash model := TextDigest.mixText TextDigest.start model.name

end ModelType

/-- What a model type stands for. -/
inductive ModelCategory where
  /-- Single objects. -/
  | object
  /-- Lists of objects. -/
  | list
deriving DecidableEq

/-- A model type offered under a name. -/
structure Candidate where
  /-- The name as it was given, perhaps with a path. -/
  registeredName : String
  /-- The model type. -/
  model : ModelType
  /-- Whether it stands for objects or for lists. -/
  category : ModelCategory
deriving DecidableEq

namespace Candidate

/-- The last path segment of the given name, without blanks at its ends. -/
def name (candidate : Candidate) : String :=
  String.ofList (TextBlank.trim (TextCut.lastSegment candidate.registeredName.toList))

end Candidate

end ModelRegistry
