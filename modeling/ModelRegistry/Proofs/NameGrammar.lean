import ModelRegistry.Proofs.NameParts

/-!
# The grammar of names

A name has the form of a model type's name if it is an ASCII capital letter followed by ASCII
letters, digits and underscores. Such a name is a stem, a version and a kind one after the
other, where the stem is the first in the list that the name begins with and the version the
longest known one that follows. It names a kind unless nothing is left after the stem and the
version, which is so exactly if what follows the stem is nothing or a version by itself. So
every text has exactly one of three outcomes, whatever further stems there are: they may be
empty, or begin with one another, or with built-in ones.
-/

namespace ModelRegistry

namespace Naming

/-- An ASCII capital letter. -/
def IsCapital (c : Char) : Prop := 'A' ≤ c ∧ c ≤ 'Z'

/-- An ASCII letter or digit, or an underscore. -/
def IsWordChar (c : Char) : Prop :=
  IsCapital c ∨ ('a' ≤ c ∧ c ≤ 'z') ∨ ('0' ≤ c ∧ c ≤ '9') ∨ c = '_'

/-- A text of the form that names have. -/
def HasNameForm (name : String) : Prop :=
  ∃ first rest, name.toList = first :: rest ∧ IsCapital first ∧ ∀ c ∈ rest, IsWordChar c

/-- The longest known version that a text begins with, or else the empty one. -/
structure LongestVersion (version text : String) : Prop where
  /-- The version is a known one or empty. -/
  known : version = "" ∨ version ∈ versionNames
  /-- The text begins with it. -/
  begins : version.toList <+: text.toList
  /-- No other known version that the text begins with is longer. -/
  longest : ∀ other ∈ versionNames, other.toList <+: text.toList → other.length ≤ version.length

/-- Capital letters are told by their code. -/
theorem isUpper_iff (c : Char) : c.isUpper ↔ IsCapital c := decide_eq_true_iff

/-- The characters of names are told by their code. -/
theorem isNameChar_iff (c : Char) : isNameChar c ↔ IsWordChar c := by
  have hlower : c.isLower ↔ 'a' ≤ c ∧ c ≤ 'z' := by
    change (decide ('a' ≤ c) && decide (c ≤ 'z')) = true ↔ _
    simp
  have hdigit : c.isDigit ↔ '0' ≤ c ∧ c ≤ '9' := by
    change (decide ('0' ≤ c) && decide (c ≤ '9')) = true ↔ _
    simp
  change (c.isUpper || c.isLower || c.isDigit || decide (c = '_')) = true ↔ _
  simp only [Bool.or_eq_true, isUpper_iff, hlower, hdigit, decide_eq_true_iff, IsWordChar, or_assoc]

/-- The form of names is checked character by character. -/
theorem isName_iff (name : String) : isName name.toList ↔ HasNameForm name := by
  unfold HasNameForm
  cases name.toList with
  | nil => simp [isName]
  | cons first rest =>
    rw [isName, Bool.and_eq_true, isUpper_iff, List.all_cons, Bool.and_eq_true, isNameChar_iff]
    simp only [List.all_eq_true, isNameChar_iff, List.cons.injEq]
    constructor
    · rintro ⟨hfirst, -, hrest⟩
      exact ⟨first, rest, ⟨rfl, rfl⟩, hfirst, hrest⟩
    · rintro ⟨_, _, ⟨rfl, rfl⟩, hfirst, hrest⟩
      exact ⟨hfirst, .inl hfirst, hrest⟩

/-- The version that is cut off a text is the longest. -/
theorem longestVersion_versionOf (text : String) :
    LongestVersion (versionOf text.toList) text where
  known := List.mem_cons.mp (versionOf_mem text.toList)
  begins := ⟨_, version_append_unversioned text.toList⟩
  longest _ mem begins := length_le_versionOf mem begins

/-- A version is written as its small letters. -/
theorem writtenVersion_eq_toLower (version : String) :
    writtenVersion version = version.toLower := by
  rw [writtenVersion, ← String.toList_map, String.ofList_toList]
  rfl

/-- Whatever further stems there are, every text is the first stem that it begins with, or
else the empty one, and a rest, and resolving it has one of three outcomes:

* it is no name exactly if it does not have the form of one;
* a name has no kind exactly if the rest is nothing or a known version;
* every other name is the stem, the longest known version that the rest begins with and a
  kind that is not empty. It names that kind, of the group of the stem and of the version in
  small letters. -/
theorem resolve_grammar (extra : List GroupStem) (name : String) :
    let entry := stemOf (builtinStems ++ extra) name.toList
    let answer := (withExtra extra).resolve name
    ∃ rest, name = entry.stem ++ rest ∧
      (answer = .error (.invalidName name) ↔ ¬ HasNameForm name) ∧
      (HasNameForm name →
        (answer = .error (.emptyKind name) ↔ rest = "" ∨ rest ∈ versionNames)) ∧
      (HasNameForm name → rest ≠ "" → rest ∉ versionNames →
        ∃ version kind, LongestVersion version rest ∧ name = entry.stem ++ version ++ kind ∧
          kind ≠ "" ∧ answer = .ok ⟨entry.group, version.toLower, kind⟩) := by
  intro entry answer
  obtain ⟨rest, hrest⟩ : ∃ rest : String, rest.toList =
      unstemmed (builtinStems ++ extra) name.toList := ⟨_, String.toList_ofList⟩
  have hname : name = entry.stem ++ rest :=
    String.toList_injective (by rw [String.toList_append, hrest, stem_append_unstemmed])
  have hanswer : answer =
      if isName name.toList then
        if unversioned rest.toList = [] then .error (.emptyKind name)
        else .ok ⟨entry.group, writtenVersion (versionOf rest.toList),
          String.ofList (unversioned rest.toList)⟩
      else .error (.invalidName name) := by
    rw [hrest]
    exact resolve_eq (withExtra extra) name
  rw [writtenVersion_eq_toLower] at hanswer
  refine ⟨rest, hname, ?_, fun form => ?_, fun form hempty hversion => ?_⟩
  · rw [hanswer, ← isName_iff]
    by_cases form : isName name.toList
    · by_cases nothing : unversioned rest.toList = [] <;> simp [form, nothing]
    · simp [form]
  · rw [hanswer, if_pos ((isName_iff name).mpr form), ← unversioned_eq_nil_iff]
    by_cases nothing : unversioned rest.toList = [] <;> simp [nothing]
  · have hkind : unversioned rest.toList ≠ [] := by
      rw [ne_eq, unversioned_eq_nil_iff]
      exact not_or.mpr ⟨hempty, hversion⟩
    rw [if_pos ((isName_iff name).mpr form), if_neg hkind] at hanswer
    refine ⟨_, _, longestVersion_versionOf rest, ?_, by simpa using hkind, hanswer⟩
    refine hname.trans (String.toList_injective ?_)
    simp only [String.toList_append, String.toList_ofList, List.append_assoc,
      version_append_unversioned]

/-- Of two further stems the first counts, although the name begins with both, and of two
versions the longest. -/
theorem node_of_mesh :
    let extra : List GroupStem := [⟨"Mesh", "mesh.io"⟩, ⟨"MeshV1", "later.io"⟩, ⟨"", "any.io"⟩]
    let answer := (withExtra extra).resolve "MeshV1beta1Node"
    HasNameForm "MeshV1beta1Node" ∧ "V1beta1Node" ≠ "" ∧ "V1beta1Node" ∉ versionNames ∧
      answer ≠ .error (.emptyKind "MeshV1beta1Node") ∧
      ∃ version kind, LongestVersion version "V1beta1Node" ∧
        "MeshV1beta1Node" = "Mesh" ++ version ++ kind ∧ kind ≠ "" ∧
        answer = .ok ⟨"mesh.io", version.toLower, kind⟩ := by
  intro extra answer
  have hentry : stemOf (builtinStems ++ extra) "MeshV1beta1Node".toList = ⟨"Mesh", "mesh.io"⟩ := by
    decide +kernel
  have form : HasNameForm "MeshV1beta1Node" := (isName_iff _).mp (by decide +kernel)
  have hversion : "V1beta1Node" ∉ versionNames := by decide +kernel
  obtain ⟨rest, hname, -, hnothing, hkind⟩ := resolve_grammar extra "MeshV1beta1Node"
  rw [hentry] at hname hkind
  obtain rfl : "V1beta1Node" = rest := by
    have h : "Mesh".toList ++ "V1beta1Node".toList = "Mesh".toList ++ rest.toList :=
      (congrArg String.toList hname).trans String.toList_append
    exact String.toList_injective (List.append_cancel_left h)
  refine ⟨form, by decide, hversion, ?_, hkind form (by decide) hversion⟩
  rw [ne_eq, hnothing form, not_or]
  exact ⟨by decide, hversion⟩

end Naming

end ModelRegistry
