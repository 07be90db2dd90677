import ModelRegistry.Naming

/-!
# Parts of a name

A name is cut twice, and both times the first entry of a list counts that the text begins
with. Where none does, the empty stem of the core group and the empty version take its place:
cutting them off changes nothing, and what they stand for is empty. So every name is its
stem, its version and its kind one after the other, and resolving it puts together what the
three parts stand for. Of versions the first that fits is also the longest; of stems this
holds for the built-in ones only, since further stems may be anything.
-/

namespace ModelRegistry

namespace Naming

/-- What follows a beginning of a text is the rest of the text. -/
theorem after?_eq_ite (front text : List Char) :
    TextCut.after? front text = if front <+: text then some (text.drop front.length) else none := by
  split
  · rename_i h
    obtain ⟨rest, rfl⟩ := h
    rw [TextCut.after?_eq_some_iff, List.drop_left]
  · rename_i h
    cases ha : TextCut.after? front text with
    | none => rfl
    | some rest => exact absurd ⟨rest, (TextCut.after?_eq_some_iff.mp ha).symm⟩ h

/-- The first cut that can be made is at the first entry that the text begins with. -/
theorem findSome?_after? {α : Type} (front : α → List Char) (entries : List α)
    (text : List Char) :
    (entries.findSome? fun entry =>
        (TextCut.after? (front entry) text).map fun rest => (entry, rest)) =
      (entries.find? fun entry => front entry <+: text).map fun entry =>
        (entry, text.drop (front entry).length) := by
  induction entries with
  | nil => rfl
  | cons entry rest ih =>
    rw [List.findSome?_cons, List.find?_cons, after?_eq_ite, ih]
    by_cases h : front entry <+: text
    · simp [h]
    · simp [h]

section FirstEntry

variable {α : Type} {front : α → List Char} {entries : List α} {text : List Char}

/-- The first entry that a text begins with is in the list, unless the text begins with none
and another one takes its place. -/
theorem getD_find?_cases (front : α → List Char) (entries : List α) (text : List Char)
    (absent : α) :
    (entries.find? fun entry => front entry <+: text).getD absent ∈ entries ∨
      (entries.find? fun entry => front entry <+: text).getD absent = absent ∧
        ∀ entry ∈ entries, ¬ front entry <+: text := by
  cases hf : entries.find? fun entry => front entry <+: text with
  | none => exact .inr ⟨rfl, fun entry he => by simpa using List.find?_eq_none.mp hf entry he⟩
  | some entry => exact .inl (List.mem_of_find?_eq_some hf)

/-- Every text begins with that entry, if the one that takes its place is empty. -/
theorem getD_find?_begins (front : α → List Char) {absent : α} (empty : front absent = [])
    (entries : List α) (text : List Char) :
    front ((entries.find? fun entry => front entry <+: text).getD absent) <+: text := by
  cases hf : entries.find? fun entry => front entry <+: text with
  | none => exact empty ▸ List.nil_prefix
  | some entry => simpa using List.find?_some hf

/-- Among entries of which none begins with an earlier one, the first that a text begins
with is the longest such. -/
theorem length_le_of_find? {first other : α}
    (ordered : entries.Pairwise fun earlier later => ¬ front earlier <+: front later)
    (found : (entries.find? fun entry => front entry <+: text) = some first)
    (mem : other ∈ entries) (begins : front other <+: text) :
    (front other).length ≤ (front first).length := by
  obtain ⟨hfirst, earlier, later, rfl, hearlier⟩ := List.find?_eq_some_iff_append.mp found
  have hf : front first <+: text := by simpa using hfirst
  rcases List.mem_append.mp mem with hm | hm
  · exact absurd begins (by simpa using hearlier other hm)
  rcases List.mem_cons.mp hm with rfl | hm
  · exact Nat.le_refl _
  rcases List.prefix_or_prefix_of_prefix begins hf with hp | hp
  · exact hp.length_le
  · -- the first entry would be the beginning of a later one
    have hlater := (List.pairwise_cons.mp (List.pairwise_append.mp ordered).2.1).1
    exact absurd hp (hlater other hm)

end FirstEntry

/-- The first entry whose stem a name begins with, or else the empty stem of the core
group. -/
def stemOf (stems : List GroupStem) (name : List Char) : GroupStem :=
  (stems.find? fun entry => entry.stem.toList <+: name).getD ⟨"", ""⟩

/-- A name without its stem. -/
def unstemmed (stems : List GroupStem) (name : List Char) : List Char :=
  name.drop (stemOf stems name).stem.toList.length

/-- The first version that a text begins with, or else the empty one. -/
def versionOf (text : List Char) : String :=
  (versionNames.find? fun version => version.toList <+: text).getD ""

/-- A text without its version. -/
def unversioned (text : List Char) : List Char := text.drop (versionOf text).toList.length

/-- A stem is one of the list, or the empty one, which is taken if the name begins with none
of the list. -/
theorem stemOf_cases (stems : List GroupStem) (name : List Char) :
    stemOf stems name ∈ stems ∨
      stemOf stems name = ⟨"", ""⟩ ∧ ∀ entry ∈ stems, ¬ entry.stem.toList <+: name :=
  getD_find?_cases (fun entry : GroupStem => entry.stem.toList) stems name ⟨"", ""⟩

/-- The stem of a name that begins with some stem of a list is the same with more stems behind
the list. -/
theorem stemOf_append_left {stems more : List GroupStem} {name : List Char}
    (begins : ∃ entry ∈ stems, entry.stem.toList <+: name) :
    stemOf (stems ++ more) name = stemOf stems name := by
  obtain ⟨entry, mem, hp⟩ := begins
  rw [stemOf, stemOf, List.find?_append]
  cases hf : stems.find? fun entry => entry.stem.toList <+: name with
  | none => exact absurd hp (by simpa using List.find?_eq_none.mp hf entry mem)
  | some first => rfl

/-- A name is its stem and what is left of it. -/
theorem stem_append_unstemmed (stems : List GroupStem) (name : List Char) :
    (stemOf stems name).stem.toList ++ unstemmed stems name = name :=
  List.prefix_iff_eq_append.mp
    (getD_find?_begins (fun entry : GroupStem => entry.stem.toList) rfl stems name)

/-- A name with the empty stem is left as it is. -/
theorem unstemmed_of_empty {stems : List GroupStem} {name : List Char}
    (h : stemOf stems name = ⟨"", ""⟩) : unstemmed stems name = name := by
  rw [unstemmed, h]
  rfl

/-- The version of a text is one of the known ones or the empty one. -/
theorem versionOf_mem (text : List Char) : versionOf text ∈ "" :: versionNames :=
  List.mem_cons.mpr ((getD_find?_cases String.toList versionNames text "").symm.imp And.left id)

/-- A text is its version and what is left of it. -/
theorem version_append_unversioned (text : List Char) :
    (versionOf text).toList ++ unversioned text = text :=
  List.prefix_iff_eq_append.mp (getD_find?_begins String.toList rfl versionNames text)

/-- No version begins with one that is tried before it. -/
theorem versionNames_ordered :
    versionNames.Pairwise fun earlier later => ¬ earlier.toList <+: later.toList := by
  decide +kernel

/-- The version of a text is the longest that the text begins with. -/
theorem length_le_versionOf {text : List Char} {version : String} (mem : version ∈ versionNames)
    (begins : version.toList <+: text) : version.length ≤ (versionOf text).length := by
  rw [versionOf]
  cases hv : versionNames.find? fun version => version.toList <+: text with
  | none => exact absurd begins (by simpa using List.find?_eq_none.mp hv version mem)
  | some first => exact length_le_of_find? versionNames_ordered hv mem begins

/-- Nothing follows the version exactly if the text is nothing or a version. -/
theorem unversioned_eq_nil_iff (text : String) :
    unversioned text.toList = [] ↔ text = "" ∨ text ∈ versionNames := by
  have happend := version_append_unversioned text.toList
  rw [← List.mem_cons]
  constructor
  · intro h
    rw [h, List.append_nil] at happend
    rw [← String.toList_injective happend]
    exact versionOf_mem text.toList
  · intro h
    have hlength : text.length ≤ (versionOf text.toList).length := by
      rcases List.mem_cons.mp h with rfl | h
      · exact Nat.zero_le _
      · exact length_le_versionOf h (List.prefix_refl _)
    have htotal := congrArg List.length happend
    rw [List.length_append, String.length_toList, String.length_toList] at htotal
    exact List.length_eq_zero_iff.mp (by omega)

/-- Cutting off the first stem is cutting off `stemOf`, if it is any of the list. -/
theorem firstStem?_eq (stems : List GroupStem) (name : List Char) :
    firstStem? stems name = (stems.find? fun entry => entry.stem.toList <+: name).map fun entry =>
      (entry, name.drop entry.stem.toList.length) :=
  findSome?_after? (fun entry : GroupStem => entry.stem.toList) stems name

/-- Cutting off the first version is cutting off `versionOf`, if it is any of the list. -/
theorem firstVersion?_eq (versions : List String) (text : List Char) :
    firstVersion? versions text =
      (versions.find? fun version => version.toList <+: text).map fun version =>
        (version, text.drop version.toList.length) :=
  findSome?_after? (fun version : String => version.toList) versions text

/-- Resolving a name puts together what its stem, its version and its kind stand for. -/
theorem resolve_eq (naming : Naming) (name : String) :
    naming.resolve name =
      let stem := stemOf naming.stems name.toList
      let rest := unstemmed naming.stems name.toList
      if isName name.toList then
        if unversioned rest = [] then .error (.emptyKind name)
        else .ok ⟨stem.group, writtenVersion (versionOf rest), String.ofList (unversioned rest)⟩
      else .error (.invalidName name) := by
  have hempty : writtenVersion "" = "" := rfl
  -- each of the two cuts is made or not
  cases hs : naming.stems.find? fun entry => entry.stem.toList <+: name.toList with
  | none =>
    cases hv : versionNames.find? fun version => version.toList <+: name.toList <;>
      simp [resolve, firstStem?_eq, firstVersion?_eq, unstemmed, stemOf, unversioned, versionOf,
        hs, hv, hempty]
  | some entry =>
    cases hv : versionNames.find? fun version =>
        version.toList <+: name.toList.drop entry.stem.toList.length <;>
      simp [resolve, firstStem?_eq, firstVersion?_eq, unstemmed, stemOf, unversioned, versionOf,
        hs, hv, hempty]

end Naming

end ModelRegistry
