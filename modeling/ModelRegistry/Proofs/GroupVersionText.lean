import ModelRegistry.Session

/-!
# The written form of groups and versions

A text is read as a group and a version by cutting it at the first slash, and a group and a
version are written with one slash between them, except that the core group is left out with
its slash. Reading undoes writing unless the cut comes elsewhere: a slash in a group, or in a
version of the core group, is taken for the one between the two. Writing undoes reading unless
the text begins with the slash, which is left out with the empty group. A type that is
registered under a text is found under it in any case, since both are read in the same way.
-/

namespace ModelRegistry

namespace GroupVersion

/-- A text is cut at its first slash exactly if it is two parts with a slash between them and
the first has none. -/
theorem atFirst?_slash_iff {text front back : String} :
    TextCut.atFirst? '/' text.toList = some (front.toList, back.toList) ↔
      text = front ++ "/" ++ back ∧ '/' ∉ front.toList := by
  have hjoined : (front ++ "/" ++ back).toList = front.toList ++ '/' :: back.toList := by
    rw [String.toList_append, String.toList_append, List.append_assoc]
    rfl
  rw [TextCut.atFirst?_eq_some_iff, ← hjoined, String.toList_inj]

/-- A text is read as a group and a version exactly if it is the two with a slash between
them and the group has none, or if it has no slash and is the version of the core group. -/
theorem ofText_eq_iff {text : String} {gv : GroupVersion} :
    ofText text = gv ↔
      text = gv.group ++ "/" ++ gv.version ∧ '/' ∉ gv.group.toList ∨
        gv.group = "" ∧ gv.version = text ∧ '/' ∉ text.toList := by
  obtain ⟨group, version⟩ := gv
  rw [← atFirst?_slash_iff, ← TextCut.atFirst?_eq_none_iff, ofText]
  cases TextCut.atFirst? '/' text.toList with
  | none =>
    simp only [mk.injEq, reduceCtorEq, false_or, and_true]
    rw [eq_comm, @eq_comm _ text]
  | some parts =>
    obtain ⟨front, back⟩ := parts
    simp only [mk.injEq, Option.some.injEq, Prod.mk.injEq, reduceCtorEq, and_false, or_false]
    rw [← String.toList_inj, ← String.toList_inj, String.toList_ofList, String.toList_ofList]

/-- The core group is written as its version alone. -/
theorem text_of_core {gv : GroupVersion} (core : gv.group = "") : gv.text = gv.version :=
  if_pos core

/-- Every other group is written with a slash after it. -/
theorem text_of_ne {gv : GroupVersion} (named : gv.group ≠ "") :
    gv.text = gv.group ++ "/" ++ gv.version :=
  if_neg named

/-- A text after a slash is another one. -/
theorem slash_append_ne (text : String) : "/" ++ text ≠ text := by
  intro h
  have hlength := congrArg String.length h
  rw [String.length_append] at hlength
  have hslash : "/".length = 1 := rfl
  omega

/-- What is written is read back exactly if no other slash comes before the end of the
group, and none at all is in a version that is written alone. -/
theorem ofText_text_iff (gv : GroupVersion) :
    ofText gv.text = gv ↔
      gv.group ≠ "" ∧ '/' ∉ gv.group.toList ∨ gv.group = "" ∧ '/' ∉ gv.version.toList := by
  rw [ofText_eq_iff]
  by_cases core : gv.group = ""
  · have hne : gv.version ≠ gv.group ++ "/" ++ gv.version := by
      rw [core, String.empty_append]
      exact (slash_append_ne gv.version).symm
    rw [text_of_core core, or_iff_right fun h => hne h.1]
    simp only [core, ne_eq, not_true_eq_false, false_and, true_and, false_or]
  · rw [text_of_ne core]
    simp only [core, ne_eq, not_false_eq_true, true_and, false_and, or_false]

/-- A text that begins with a group begins with a slash only if the group does. -/
theorem slash_mem_of_begins {group rest : String} (named : group ≠ "")
    (begins : "/".toList <+: (group ++ rest).toList) : '/' ∈ group.toList := by
  rw [String.toList_append] at begins
  have hlength : "/".toList.length ≤ group.toList.length :=
    List.length_pos_iff.mpr (by simpa using named)
  have hgroup : "/".toList <+: group.toList :=
    List.prefix_of_prefix_length_le begins (List.prefix_append _ _) hlength
  exact hgroup.subset List.mem_cons_self

/-- What is read is written back exactly if it does not begin with a slash. -/
theorem text_ofText_iff (text : String) :
    (ofText text).text = text ↔ ¬ "/".toList <+: text.toList := by
  have hread := ofText_eq_iff.mp (rfl : ofText text = ofText text)
  generalize ofText text = gv at hread ⊢
  rcases hread with ⟨rfl, hgroup⟩ | ⟨core, rfl, hnone⟩
  · by_cases core : gv.group = ""
    · rw [text_of_core core, core, String.empty_append, String.toList_append]
      exact iff_of_false (slash_append_ne gv.version).symm
        (not_not_intro (List.prefix_append _ _))
    · rw [text_of_ne core, String.append_assoc]
      exact iff_of_true rfl fun begins => hgroup (slash_mem_of_begins core begins)
  · rw [text_of_core core]
    exact iff_of_true rfl fun begins => hnone (begins.subset List.mem_cons_self)

/-- With its own kind beside it, only its own group and version make an identifier. -/
theorem withKind_eq_iff {gv : GroupVersion} {gvk : GroupVersionKind} :
    gv.withKind gvk.kind = gvk ↔ gv = gvk.groupVersion := by
  obtain ⟨group, version⟩ := gv
  obtain ⟨group', version', kind⟩ := gvk
  simp only [withKind, GroupVersionKind.groupVersion, GroupVersionKind.mk.injEq, mk.injEq, and_true]

/-- With its own plural name beside it, only its own group and version make an identifier. -/
theorem withResource_eq_iff {gv : GroupVersion} {gvr : GroupVersionResource} :
    gv.withResource gvr.plural = gvr ↔ gv = gvr.groupVersion := by
  obtain ⟨group, version⟩ := gv
  obtain ⟨group', version', plural⟩ := gvr
  simp only [withResource, GroupVersionResource.groupVersion, GroupVersionResource.mk.injEq,
    mk.injEq, and_true]

end GroupVersion

/-- Reading and writing groups and versions:

* a group and a version that are written are read back exactly if the group is not empty and
  has no slash, or is empty and the version has none; and a text that is read is written back
  exactly if it does not begin with a slash;
* the same holds with a kind and with a collection beside the group and the version;
* after a type is registered under any text, kind, plural name and flag in any session, it is
  found under that text and kind, and the kind to which it leads back is written as the text
  exactly if the text does not begin with a slash. -/
theorem read_back_iff :
    (∀ gv : GroupVersion, GroupVersion.ofText gv.text = gv ↔
      gv.group ≠ "" ∧ '/' ∉ gv.group.toList ∨ gv.group = "" ∧ '/' ∉ gv.version.toList) ∧
    (∀ text, (GroupVersion.ofText text).text = text ↔ ¬ "/".toList <+: text.toList) ∧
    (∀ gvk : GroupVersionKind, GroupVersionKind.ofText gvk.groupVersion.text gvk.kind = gvk ↔
      gvk.group ≠ "" ∧ '/' ∉ gvk.group.toList ∨ gvk.group = "" ∧ '/' ∉ gvk.version.toList) ∧
    (∀ text kind, (GroupVersionKind.ofText text kind).groupVersion.text = text ↔
      ¬ "/".toList <+: text.toList) ∧
    (∀ gvr : GroupVersionResource,
      (GroupVersion.ofText gvr.groupVersion.text).withResource gvr.plural = gvr ↔
        gvr.group ≠ "" ∧ '/' ∉ gvr.group.toList ∨ gvr.group = "" ∧ '/' ∉ gvr.version.toList) ∧
    (∀ text plural, ((GroupVersion.ofText text).withResource plural).groupVersion.text = text ↔
      ¬ "/".toList <+: text.toList) ∧
    (∀ (session : Session) text kind plural flag model,
      let after := (session.ask (.register (.ofText text kind plural flag model))).1
      after.ask (.typeOfKind (.ofText text kind)) = (after, .model (some model)) ∧
      ∃ gvk : GroupVersionKind, after.ask (.kindOf model) = (after, .kind (some gvk)) ∧
        (gvk.groupVersion.text = text ↔ ¬ "/".toList <+: text.toList)) := by
  refine ⟨GroupVersion.ofText_text_iff, GroupVersion.text_ofText_iff, ?_,
    fun text kind => GroupVersion.text_ofText_iff text, ?_,
    fun text plural => GroupVersion.text_ofText_iff text, ?_⟩
  · exact fun gvk => GroupVersion.withKind_eq_iff.trans gvk.groupVersion.ofText_text_iff
  · exact fun gvr => GroupVersion.withResource_eq_iff.trans gvr.groupVersion.ofText_text_iff
  · intro session text kind plural flag model after
    -- What is registered is the kind as it is read from the text.
    let registration := Registration.ofText text kind plural flag model
    have hregistry : after.mapper.registry = session.mapper.registry.register registration := rfl
    have hgvk : registration.gvk = .ofText text kind := rfl
    have hmodel : registration.model = model := rfl
    refine ⟨?_, registration.gvk, ?_, ?_⟩
    · rw [Session.ask, hregistry, Registry.typeOfKind_register, if_pos hgvk, hmodel]
    · rw [Session.ask, hregistry, Registry.kindOf_register, if_pos hmodel]
    · exact GroupVersion.text_ofText_iff text

/-- A slash in a group is taken for the one after it, and the text is written back still. -/
example :
    let gv : GroupVersion := ⟨"a/b", "v1"⟩
    GroupVersion.ofText gv.text = ⟨"a", "b/v1"⟩ ∧ (GroupVersion.ofText gv.text).text = gv.text := by
  decide

end ModelRegistry
