import ModelRegistry.Proofs.NameCollisions
import ModelRegistry.Proofs.NameGrammar

/-!
# Names put together

A name that is put together from a stem, a version and a kind is cut where it was put
together. For the stem that is so because no built-in stem begins another one and further
stems are tried after all of these. For the version it is so because a version has no capital
letter but its first, so no longer version reaches into a kind that begins with one; a kind
that begins otherwise may be cut elsewhere, as `beta1Pod` after `V1` is. A name without a
stem begins with no built-in one, since no version begins with the letter of such a stem, but
it must be known that no further stem begins it.
-/

namespace ModelRegistry

namespace Naming

/-- What begins a longer text, but has the character with which the text goes on at most in
the first place, begins the text. -/
theorem prefix_of_prefix_append_cons {front text rest : List Char} {c : Char}
    (begins : front <+: text ++ c :: rest) (nonempty : text ≠ []) (apart : c ∉ front.tail) :
    front <+: text := by
  rcases List.prefix_or_prefix_of_prefix begins (List.prefix_append text (c :: rest)) with h | h
  · exact h
  · obtain ⟨more, rfl⟩ := h
    have hmore : more <+: c :: rest := (List.prefix_append_right_inj text).mp begins
    cases more with
    | nil => rw [List.append_nil]
    | cons d more =>
      obtain ⟨rfl, -⟩ := List.cons_prefix_cons.mp hmore
      rw [List.tail_append_of_ne_nil nonempty] at apart
      exact absurd (List.mem_append_right _ List.mem_cons_self) apart

/-- Every version is a name, and only its first letter is a capital one. -/
theorem versionNames_form :
    ∀ version ∈ versionNames,
      isName version.toList ∧ ∀ c ∈ version.toList.tail, c.isUpper = false := by
  have h : versionNames.all fun version =>
      isName version.toList && version.toList.tail.all (!·.isUpper) := by decide +kernel
  simpa only [List.all_eq_true, Bool.and_eq_true, Bool.not_eq_true'] using h

/-- Every built-in stem is a name, and no version begins with the letter that it begins with. -/
theorem builtinStems_form :
    ∀ entry ∈ builtinStems,
      isName entry.stem.toList ∧
        ∀ version ∈ versionNames, ¬ entry.stem.toList.take 1 <+: version.toList := by
  decide +kernel

/-- A name has a first character. -/
theorem length_pos_of_isName {text : List Char} (form : isName text) : 0 < text.length := by
  cases text with
  | nil => cases form
  | cons c rest => exact Nat.zero_lt_succ _

/-- At most the first letter of the version of a text is a capital one. -/
theorem isUpper_of_mem_tail_versionOf (text : List Char) :
    ∀ c ∈ (versionOf text).toList.tail, c.isUpper = false := by
  rcases List.mem_cons.mp (versionOf_mem text) with none | mem
  · simp [none]
  · exact (versionNames_form _ mem).2

/-- A version before a text that begins with a capital letter is the version of the whole. -/
theorem versionOf_append {version : String} (mem : version ∈ versionNames) {c : Char}
    (capital : c.isUpper) (rest : List Char) :
    versionOf (version.toList ++ c :: rest) = version := by
  have hlength : version.toList.length ≤ (versionOf (version.toList ++ c :: rest)).toList.length :=
    length_le_versionOf mem (List.prefix_append _ _)
  have hbegins : (versionOf (version.toList ++ c :: rest)).toList <+: version.toList ++ c :: rest :=
    ⟨_, version_append_unversioned _⟩
  have hnonempty : version.toList ≠ [] :=
    List.length_pos_iff.mp (length_pos_of_isName (versionNames_form version mem).1)
  have hc : c ∉ (versionOf (version.toList ++ c :: rest)).toList.tail := by
    intro h
    rw [isUpper_of_mem_tail_versionOf _ c h] at capital
    exact Bool.noConfusion capital
  have hp := prefix_of_prefix_append_cons hbegins hnonempty hc
  exact String.toList_injective (hp.eq_of_length_le hlength)

/-- A text that begins with no version has the empty one. -/
theorem versionOf_eq_empty {text : List Char}
    (none : ∀ version ∈ versionNames, ¬ version.toList <+: text) : versionOf text = "" := by
  rcases List.mem_cons.mp (versionOf_mem text) with h | mem
  · exact h
  · exact absurd ⟨_, version_append_unversioned text⟩ (none _ mem)

/-- No built-in stem begins a text that begins with a version. -/
theorem not_begins_of_version {entry : GroupStem} (hentry : entry ∈ builtinStems)
    {version : String} (hversion : version ∈ versionNames) (rest : List Char) :
    ¬ entry.stem.toList <+: version.toList ++ rest := by
  intro h
  have hfirst : entry.stem.toList.take 1 <+: version.toList ++ rest :=
    (List.take_prefix 1 _).trans h
  have hpos := length_pos_of_isName (versionNames_form version hversion).1
  have hlength : (entry.stem.toList.take 1).length ≤ version.toList.length := by
    rw [List.length_take]
    omega
  exact (builtinStems_form entry hentry).2 version hversion
    (List.prefix_of_prefix_length_le hfirst (List.prefix_append _ _) hlength)

/-- A name that begins with no stem of the list has the empty one. -/
theorem stemOf_eq_empty {stems : List GroupStem} {name : List Char}
    (none : ∀ entry ∈ stems, ¬ entry.stem.toList <+: name) : stemOf stems name = ⟨"", ""⟩ := by
  rcases stemOf_cases stems name with mem | ⟨h, -⟩
  · exact absurd ⟨_, stem_append_unstemmed stems name⟩ (none _ mem)
  · exact h

/-- The stem of a name is the built-in one that the name begins with, whatever further stems
there are. -/
theorem stemOf_append_of_begins {entry : GroupStem} {name : List Char} (mem : entry ∈ builtinStems)
    (begins : entry.stem.toList <+: name) (extra : List GroupStem) :
    stemOf (builtinStems ++ extra) name = entry := by
  rw [stemOf_append_left ⟨entry, mem, begins⟩]
  exact stemOf_eq_of_begins mem begins

/-- Characters of words after a name make a name. -/
theorem HasNameForm.append {name word : String} (form : HasNameForm name)
    (chars : ∀ c ∈ word.toList, IsWordChar c) : HasNameForm (name ++ word) := by
  obtain ⟨first, rest, hname, capital, hrest⟩ := form
  refine ⟨first, rest ++ word.toList, ?_, capital, ?_⟩
  · rw [String.toList_append, hname, List.cons_append]
  · intro c mem
    rcases List.mem_append.mp mem with h | h
    · exact hrest c h
    · exact chars c h

/-- All characters of a name are those of words. -/
theorem HasNameForm.chars {name : String} (form : HasNameForm name) :
    ∀ c ∈ name.toList, IsWordChar c := by
  obtain ⟨first, rest, hname, capital, hrest⟩ := form
  rw [hname]
  exact List.forall_mem_cons.mpr ⟨.inl capital, hrest⟩

/-- A name that is cut where it was put together names the kind that it was put together
from. -/
theorem resolve_of_parts {naming : Naming} {entry : GroupStem} {name version kind : String}
    (parts : name = entry.stem ++ (version ++ kind)) (form : HasNameForm name)
    (stem : stemOf naming.stems name.toList = entry)
    (found : versionOf (version ++ kind).toList = version) (nonempty : kind ≠ "") :
    naming.resolve name = .ok ⟨entry.group, version.toLower, kind⟩ := by
  have hrest : unstemmed naming.stems name.toList = (version ++ kind).toList := by
    have h := stem_append_unstemmed naming.stems name.toList
    rw [stem] at h
    exact List.append_cancel_left (h.trans ((congrArg _ parts).trans String.toList_append))
  have hkind : unversioned (version ++ kind).toList = kind.toList := by
    have h := version_append_unversioned (version ++ kind).toList
    rw [found] at h
    exact List.append_cancel_left (h.trans String.toList_append)
  have hne : kind.toList ≠ [] := by simpa using nonempty
  rw [resolve_eq]
  dsimp only
  rw [if_pos ((isName_iff name).mpr form), hrest, hkind, if_neg hne, stem, found,
    String.ofList_toList, writtenVersion_eq_toLower]

/-- Whatever further stems there are, a name that is put together names what it was put
together from:

* after a built-in stem and a version, each kind that has itself the form of a name, of the
  group of the stem and of the version in small letters;
* after a version alone each such kind of the core group, unless a further stem begins the
  whole;
* after a built-in stem alone each kind that is a word and begins with no version, of the
  group of the stem and without a version. -/
theorem resolve_composed (extra : List GroupStem) :
    (∀ entry ∈ builtinStems, ∀ version ∈ versionNames, ∀ kind, HasNameForm kind →
      (withExtra extra).resolve (entry.stem ++ version ++ kind) =
        .ok ⟨entry.group, version.toLower, kind⟩) ∧
    (∀ version ∈ versionNames, ∀ kind, HasNameForm kind →
      (∀ entry ∈ extra, ¬ entry.stem.toList <+: (version ++ kind).toList) →
      (withExtra extra).resolve (version ++ kind) = .ok ⟨"", version.toLower, kind⟩) ∧
    (∀ entry ∈ builtinStems, ∀ kind, kind ≠ "" → (∀ c ∈ kind.toList, IsWordChar c) →
      (∀ version ∈ versionNames, ¬ version.toList <+: kind.toList) →
      (withExtra extra).resolve (entry.stem ++ kind) = .ok ⟨entry.group, "", kind⟩) := by
  have hstem : ∀ entry ∈ builtinStems, ∀ rest : String, HasNameForm entry.stem ∧
      stemOf (builtinStems ++ extra) (entry.stem ++ rest).toList = entry := by
    intro entry mem rest
    refine ⟨(isName_iff _).mp (builtinStems_form entry mem).1, stemOf_append_of_begins mem ?_ extra⟩
    rw [String.toList_append]
    exact List.prefix_append _ _
  have hversion : ∀ version ∈ versionNames, ∀ kind, HasNameForm kind →
      HasNameForm version ∧ versionOf (version ++ kind).toList = version ∧ kind ≠ "" := by
    rintro version mem kind ⟨first, rest, hkind, capital, -⟩
    refine ⟨(isName_iff _).mp (versionNames_form version mem).1, ?_, ?_⟩
    · rw [String.toList_append, hkind]
      exact versionOf_append mem ((isUpper_iff first).mpr capital) rest
    · rintro rfl
      cases hkind
  refine ⟨?_, ?_, ?_⟩
  · intro entry hentry version hv kind form
    obtain ⟨sform, stem⟩ := hstem entry hentry (version ++ kind)
    obtain ⟨vform, found, nonempty⟩ := hversion version hv kind form
    rw [String.append_assoc]
    exact resolve_of_parts rfl (sform.append (vform.append form.chars).chars) stem found nonempty
  · intro version hv kind form none
    obtain ⟨vform, found, nonempty⟩ := hversion version hv kind form
    have stem : stemOf (builtinStems ++ extra) (version ++ kind).toList = ⟨"", ""⟩ := by
      refine stemOf_eq_empty fun entry mem => ?_
      rcases List.mem_append.mp mem with hb | he
      · rw [String.toList_append]
        exact not_begins_of_version hb hv _
      · exact none entry he
    exact resolve_of_parts String.empty_append.symm (vform.append form.chars) stem found nonempty
  · intro entry hentry kind nonempty chars none
    obtain ⟨sform, stem⟩ := hstem entry hentry kind
    have found : versionOf ("" ++ kind).toList = "" := by
      rw [String.empty_append]
      exact versionOf_eq_empty none
    have hlower : "".toLower = "" := by decide +kernel
    rw [← hlower]
    exact resolve_of_parts (congrArg _ String.empty_append.symm) (sform.append chars) stem found
      nonempty

/-- A stem, a version and a kind; a version and a kind that begins with a further stem; and a
stem with a kind in small letters are each found again. -/
theorem storage_class_composed :
    let naming := withExtra [⟨"Mesh", "mesh.io"⟩]
    HasNameForm "StorageClass" ∧ HasNameForm "MeshNode" ∧
      ¬ "Mesh".toList <+: ("V1beta2" ++ "MeshNode").toList ∧
      (∀ c ∈ "cron_job".toList, IsWordChar c) ∧
      (∀ version ∈ versionNames, ¬ version.toList <+: "cron_job".toList) ∧
      naming.resolve ("Storage" ++ "V1beta1" ++ "StorageClass") =
        .ok ⟨"storage.k8s.io", "v1beta1", "StorageClass"⟩ ∧
      naming.resolve ("V1beta2" ++ "MeshNode") = .ok ⟨"", "v1beta2", "MeshNode"⟩ ∧
      naming.resolve ("Batch" ++ "cron_job") = .ok ⟨"batch", "", "cron_job"⟩ := by
  intro naming
  have hclass : HasNameForm "StorageClass" := (isName_iff _).mp (by decide +kernel)
  have hnode : HasNameForm "MeshNode" := (isName_iff _).mp (by decide +kernel)
  have hmesh : ¬ "Mesh".toList <+: ("V1beta2" ++ "MeshNode").toList := by decide +kernel
  have hchars : ∀ c ∈ "cron_job".toList, IsWordChar c := by
    have h : "cron_job".toList.all isNameChar := by decide +kernel
    exact fun c mem => (isNameChar_iff c).mp (List.all_eq_true.mp h c mem)
  have hjob : ∀ version ∈ versionNames, ¬ version.toList <+: "cron_job".toList := by
    decide +kernel
  have hv : "V1beta1".toLower = "v1beta1" := by decide +kernel
  have hw : "V1beta2".toLower = "v1beta2" := by decide +kernel
  obtain ⟨composed, bare, unversioned⟩ := resolve_composed [⟨"Mesh", "mesh.io"⟩]
  have hone := composed ⟨"Storage", "storage.k8s.io"⟩ (by decide) "V1beta1" (by decide)
    "StorageClass" hclass
  have htwo := bare "V1beta2" (by decide) "MeshNode" hnode (List.forall_mem_singleton.mpr hmesh)
  have hthree := unversioned ⟨"Batch", "batch"⟩ (by decide) "cron_job" (by decide) hchars hjob
  rw [hv] at hone
  rw [hw] at htwo
  exact ⟨hclass, hnode, hmesh, hchars, hjob, hone, htwo, hthree⟩

end Naming

end ModelRegistry
