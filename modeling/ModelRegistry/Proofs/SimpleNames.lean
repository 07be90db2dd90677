import ModelRegistry.ModelType

/-!
# Names without paths and type arguments

The full name of a model type is a path, a name and type arguments one after the other. The
type arguments begin with the first `<`, and the path ends with the last path mark in front of
them. So every full name has exactly one simple name, whatever paths and arguments stand in the
type arguments, and the simple name has neither a `<` nor a path mark. Whether a part has the
form of an identifier is not looked at: paths and names may be any text.
-/

namespace ModelRegistry

/-- A name that is the last segment of every path it stands at the end of. -/
structure IsSegment (name : String) : Prop where
  /-- It does not begin with a colon, which would make a path mark with the one before it. -/
  first : ¬ ":".toList <+: name.toList
  /-- It has no path mark. -/
  whole : ¬ "::".toList <:+: name.toList

/-- No path mark begins at the first colon in front of a segment. -/
theorem isSegment_iff {name : String} :
    IsSegment name ↔ ¬ [':', ':'] <:+: ':' :: name.toList := by
  rw [List.infix_cons_iff, List.cons_prefix_cons, not_or]
  constructor
  · rintro ⟨first, whole⟩
    exact ⟨fun h => first h.2, whole⟩
  · rintro ⟨first, whole⟩
    exact ⟨fun h => first ⟨rfl, h⟩, whole⟩

/-- The last segment of a path is a segment behind a path mark, or the whole if that has no
path mark. -/
theorem lastSegment_toList_eq_iff {full name : String} :
    TextCut.lastSegment full.toList = name.toList ↔
      full = name ∧ ¬ "::".toList <:+: name.toList ∨
      (∃ path, full = path ++ "::" ++ name) ∧ IsSegment name := by
  have joined : ∀ path : String, (path ++ "::" ++ name).toList =
      path.toList ++ ':' :: ':' :: name.toList := by
    intro path
    rw [String.toList_append, String.toList_append, List.append_assoc]
    rfl
  have behind : (∃ front, full.toList = front ++ ':' :: ':' :: name.toList) ↔
      ∃ path, full = path ++ "::" ++ name := by
    constructor
    · rintro ⟨front, hfront⟩
      refine ⟨String.ofList front, String.toList_injective ?_⟩
      rw [hfront, joined, String.toList_ofList]
    · rintro ⟨path, rfl⟩
      exact ⟨path.toList, joined path⟩
  rw [TextCut.lastSegment_eq_iff, behind, ← isSegment_iff, String.toList_inj]
  rfl

/-- A segment behind a path is the last segment of the whole. -/
theorem IsSegment.lastSegment_behind {name : String} (h : IsSegment name) (path : String) :
    TextCut.lastSegment (path ++ "::" ++ name).toList = name.toList :=
  lastSegment_toList_eq_iff.mpr (.inr ⟨⟨path, rfl⟩, h⟩)

/-- A segment is the last segment of itself. -/
theorem IsSegment.lastSegment_self {name : String} (h : IsSegment name) :
    TextCut.lastSegment name.toList = name.toList :=
  lastSegment_toList_eq_iff.mpr (.inl ⟨rfl, h.whole⟩)

/-- What stands before the first `<` of a text has none, and the rest begins with it, if there
is any. -/
theorem takeWhile_toList_eq_iff {full base : String} :
    full.toList.takeWhile (· ≠ '<') = base.toList ↔
      '<' ∉ base.toList ∧ ∃ arguments : String, full = base ++ arguments ∧
        (arguments = "" ∨ "<".toList <+: arguments.toList) := by
  constructor
  · intro h
    obtain ⟨arguments, hrest⟩ : ∃ arguments : String,
        arguments.toList = full.toList.dropWhile (· ≠ '<') := ⟨_, String.toList_ofList⟩
    refine ⟨fun mem => ?_, arguments, String.toList_injective ?_, ?_⟩
    · rw [← h] at mem
      simpa using List.all_eq_true.mp List.all_takeWhile '<' mem
    · rw [String.toList_append, hrest, ← h, List.takeWhile_append_dropWhile]
    · have hmark := List.head?_dropWhile_not (· ≠ '<') full.toList
      rw [← hrest] at hmark
      cases hcs : arguments.toList with
      | nil => exact .inl (String.toList_eq_nil_iff.mp hcs)
      | cons c rest =>
        rw [hcs] at hmark
        obtain rfl : c = '<' := by simpa using hmark
        exact .inr ⟨rest, rfl⟩
  · rintro ⟨bare, arguments, rfl, harguments⟩
    have hbase : ∀ c ∈ base.toList, decide (c ≠ '<') = true := fun c mem =>
      decide_eq_true fun h => bare (h ▸ mem)
    rw [String.toList_append, List.takeWhile_append_of_pos hbase]
    rcases harguments with rfl | ⟨rest, hrest⟩
    · exact List.append_nil _
    · rw [← hrest]
      exact List.append_nil _

/-- A full name taken apart into a path, a name and type arguments. -/
structure TakenApart (full path name arguments : String) : Prop where
  /-- The parts stand one after the other. -/
  parts : full = path ++ name ++ arguments
  /-- The type arguments begin with a `<`, if there are any. -/
  arguments : arguments = "" ∨ "<".toList <+: arguments.toList
  /-- No `<` stands in front of them. -/
  bare : '<' ∉ (path ++ name).toList
  /-- The path ends with the last path mark, if there is one. -/
  path : path = "" ∧ ¬ "::".toList <:+: name.toList ∨
    (∃ modules, path = modules ++ "::") ∧ IsSegment name

namespace ModelType

variable {model : ModelType} {name : String}

/-- The simple name of a model type is the last segment of what stands before the first `<`. -/
theorem simpleName_eq_iff_exists :
    model.simpleName = name ↔ ∃ base : String,
      model.name.toList.takeWhile (· ≠ '<') = base.toList ∧
        TextCut.lastSegment base.toList = name.toList := by
  rw [simpleName, ← String.toList_inj, String.toList_ofList]
  constructor
  · intro h
    exact ⟨_, String.toList_ofList.symm, by rw [String.toList_ofList, h]⟩
  · rintro ⟨base, hbase, hname⟩
    rw [hbase, hname]

/-- The simple name of a model type is the name that its full name is taken apart into. -/
theorem simpleName_eq_iff :
    model.simpleName = name ↔ ∃ path arguments, TakenApart model.name path name arguments := by
  rw [simpleName_eq_iff_exists]
  constructor
  · rintro ⟨base, hbase, hname⟩
    obtain ⟨bare, arguments, hfull, harguments⟩ := takeWhile_toList_eq_iff.mp hbase
    rcases lastSegment_toList_eq_iff.mp hname with ⟨rfl, whole⟩ | ⟨⟨modules, rfl⟩, segment⟩
    · rw [← String.empty_append (s := base)] at bare hfull
      exact ⟨"", arguments, hfull, harguments, bare, .inl ⟨rfl, whole⟩⟩
    · exact ⟨modules ++ "::", arguments, hfull, harguments, bare, .inr ⟨⟨modules, rfl⟩, segment⟩⟩
  · rintro ⟨path, arguments, h⟩
    refine ⟨path ++ name, takeWhile_toList_eq_iff.mpr ⟨h.bare, arguments, h.parts, h.arguments⟩, ?_⟩
    refine lastSegment_toList_eq_iff.mpr ?_
    rcases h.path with ⟨rfl, whole⟩ | ⟨⟨modules, rfl⟩, segment⟩
    · exact .inl ⟨String.empty_append, whole⟩
    · exact .inr ⟨⟨modules, rfl⟩, segment⟩

/-- The simple name of a type in a path is the segment at its end, with or without type
arguments. -/
theorem simpleName_behind (segment : IsSegment name) {path arguments : String}
    (bareName : '<' ∉ name.toList) (barePath : '<' ∉ path.toList)
    (harguments : arguments = "" ∨ "<".toList <+: arguments.toList) :
    (ModelType.mk (path ++ "::" ++ name ++ arguments)).simpleName = name := by
  have bare : '<' ∉ (path ++ "::" ++ name).toList := by
    simp [String.toList_append, bareName, barePath]
  exact simpleName_eq_iff.mpr
    ⟨path ++ "::", arguments, rfl, harguments, bare, .inr ⟨⟨path, rfl⟩, segment⟩⟩

/-- A simple name has no `<`. -/
theorem notMem_simpleName (model : ModelType) : '<' ∉ model.simpleName.toList := by
  obtain ⟨path, arguments, h⟩ := simpleName_eq_iff.mp (Eq.refl model.simpleName)
  intro mem
  refine h.bare ?_
  rw [String.toList_append]
  exact List.mem_append_right _ mem

/-- A simple name has no path mark. -/
theorem not_infix_simpleName (model : ModelType) :
    ¬ "::".toList <:+: model.simpleName.toList := by
  obtain ⟨path, arguments, h⟩ := simpleName_eq_iff.mp (Eq.refl model.simpleName)
  rcases h.path with ⟨-, whole⟩ | ⟨-, segment⟩
  · exact whole
  · exact segment.whole

end ModelType

end ModelRegistry
