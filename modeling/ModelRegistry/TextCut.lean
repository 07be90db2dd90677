/-!
# Cutting text at marks

Text is cut in three ways: at the first occurrence of a character, after a
given beginning, and after the last path mark `::`. Each cut is characterised
by one equation on the whole text, so no later proof unfolds a cut.
-/

namespace ModelRegistry.TextCut

/-- The parts before and after the first occurrence of `mark`, if there is one. -/
def atFirst? (mark : Char) : List Char → Option (List Char × List Char)
  | [] => none
  | c :: text =>
    if c = mark then some ([], text)
    else (atFirst? mark text).map fun parts => (c :: parts.1, parts.2)

/-- No cut is made exactly in a text without the mark. -/
theorem atFirst?_eq_none_iff {mark : Char} {text : List Char} :
    atFirst? mark text = none ↔ mark ∉ text := by
  induction text with
  | nil => simp [atFirst?]
  | cons c text ih =>
    by_cases hc : c = mark
    · simp [atFirst?, hc]
    · simp [atFirst?, hc, ih, Ne.symm hc]

/-- A cut loses nothing but the mark, and its first part has no mark. -/
theorem atFirst?_eq_some_iff {mark : Char} {text front back : List Char} :
    atFirst? mark text = some (front, back) ↔ text = front ++ mark :: back ∧ mark ∉ front := by
  induction text generalizing front with
  | nil => simp [atFirst?]
  | cons c text ih =>
    by_cases hc : c = mark
    · subst hc
      cases front with
      | nil => simp [atFirst?, eq_comm]
      | cons f front => simp [atFirst?]; rintro rfl; simp
    · cases front with
      | nil => simp [atFirst?, hc]
      | cons f front =>
        have key : atFirst? mark (c :: text) = some (f :: front, back) ↔
            c = f ∧ atFirst? mark text = some (front, back) := by
          simp only [atFirst?, if_neg hc, Option.map_eq_some_iff, Prod.exists, Prod.mk.injEq,
            List.cons.injEq]
          constructor
          · rintro ⟨a, b, h, ⟨rfl, rfl⟩, rfl⟩
            exact ⟨rfl, h⟩
          · rintro ⟨rfl, h⟩
            exact ⟨front, back, h, ⟨rfl, rfl⟩, rfl⟩
        rw [key, ih]
        constructor
        · rintro ⟨rfl, rfl, hm⟩
          exact ⟨rfl, by simp [hm, Ne.symm hc]⟩
        · rintro ⟨h, hm⟩
          simp only [List.cons_append, List.cons.injEq] at h
          exact ⟨h.1, h.2, fun hmem => hm (List.mem_cons_of_mem _ hmem)⟩

/-- What follows `front` in a text that begins with it. -/
def after? : List Char → List Char → Option (List Char)
  | [], text => some text
  | _ :: _, [] => none
  | f :: front, c :: text => if f = c then after? front text else none

/-- The remainder is exactly what completes `front` to the text. -/
theorem after?_eq_some_iff {front text rest : List Char} :
    after? front text = some rest ↔ text = front ++ rest := by
  induction front generalizing text with
  | nil => simp [after?]
  | cons f front ih =>
    cases text with
    | nil => simp [after?]
    | cons c text =>
      by_cases hc : f = c
      · subst hc
        simp [after?, ih]
      · simp [after?, hc, Ne.symm hc]

/-- The part after the last path mark `::`, if the text has one. Marks may
overlap: in `a:::b` the last one is the pair next to `b`. -/
def afterLastPathMark? : List Char → Option (List Char)
  | [] => none
  | c :: text =>
    match afterLastPathMark? text with
    | some segment => some segment
    | none => after? [':', ':'] (c :: text)

/-- The last segment of a path: the part after the last `::`, or the whole
text when there is none. -/
def lastSegment (text : List Char) : List Char :=
  (afterLastPathMark? text).getD text

/-- A text in front of a path with a mark does not change its last segment. -/
theorem afterLastPathMark?_append {front text segment : List Char}
    (h : afterLastPathMark? text = some segment) :
    afterLastPathMark? (front ++ text) = some segment := by
  induction front with
  | nil => exact h
  | cons c front ih => simp only [List.cons_append, afterLastPathMark?, ih]

/-- A path mark shows in every text that has two colons in a row. -/
theorem afterLastPathMark?_isSome (front back : List Char) :
    (afterLastPathMark? (front ++ ':' :: ':' :: back)).isSome := by
  have h : (afterLastPathMark? (':' :: ':' :: back)).isSome := by
    rw [afterLastPathMark?]
    split <;> simp [after?]
  obtain ⟨segment, hs⟩ := Option.isSome_iff_exists.mp h
  rw [afterLastPathMark?_append hs]
  rfl

/-- What follows the last path mark follows a path mark, and none begins behind it. -/
theorem exists_of_afterLastPathMark? {text segment : List Char}
    (h : afterLastPathMark? text = some segment) :
    (∃ front, text = front ++ ':' :: ':' :: segment) ∧
      afterLastPathMark? (':' :: segment) = none := by
  induction text with
  | nil => cases h
  | cons c text ih =>
    rw [afterLastPathMark?] at h
    cases hlast : afterLastPathMark? text with
    | some found =>
      rw [hlast] at h
      obtain ⟨⟨front, hfront⟩, hnone⟩ := ih (hlast.trans h)
      exact ⟨⟨c :: front, congrArg (c :: ·) hfront⟩, hnone⟩
    | none =>
      simp only [hlast, after?_eq_some_iff, List.cons_append, List.nil_append, List.cons.injEq] at h
      obtain ⟨rfl, rfl⟩ := h
      exact ⟨⟨[], rfl⟩, hlast⟩

/-- No path mark is found exactly in a text without two colons in a row. -/
theorem afterLastPathMark?_eq_none_iff {text : List Char} :
    afterLastPathMark? text = none ↔ ¬ [':', ':'] <:+: text := by
  constructor
  · rintro none ⟨front, back, rfl⟩
    have h := afterLastPathMark?_isSome front back
    rw [List.append_assoc, List.cons_append, List.cons_append, List.nil_append] at none
    rw [none] at h
    cases h
  · intro away
    cases hlast : afterLastPathMark? text with
    | none => rfl
    | some segment =>
      obtain ⟨⟨front, rfl⟩, -⟩ := exists_of_afterLastPathMark? hlast
      exact absurd ⟨front, segment, List.append_assoc _ _ _⟩ away

/-- The last path mark is the one behind which no other begins, not even with its own second
colon. -/
theorem afterLastPathMark?_eq_some_iff {text segment : List Char} :
    afterLastPathMark? text = some segment ↔
      (∃ front, text = front ++ ':' :: ':' :: segment) ∧ ¬ [':', ':'] <:+: ':' :: segment := by
  rw [← afterLastPathMark?_eq_none_iff]
  constructor
  · exact exists_of_afterLastPathMark?
  · rintro ⟨⟨front, rfl⟩, none⟩
    refine afterLastPathMark?_append ?_
    rw [afterLastPathMark?, none]
    rfl

/-- The last segment is what follows a mark that is the last one, or the whole text if that
has no mark. -/
theorem lastSegment_eq_iff {text segment : List Char} :
    lastSegment text = segment ↔
      text = segment ∧ ¬ [':', ':'] <:+: segment ∨
      (∃ front, text = front ++ ':' :: ':' :: segment) ∧ ¬ [':', ':'] <:+: ':' :: segment := by
  rw [← afterLastPathMark?_eq_some_iff, lastSegment]
  cases h : afterLastPathMark? text with
  | none =>
    have away := afterLastPathMark?_eq_none_iff.mp h
    simp only [Option.getD_none, reduceCtorEq, or_false]
    exact ⟨fun he => ⟨he, he ▸ away⟩, And.left⟩
  | some found =>
    simp only [Option.getD_some, Option.some.injEq]
    refine ⟨.inr, ?_⟩
    rintro (⟨rfl, away⟩ | he)
    · exact absurd h (by simp [afterLastPathMark?_eq_none_iff.mpr away])
    · exact he

/-- An end of a text that has no colon is an end of the last segment. -/
theorem suffix_lastSegment {tail text : List Char} (h : tail <:+ text) (away : ':' ∉ tail) :
    tail <:+ lastSegment text := by
  rcases lastSegment_eq_iff.mp (Eq.refl (lastSegment text)) with ⟨whole, -⟩ | ⟨⟨front, cut⟩, -⟩
  · exact whole ▸ h
  have hmark : ':' :: ':' :: lastSegment text <:+ text := ⟨front, cut.symm⟩
  rcases List.suffix_or_suffix_of_suffix h hmark with htail | hsegment
  · -- both colons of the mark come before the end
    rcases List.suffix_cons_iff.mp htail with rfl | htail
    · exact absurd List.mem_cons_self away
    rcases List.suffix_cons_iff.mp htail with rfl | htail
    · exact absurd List.mem_cons_self away
    exact htail
  · exact absurd (hsegment.subset List.mem_cons_self) away

end ModelRegistry.TextCut
