import Mathlib.Data.List.Basic

/-!
# The last entry of its kind

Where later entries of a list take the place of earlier ones, the last entry of a kind
decides. It cuts the list in two: whatever comes after it is of another kind. A list of
entries with a key and a value each is read in both directions, by the last entry of a
key and by the last entry of a value, and the two need not agree. Nothing is said about
how such a list comes about.
-/

namespace ModelRegistry

variable {α : Type} {items : List α} {p : α → Bool}

/-- An entry is the last of its kind exactly if it is of that kind and no later one is. -/
theorem findRev?_eq_some_iff_append {item : α} :
    items.findRev? p = some item ↔
      p item ∧ ∃ earlier later,
        items = earlier ++ item :: later ∧ ∀ other ∈ later, p other = false := by
  rw [List.findRev?_eq_find?_reverse, List.find?_eq_some_iff_append]
  refine and_congr_right fun _ => ⟨?_, ?_⟩
  · rintro ⟨later, earlier, cut, other⟩
    have hc : items = (later ++ item :: earlier).reverse := by
      rw [← cut, List.reverse_reverse]
    refine ⟨earlier.reverse, later.reverse, ?_, ?_⟩
    · simpa using hc
    · simpa using other
  · rintro ⟨earlier, later, cut, other⟩
    refine ⟨later.reverse, earlier.reverse, ?_, ?_⟩
    · simp [cut]
    · simpa using other

/-- There is no last entry of a kind exactly if no entry is of that kind. -/
theorem findRev?_eq_none_iff : items.findRev? p = none ↔ ∀ item ∈ items, p item = false := by
  rw [List.findRev?_eq_find?_reverse, List.find?_eq_none]
  simp

/-- There is a last entry of a kind exactly if some entry is of that kind. -/
theorem isSome_findRev?_iff : (items.findRev? p).isSome ↔ ∃ item ∈ items, p item := by
  rw [List.findRev?_eq_find?_reverse, List.find?_isSome]
  simp only [List.mem_reverse]

/-- Whether there is an entry of a kind does not depend on the order of the entries. -/
theorem isSome_findRev?_perm {first second : List α} (same : first.Perm second) (p : α → Bool) :
    (first.findRev? p).isSome = (second.findRev? p).isSome := by
  rw [Bool.eq_iff_iff, isSome_findRev?_iff, isSome_findRev?_iff]
  simp only [same.mem_iff]

/-- The last entry of a kind is the last one when all others are left out. -/
theorem findRev?_eq_getLast?_filter (items : List α) (p : α → Bool) :
    items.findRev? p = (items.filter p).getLast? := by
  rw [List.findRev?_eq_find?_reverse, ← List.head?_filter, List.filter_reverse, List.head?_reverse]

/-- The last entry of two lists is that of the second, or else that of the first. -/
theorem findRev?_append (first second : List α) (p : α → Bool) :
    (first ++ second).findRev? p = (second.findRev? p).or (first.findRev? p) := by
  simp only [List.findRev?_eq_find?_reverse, List.reverse_append, List.find?_append]

/-- One more entry is the last of its kind. -/
theorem findRev?_concat (items : List α) (last : α) (p : α → Bool) :
    (items ++ [last]).findRev? p = if p last then some last else items.findRev? p := by
  rw [findRev?_append]
  by_cases hp : p last <;> simp [hp]

/-- From an entry of a kind on, the last one is that entry unless a later one follows. -/
theorem findRev?_append_cons {last : α} (hp : p last) (earlier later : List α) :
    (earlier ++ last :: later).findRev? p = some ((later.findRev? p).getD last) := by
  have hl : [last].findRev? p = some last := by simp [hp]
  rw [List.append_cons, findRev?_append, findRev?_append, hl]
  cases later.findRev? p <;> rfl

section

variable {κ υ : Type} [DecidableEq κ] {key : α → κ} {value : α → υ} {k : κ} {v : υ}

/-- After the last entry of a value, its key has that value still exactly if no entry with
another value has the key. -/
theorem value_getD_findRev?_iff {later : List α} {last : α} (hv : value last = v)
    (others : ∀ other ∈ later, value other ≠ v) :
    value ((later.findRev? (key · = k)).getD last) = v ↔
      ∀ other ∈ later, key other = k → value other = v := by
  cases hf : later.findRev? (key · = k) with
  | none =>
    have hn := findRev?_eq_none_iff.mp hf
    simp only [decide_eq_false_iff_not] at hn
    exact ⟨fun _ other ho hk => absurd hk (hn other ho), fun _ => hv⟩
  | some found =>
    obtain ⟨hk, earlier, rest, hc, -⟩ := findRev?_eq_some_iff_append.mp hf
    have hm : found ∈ later := by simp [hc]
    have hne : value found ≠ v := others found hm
    exact ⟨fun he => absurd he hne, fun all => all found hm (of_decide_eq_true hk)⟩

/-- If the last entry of a value has a key, then the last entry of that key has the value
exactly if no entry with another value has had the key since. What would be found without
any entry of the key does not matter. -/
theorem exists_last_of_value [DecidableEq υ]
    (back : (items.findRev? (value · = v)).map key = some k) (below : Option υ) :
    ∃ earlier last later, items = earlier ++ last :: later ∧ value last = v ∧ key last = k ∧
      (∀ other ∈ later, value other ≠ v) ∧
      (((items.findRev? (key · = k)).map value).or below = some v ↔
        ∀ other ∈ later, key other = k → value other = v) := by
  obtain ⟨last, hl, hk⟩ := Option.map_eq_some_iff.mp back
  obtain ⟨hp, earlier, later, hc, hn⟩ := findRev?_eq_some_iff_append.mp hl
  have hv : value last = v := of_decide_eq_true hp
  have others : ∀ other ∈ later, value other ≠ v := fun other ho =>
    of_decide_eq_false (hn other ho)
  have hf : items.findRev? (key · = k) = some ((later.findRev? (key · = k)).getD last) := by
    rw [hc]
    exact findRev?_append_cons (p := (key · = k)) (decide_eq_true hk) earlier later
  refine ⟨earlier, last, later, hc, hv, hk, others, ?_⟩
  rw [hf, Option.map_some, Option.some_or, Option.some_inj]
  exact value_getD_findRev?_iff hv others

end

end ModelRegistry
