/-!
# Blank characters

The characters with the Unicode property White_Space, and the removal of blanks
at both ends of a text. Core's own `Char.isWhitespace` knows fewer characters,
so the property is listed here by its ranges. What removal leaves is given by
`Trimmed`, so no later proof follows its steps.
-/

namespace ModelRegistry.TextBlank

/-- The ranges of the property White_Space, both ends included. -/
def blankRanges : List (Nat × Nat) :=
  [(0x09, 0x0D), (0x20, 0x20), (0x85, 0x85), (0xA0, 0xA0), (0x1680, 0x1680), (0x2000, 0x200A),
    (0x2028, 0x2029), (0x202F, 0x202F), (0x205F, 0x205F), (0x3000, 0x3000)]

/-- Whether a character is blank. -/
def isBlank (c : Char) : Bool :=
  blankRanges.any fun range => range.1 ≤ c.toNat && c.toNat ≤ range.2

/-- The text without blanks at its beginning and its end; blanks inside stay. -/
def trim (text : List Char) : List Char :=
  (((text.dropWhile isBlank).reverse).dropWhile isBlank).reverse

/-- Every blank of core's class is blank here. -/
theorem isBlank_of_isWhitespace {c : Char} (h : c.isWhitespace) : isBlank c := by
  simp only [Char.isWhitespace, Bool.or_eq_true, decide_eq_true_eq] at h
  rcases h with ((rfl | rfl) | rfl) | rfl <;> rfl

/-- No ASCII letter, digit or punctuation is blank. -/
theorem not_isBlank_of_ascii {c : Char} (hl : 0x21 ≤ c.toNat) (hu : c.toNat ≤ 0x7E) :
    isBlank c = false := by
  simp only [isBlank, blankRanges, List.any_cons, List.any_nil, Bool.or_false,
    Bool.or_eq_false_iff, Bool.and_eq_false_iff, decide_eq_false_iff_not]
  omega

/-- What is left of a text without the blanks at its ends. -/
structure Trimmed (text core : List Char) : Prop where
  /-- Only blanks are taken away, at the beginning and at the end. -/
  ends : ∃ front back, text = front ++ core ++ back ∧ ∀ c ∈ front ++ back, isBlank c
  /-- What is left does not begin with a blank. -/
  first : ∀ c ∈ core.head?, isBlank c = false
  /-- What is left does not end with a blank. -/
  last : ∀ c ∈ core.getLast?, isBlank c = false

/-- Blanks in front of a text that begins with none are dropped, and nothing else is. -/
theorem dropWhile_isBlank_append {front text : List Char} (blank : ∀ c ∈ front, isBlank c)
    (first : ∀ c ∈ text.head?, isBlank c = false) :
    (front ++ text).dropWhile isBlank = text := by
  rw [List.dropWhile_append_of_pos blank]
  cases text with
  | nil => rfl
  | cons c rest =>
    rw [List.dropWhile_cons_of_neg]
    simpa using first c rfl

/-- What is left after blanks are dropped does not begin with one. -/
theorem head?_dropWhile_isBlank (text : List Char) :
    ∀ c ∈ (text.dropWhile isBlank).head?, isBlank c = false := by
  intro c hc
  have h := List.head?_dropWhile_not isBlank text
  rw [Option.mem_def.mp hc] at h
  simpa using h

/-- Trimming takes the blanks at the ends away, and nothing else. -/
theorem trimmed_trim (text : List Char) : Trimmed text (trim text) := by
  obtain ⟨rest, hrest⟩ : ∃ rest, rest = text.dropWhile isBlank := ⟨_, rfl⟩
  have htext : text = text.takeWhile isBlank ++ rest := by
    rw [hrest, List.takeWhile_append_dropWhile]
  have hsplit : rest = trim text ++ (rest.reverse.takeWhile isBlank).reverse := by
    rw [trim, ← hrest, ← List.reverse_append, List.takeWhile_append_dropWhile,
      List.reverse_reverse]
  refine ⟨⟨text.takeWhile isBlank, (rest.reverse.takeWhile isBlank).reverse, ?_, ?_⟩, ?_, ?_⟩
  · rw [List.append_assoc, ← hsplit]
    exact htext
  · intro c hc
    rcases List.mem_append.mp hc with hc | hc
    · exact List.all_eq_true.mp List.all_takeWhile c hc
    · exact List.all_eq_true.mp List.all_takeWhile c (List.mem_reverse.mp hc)
  · intro c hc
    apply head?_dropWhile_isBlank text c
    rw [← hrest, hsplit, List.head?_append, Option.mem_def.mp hc]
    rfl
  · intro c hc
    rw [trim, List.getLast?_reverse] at hc
    exact head?_dropWhile_isBlank _ c hc

/-- Only one text is left without the blanks at the ends. -/
theorem Trimmed.trim_eq {text core : List Char} (h : Trimmed text core) : trim text = core := by
  obtain ⟨front, back, rfl, blank⟩ := h.ends
  cases core with
  | nil =>
    have hdrop : (front ++ back ++ []).dropWhile isBlank = [] :=
      dropWhile_isBlank_append blank fun _ hc => by cases hc
    rw [List.append_nil] at hdrop
    rw [trim, List.append_nil, hdrop]
    rfl
  | cons c rest =>
    obtain ⟨hfront, hback⟩ := List.forall_mem_append.mp blank
    have hdrop : (front ++ (c :: rest ++ back)).dropWhile isBlank = c :: rest ++ back :=
      dropWhile_isBlank_append hfront h.first
    have hends : (back.reverse ++ (c :: rest).reverse).dropWhile isBlank = (c :: rest).reverse := by
      refine dropWhile_isBlank_append (fun c hc => hback c (List.mem_reverse.mp hc)) ?_
      rw [List.head?_reverse]
      exact h.last
    rw [trim, List.append_assoc, hdrop, List.reverse_append, hends, List.reverse_reverse]

/-- Trimming leaves exactly what is left without the blanks at the ends. -/
theorem trim_eq_iff {text core : List Char} : trim text = core ↔ Trimmed text core :=
  ⟨fun h => h ▸ trimmed_trim text, Trimmed.trim_eq⟩

/-- Trimming keeps every character that is not blank. -/
theorem mem_trim {text : List Char} {c : Char} (mem : c ∈ text) (h : isBlank c = false) :
    c ∈ trim text := by
  obtain ⟨front, back, htext, blank⟩ := (trimmed_trim text).ends
  have hc : c ∉ front ++ back := fun hc => by simp [blank c hc] at h
  rw [htext] at mem
  simp only [List.mem_append, not_or] at mem hc
  exact (mem.resolve_right hc.2).resolve_left hc.1

end ModelRegistry.TextBlank
