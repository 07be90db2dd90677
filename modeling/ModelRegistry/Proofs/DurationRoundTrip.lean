import Mathlib.Data.List.TakeWhile
import ModelRegistry.DurationText

/-!
# A duration in words, read back

The text of a duration is cut into the chunks it was written from, one for each span, and
each chunk is read as the count and the unit of its span. So the reader adds up the parts
of the duration, and since these come to the duration itself, no sum on the way leaves 64
bits: neither a count times its unit, nor the nanoseconds, nor the seconds. Texts that are
written in another way, such as with weeks or fractions, are left out here.
-/

namespace ModelRegistry

namespace DurationText

open TextBlank

/-- A chunk that is cut off as it stands: a quantity without unit letters in front of the
letters of a unit. -/
structure Whole (chunk : List Char × List Char) : Prop where
  /-- There is a quantity. -/
  quantity_ne_nil : chunk.1 ≠ []
  /-- The quantity has no unit letters. -/
  quantity : ∀ c ∈ chunk.1, isUnitLetter c = false
  /-- There are letters. -/
  letters_ne_nil : chunk.2 ≠ []
  /-- The letters are unit letters. -/
  letters : ∀ c ∈ chunk.2, isUnitLetter c = true

/-- A character that is no unit letter goes to the quantity of the first chunk. -/
theorem exists_chunks_cons {c : Char} (hc : isUnitLetter c = false) (text : List Char) :
    ∃ quantity letters rest, chunks (c :: text) = (c :: quantity, letters) :: rest := by
  simp only [chunks, hc]
  cases chunks text with
  | nil => exact ⟨[], [], [], rfl⟩
  | cons chunk rest => exact ⟨chunk.1, chunk.2, rest, rfl⟩

/-- Letters are cut off where no letter follows. -/
theorem chunks_letters {letters rest : List Char} (hne : letters ≠ [])
    (hl : ∀ c ∈ letters, isUnitLetter c = true)
    (hr : ∀ c ∈ rest.head?, isUnitLetter c = false) :
    chunks (letters ++ rest) = ([], letters) :: chunks rest := by
  induction letters with
  | nil => exact absurd rfl hne
  | cons c letters ih =>
    have hc : isUnitLetter c = true := hl c List.mem_cons_self
    cases letters with
    | nil =>
      cases rest with
      | nil => simp [chunks, hc]
      | cons d rest =>
        obtain ⟨quantity, letters, others, he⟩ := exists_chunks_cons (hr d rfl) rest
        simp [chunks.eq_2, he, hc]
    | cons d letters =>
      have hd := ih (List.cons_ne_nil d letters) fun e he => hl e (List.mem_cons_of_mem c he)
      rw [List.cons_append, chunks, hd]
      simp [hc]

/-- A quantity and its letters are cut off where no letter follows. -/
theorem chunks_append {quantity letters rest : List Char}
    (hq : ∀ c ∈ quantity, isUnitLetter c = false) (hne : letters ≠ [])
    (hl : ∀ c ∈ letters, isUnitLetter c = true)
    (hr : ∀ c ∈ rest.head?, isUnitLetter c = false) :
    chunks (quantity ++ letters ++ rest) = (quantity, letters) :: chunks rest := by
  induction quantity with
  | nil => exact chunks_letters hne hl hr
  | cons c quantity ih =>
    have hc : isUnitLetter c = false := hq c List.mem_cons_self
    have he := ih fun d hd => hq d (List.mem_cons_of_mem c hd)
    rw [List.cons_append, List.cons_append, chunks, he]
    simp [hc]

/-- A text made of whole chunks is cut into them. -/
theorem chunks_flatMap {cut : List (List Char × List Char)} (h : ∀ chunk ∈ cut, Whole chunk) :
    chunks (cut.flatMap fun chunk => chunk.1 ++ chunk.2) = cut := by
  induction cut with
  | nil => rfl
  | cons chunk rest ih =>
    have hrest := ih fun other ho => h other (List.mem_cons_of_mem chunk ho)
    have hr : ∀ c ∈ (rest.flatMap fun chunk => chunk.1 ++ chunk.2).head?,
        isUnitLetter c = false := by
      cases rest with
      | nil => nofun
      | cons next others =>
        have hn : Whole next := h next (by simp)
        obtain ⟨c, quantity, hq⟩ := List.exists_cons_of_ne_nil hn.quantity_ne_nil
        intro d hd
        have he : d = c := by simpa [hq, eq_comm] using hd
        exact hn.quantity d (by simp [hq, he])
    have hc : Whole chunk := h chunk List.mem_cons_self
    rw [List.flatMap_cons, chunks_append hc.quantity hc.letters_ne_nil hc.letters hr, hrest]

/-- A whole chunk is more than the blanks at the end of a text. -/
theorem Whole.not_isTail {chunk : List Char × List Char} (h : Whole chunk) :
    isTail chunk = false := by
  simp [isTail, h.letters_ne_nil]

/-- The digits of a number are digits. -/
theorem isDigit_toDigits {n : Nat} {c : Char} (h : c ∈ Nat.toDigits 10 n) : c.isDigit = true :=
  Nat.isDigit_of_mem_toDigits (by decide) (by decide) h

/-- A digit is an ASCII character between the punctuation marks. -/
theorem toNat_of_isDigit {c : Char} (h : c.isDigit = true) : 48 ≤ c.toNat ∧ c.toNat ≤ 57 := by
  simpa [Char.isDigit, UInt32.le_iff_toNat_le] using h

/-- A digit is no blank. -/
theorem not_isBlank_of_isDigit {c : Char} (h : c.isDigit = true) : isBlank c = false := by
  obtain ⟨hl, hu⟩ := toNat_of_isDigit h
  exact not_isBlank_of_ascii (by omega) (by omega)

/-- A digit is no unit letter. -/
theorem not_isUnitLetter_of_isDigit {c : Char} (h : c.isDigit = true) :
    isUnitLetter c = false := by
  obtain ⟨hl, hu⟩ := toNat_of_isDigit h
  rw [← Bool.not_eq_true]
  intro hc
  change (decide ('A' ≤ c ∧ c ≤ 'Z') || (decide ('a' ≤ c) && decide (c ≤ 'z')) ||
    decide (c = '\u00b5')) = true at hc
  simp only [Bool.or_eq_true, Bool.and_eq_true, decide_eq_true_eq] at hc
  change ((65 ≤ c.toNat ∧ c.toNat ≤ 90) ∨ (97 ≤ c.toNat ∧ c.toNat ≤ 122)) ∨ c = '\u00b5' at hc
  rcases hc with (hc | hc) | rfl
  · omega
  · omega
  · exact absurd hu (by decide)

/-- The digits of a number, perhaps with blanks in front of them, are read as the number. -/
theorem quantity?_digits {lead : List Char} {n : Nat} (blank : ∀ c ∈ lead, isBlank c = true)
    (fits : n < UInt64.size) : quantity? (lead ++ Nat.toDigits 10 n) = some ⟨n, none⟩ := by
  have hne : Nat.toDigits 10 n ≠ [] := Nat.toDigits_ne_nil
  have hdrop : (lead ++ Nat.toDigits 10 n).dropWhile isBlank = Nat.toDigits 10 n :=
    dropWhile_isBlank_append blank fun c hc =>
      not_isBlank_of_isDigit (isDigit_toDigits (List.mem_of_mem_head? hc))
  have hnum : ∀ c ∈ Nat.toDigits 10 n, isNumeral c = true := fun c hc => by
    rw [isNumeral, isDigit_toDigits hc, Bool.true_or]
  have hvalue : digitsValue (Nat.toDigits 10 n) = n := by
    rw [digitsValue, List.filter_eq_self.mpr fun c hc => isDigit_toDigits hc]
    exact Nat.ofDigitChars_toDigits (by decide) (by decide)
  simp only [quantity?, hdrop, List.takeWhile_eq_self_iff.mpr hnum,
    List.dropWhile_eq_nil_iff.mpr hnum, hvalue]
  rw [if_neg]
  exact not_or.mpr ⟨hne, Nat.not_le.mpr fits⟩

/-- Seconds, and nanoseconds that make up less than one, are added if the sum is a
duration. -/
theorem add?_eq_some {sum total : Duration} {seconds nanos : Nat} (fine : nanos < 1_000_000_000)
    (h : total.nanos = sum.nanos + seconds * 1_000_000_000 + nanos) :
    sum.add? seconds nanos = some total := by
  have hsub := sum.subsecond_lt
  have hsize : sum.subsecond + nanos < UInt64.size := by
    simp only [UInt64.size]
    omega
  rw [Duration.add?, if_pos hsize, ← h, Duration.ofNanos?, dif_pos total.inRange]

/-- No unit is empty. -/
theorem nanos_pos (unit : TimeUnit) : 0 < unit.nanos := by
  cases unit <;> decide

/-- A unit from the second on is a number of whole seconds. -/
theorem nanos_eq_seconds {unit : TimeUnit} (h : TimeUnit.second.nanos ≤ unit.nanos) :
    unit.nanos = unit.nanos / TimeUnit.second.nanos * 1_000_000_000 := by
  revert h
  cases unit <;> decide

/-- In units below the second a span is less than one: whole seconds were carried over to
larger units. -/
def Carried (span : Nat × TimeUnit) : Prop :=
  span.2.nanos < TimeUnit.second.nanos → span.1 * span.2.nanos < TimeUnit.second.nanos

/-- A count of a unit is added if the sum is a duration and whole seconds were carried
over. -/
theorem addWhole?_eq_some {sum total : Duration} {count : Nat} {unit : TimeUnit}
    (h : total.nanos = sum.nanos + count * unit.nanos) (carried : Carried (count, unit)) :
    addWhole? sum count unit = some total := by
  have hrange := total.inRange
  by_cases hu : TimeUnit.second.nanos ≤ unit.nanos
  · have hs : count * unit.nanos =
        count * (unit.nanos / TimeUnit.second.nanos) * 1_000_000_000 := by
      rw [Nat.mul_assoc, ← nanos_eq_seconds hu]
    have hsize : count * (unit.nanos / TimeUnit.second.nanos) < UInt64.size := by omega
    rw [addWhole?, if_pos hu, if_pos hsize]
    exact add?_eq_some (by decide) (by omega)
  · have hn : count * unit.nanos < 1_000_000_000 := carried (Nat.not_le.mp hu)
    have hsize : count * unit.nanos < UInt64.size := Nat.lt_trans hn (by decide)
    rw [addWhole?, if_neg hu, if_pos hsize]
    exact add?_eq_some hn (by omega)

end DurationText

namespace Duration

/-- The length of time that some spans come to, in nanoseconds. -/
def total (spans : List (Nat × TimeUnit)) : Nat :=
  spans.foldr (fun span rest => span.1 * span.2.nanos + rest) 0

/-- Empty spans add nothing. -/
theorem total_filter (spans : List (Nat × TimeUnit)) :
    total (spans.filter fun span => span.1 ≠ 0) = total spans := by
  induction spans with
  | nil => rfl
  | cons span rest ih =>
    by_cases h : span.1 = 0
    · simpa [total, h] using ih
    · simpa [total, h] using ih

/-- The spans of a duration come to the duration. -/
theorem total_spans (d : Duration) : total d.spans = d.nanos := by
  have hr : remainder textUnits d.nanos = 0 :=
    remainder_append_nanosecond
      [.year, .month, .day, .hour, .minute, .second, .millisecond, .microsecond] d.nanos
  have hp := foldr_parts textUnits d.nanos
  rw [hr] at hp
  rw [spans, total_filter]
  exact hp

/-- Units are tried on what the units before them leave. -/
theorem parts_append (first second : List TimeUnit) (nanos : Nat) :
    parts (first ++ second) nanos = parts first nanos ++ parts second (remainder first nanos) := by
  induction first generalizing nanos with
  | nil => rfl
  | cons unit first ih => exact congrArg _ (ih (nanos % unit.nanos))

/-- A part is of one of the units and no more than the whole. -/
theorem mem_parts {units : List TimeUnit} {nanos : Nat} {part : Nat × TimeUnit}
    (h : part ∈ parts units nanos) : part.2 ∈ units ∧ part.1 * part.2.nanos ≤ nanos := by
  induction units generalizing nanos with
  | nil => exact absurd h List.not_mem_nil
  | cons unit smaller ih =>
    rcases List.mem_cons.mp h with rfl | h
    · exact ⟨List.mem_cons_self, Nat.div_mul_le_self nanos unit.nanos⟩
    · obtain ⟨hu, hle⟩ := ih h
      exact ⟨List.mem_cons_of_mem unit hu, hle.trans (Nat.mod_le nanos unit.nanos)⟩

/-- The spans of a duration carry whole seconds over. -/
theorem carried_of_mem_spans {d : Duration} {span : Nat × TimeUnit} (h : span ∈ d.spans) :
    DurationText.Carried span := by
  intro fine
  have hm : span ∈ parts ([.year, .month, .day, .hour, .minute, .second] ++
      [.millisecond, .microsecond, .nanosecond]) d.nanos := (List.mem_filter.mp h).1
  rw [parts_append] at hm
  rcases List.mem_append.mp hm with hc | hf
  · have hcoarse : ∀ unit ∈ [.year, .month, .day, .hour, .minute, TimeUnit.second],
        TimeUnit.second.nanos ≤ unit.nanos := by decide
    exact absurd fine (Nat.not_lt.mpr (hcoarse span.2 (mem_parts hc).1))
  · -- What the seconds leave is less than one.
    exact (mem_parts hf).2.trans_lt (Nat.mod_lt _ (by decide))

/-- The spans that the text of a duration shows; no time at all is shown as no seconds. -/
def shown (d : Duration) : List (Nat × TimeUnit) :=
  if d.nanos = 0 then [(0, .second)] else d.spans

/-- The text of a duration is that of the spans it shows. -/
theorem text_eq (d : Duration) :
    d.text = String.ofList ([' '].intercalate (d.shown.map spanText)) := by
  rw [text, shown]
  split
  · rfl
  · rfl

/-- The spans that a duration shows come to the duration. -/
theorem total_shown (d : Duration) : total d.shown = d.nanos := by
  rw [shown]
  split
  · rename_i h
    exact h.symm
  · exact d.total_spans

/-- A duration shows some span. -/
theorem shown_ne_nil (d : Duration) : d.shown ≠ [] := by
  intro h
  have hn : d.nanos = 0 := by rw [← d.total_shown, h, total, List.foldr_nil]
  rw [shown, if_pos hn] at h
  exact List.cons_ne_nil _ _ h

/-- The spans that a duration shows carry whole seconds over. -/
theorem carried_of_mem_shown {d : Duration} {span : Nat × TimeUnit} (h : span ∈ d.shown) :
    DurationText.Carried span := by
  rw [shown] at h
  split at h
  · rw [List.mem_singleton.mp h]
    exact fun fine => absurd fine (Nat.lt_irrefl _)
  · exact carried_of_mem_spans h

end Duration

namespace DurationText

open TextBlank

/-- The chunk of a span behind some characters. -/
def spanChunk (lead : List Char) (span : Nat × TimeUnit) : List Char × List Char :=
  (lead ++ Nat.toDigits 10 span.1, (span.2.label span.1).toList)

/-- The chunks of the text of some spans: the space between two spans goes to the later. -/
def spanChunks : List (Nat × TimeUnit) → List (List Char × List Char)
  | [] => []
  | first :: rest => spanChunk [] first :: rest.map (spanChunk [' '])

/-- The chunks make up the text of the spans. -/
theorem flatMap_spanChunks (spans : List (Nat × TimeUnit)) :
    ((spanChunks spans).flatMap fun chunk => chunk.1 ++ chunk.2) =
      [' '].intercalate (spans.map Duration.spanText) := by
  cases spans with
  | nil => rfl
  | cons first rest =>
    induction rest generalizing first with
    | nil => simp [spanChunks, spanChunk, Duration.spanText]
    | cons second rest ih =>
      rw [List.map_cons, List.map_cons, List.intercalate_cons_cons, ← List.map_cons, ← ih second]
      simp [spanChunks, spanChunk, Duration.spanText]

/-- A label has unit letters only. -/
theorem isUnitLetter_label (count : Nat) (unit : TimeUnit) :
    (unit.label count).toList ≠ [] ∧ ∀ c ∈ (unit.label count).toList, isUnitLetter c = true := by
  rw [← List.all_eq_true]
  cases unit <;> simp only [TimeUnit.label] <;> (try split) <;> decide

/-- The chunk of a span is cut off as it stands. -/
theorem whole_spanChunk {lead : List Char} (hl : ∀ c ∈ lead, isUnitLetter c = false)
    (span : Nat × TimeUnit) : Whole (spanChunk lead span) where
  quantity_ne_nil := List.append_ne_nil_of_right_ne_nil lead Nat.toDigits_ne_nil
  quantity c hc := by
    rcases List.mem_append.mp hc with hc | hc
    · exact hl c hc
    · exact not_isUnitLetter_of_isDigit (isDigit_toDigits hc)
  letters_ne_nil := (isUnitLetter_label span.1 span.2).1
  letters := (isUnitLetter_label span.1 span.2).2

/-- The chunks of a text are cut off as they stand. -/
theorem whole_of_mem_spanChunks {spans : List (Nat × TimeUnit)} {chunk : List Char × List Char}
    (h : chunk ∈ spanChunks spans) : Whole chunk := by
  cases spans with
  | nil => exact absurd h List.not_mem_nil
  | cons first rest =>
    rcases List.mem_cons.mp h with rfl | h
    · exact whole_spanChunk (List.forall_mem_nil _) first
    · obtain ⟨span, -, rfl⟩ := List.mem_map.mp h
      exact whole_spanChunk (List.forall_mem_singleton.mpr (by decide)) span

/-- The chunk of a span adds its count of its unit, if the sum is a duration. -/
theorem exists_addChunk? (sum : Duration) {lead : List Char} {span : Nat × TimeUnit}
    (blank : ∀ c ∈ lead, isBlank c = true)
    (fits : sum.nanos + span.1 * span.2.nanos < UInt64.size * 1_000_000_000)
    (carried : Carried span) :
    ∃ next : Duration, next.nanos = sum.nanos + span.1 * span.2.nanos ∧
      addChunk? sum (spanChunk lead span) = some next := by
  let next : Duration := ⟨sum.nanos + span.1 * span.2.nanos, fits⟩
  have hcount : span.1 < UInt64.size := by
    by_cases hu : TimeUnit.second.nanos ≤ span.2.nanos
    · have hle : span.1 * 1_000_000_000 ≤ span.1 * span.2.nanos := Nat.mul_le_mul_left span.1 hu
      omega
    · have hn : span.1 * span.2.nanos < 1_000_000_000 := carried (Nat.not_le.mp hu)
      have hle := Nat.le_mul_of_pos_right span.1 (nanos_pos span.2)
      simp only [UInt64.size]
      omega
  have hadd : addWhole? sum span.1 span.2 = some next := addWhole?_eq_some rfl carried
  refine ⟨next, rfl, ?_⟩
  simp only [addChunk?, spanChunk, String.ofList_toList, TimeUnit.ofName?_label,
    quantity?_digits blank hcount, hadd, Option.bind_eq_bind, Option.bind_some]

/-- The chunks of spans that follow others add up to what the spans come to. -/
theorem foldlM_map_spanChunk {lead : List Char} {spans : List (Nat × TimeUnit)}
    {sum total : Duration} (blank : ∀ c ∈ lead, isBlank c = true)
    (carried : ∀ span ∈ spans, Carried span)
    (h : total.nanos = sum.nanos + Duration.total spans) :
    (spans.map (spanChunk lead)).foldlM addChunk? sum = some total := by
  induction spans generalizing sum with
  | nil => exact congrArg some (Duration.ext h.symm)
  | cons span rest ih =>
    have hrange := total.inRange
    have ht : Duration.total (span :: rest) = span.1 * span.2.nanos + Duration.total rest := rfl
    obtain ⟨next, hnext, hadd⟩ := exists_addChunk? sum blank (by omega)
      (carried span List.mem_cons_self)
    rw [List.map_cons, List.foldlM_cons, hadd]
    exact ih (fun other ho => carried other (List.mem_cons_of_mem span ho)) (by omega)

/-- The chunks of a text add up to what its spans come to. -/
theorem foldlM_spanChunks {spans : List (Nat × TimeUnit)} {total : Duration}
    (carried : ∀ span ∈ spans, Carried span)
    (h : total.nanos = Duration.total spans) :
    (spanChunks spans).foldlM addChunk? .zero = some total := by
  cases spans with
  | nil => exact congrArg some (Duration.ext h.symm)
  | cons first rest =>
    have hrange := total.inRange
    have hzero : Duration.zero.nanos = 0 := rfl
    have ht : Duration.total (first :: rest) =
        first.1 * first.2.nanos + Duration.total rest := rfl
    obtain ⟨next, hnext, hadd⟩ := exists_addChunk? .zero (List.forall_mem_nil _)
      (by omega) (carried first List.mem_cons_self)
    rw [spanChunks, List.foldlM_cons, hadd]
    exact foldlM_map_spanChunk (List.forall_mem_singleton.mpr (by decide))
      (fun other ho => carried other (List.mem_cons_of_mem first ho)) (by omega)

/-- The text of a duration is read as the duration. -/
theorem read?_text (d : Duration) : read? d.text = some d := by
  have hwhole : ∀ chunk ∈ spanChunks d.shown, Whole chunk := fun chunk => whole_of_mem_spanChunks
  have hcut : chunks d.text.toList = spanChunks d.shown := by
    rw [d.text_eq, String.toList_ofList, ← flatMap_spanChunks, chunks_flatMap hwhole]
  have hne : d.text ≠ "0" := by
    intro h
    rw [h] at hcut
    have hzero : Whole (['0'], []) := hwhole _ (by rw [← hcut]; decide)
    exact hzero.letters_ne_nil rfl
  have hfilter : (spanChunks d.shown).filter (fun chunk => !isTail chunk) = spanChunks d.shown :=
    List.filter_eq_self.mpr fun chunk hc => by rw [(hwhole chunk hc).not_isTail]; rfl
  have hsum : (spanChunks d.shown).foldlM addChunk? .zero = some d :=
    foldlM_spanChunks (fun span => Duration.carried_of_mem_shown) d.total_shown.symm
  obtain ⟨first, rest, hs⟩ := List.exists_cons_of_ne_nil d.shown_ne_nil
  rw [hs, spanChunks] at hsum hfilter hcut
  rw [read?, if_neg hne, hcut, hfilter]
  exact hsum

end DurationText

end ModelRegistry
