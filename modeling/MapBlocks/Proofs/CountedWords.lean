import Mathlib.Data.Set.Card
import Mathlib.Order.Interval.Basic
import MapBlocks.Proofs.ListedParts
import MapBlocks.Transform.WordCount

/-!
# Counted words

The words of a text are its maximal stretches of visible characters.  No stretch runs
across a seam with a blank next to it, so the words on both sides of such a seam add
up.  The word count of a text is the number of these stretches, or one if there is
none.
-/

namespace MapBlocks.Text

/-- At every place of a stretch stands a character that is not blank. -/
def IsVisible (text : List Char) (stretch : NonemptyInterval ℕ) : Prop :=
  ∀ place ∈ stretch, ∃ c, text[place]? = some c ∧ isBlank c = false

/-- Where the words of a text stand: the visible stretches that are part of no longer one. -/
def wordPlaces (text : List Char) : Set (NonemptyInterval ℕ) :=
  {stretch | Maximal (IsVisible text) stretch}

/-- A blank stands on one side of the seam between two texts, unless one of them is empty. -/
def Apart (before after : List Char) : Prop :=
  (∀ c ∈ before.getLast?, isBlank c = true) ∨ ∀ c ∈ after.head?, isBlank c = true

/-- The stretch some places further on. -/
def shifted (count : ℕ) (stretch : NonemptyInterval ℕ) : NonemptyInterval ℕ where
  toProd := (stretch.fst + count, stretch.snd + count)
  fst_le_snd := Nat.add_le_add_right stretch.fst_le_snd count

theorem shifted_le_shifted_iff {count : ℕ} {stretch other : NonemptyInterval ℕ} :
    shifted count stretch ≤ shifted count other ↔ stretch ≤ other :=
  and_congr Nat.add_le_add_iff_right Nat.add_le_add_iff_right

theorem shifted_injective (count : ℕ) : Function.Injective (shifted count) := by
  intro stretch other same
  apply le_antisymm
  · exact shifted_le_shifted_iff.mp same.le
  · exact shifted_le_shifted_iff.mp same.ge

theorem exists_shifted {count : ℕ} {stretch : NonemptyInterval ℕ} (behind : count ≤ stretch.fst) :
    ∃ original, shifted count original = stretch := by
  refine ⟨⟨(stretch.fst - count, stretch.snd - count),
    Nat.sub_le_sub_right stretch.fst_le_snd count⟩, ?_⟩
  apply NonemptyInterval.ext
  exact Prod.ext (Nat.sub_add_cancel behind)
    (Nat.sub_add_cancel (behind.trans stretch.fst_le_snd))

section Seams

variable {text before after : List Char} {stretch : NonemptyInterval ℕ}

theorem IsVisible.snd_lt_length (visible : IsVisible text stretch) : stretch.snd < text.length := by
  obtain ⟨c, found, -⟩ := visible stretch.snd ⟨stretch.fst_le_snd, le_rfl⟩
  exact (List.getElem?_eq_some_iff.mp found).1

theorem IsVisible.fst_lt_length (visible : IsVisible text stretch) : stretch.fst < text.length :=
  stretch.fst_le_snd.trans_lt visible.snd_lt_length

/-- No visible stretch runs across a seam with a blank next to it. -/
theorem Apart.snd_lt
    (apart : Apart before after) (visible : IsVisible (before ++ after) stretch)
    (starts : stretch.fst < before.length) : stretch.snd < before.length := by
  by_contra across
  have ends : before.length ≤ stretch.snd := Nat.not_lt.mp across
  obtain ⟨last, atLast, visibleLast⟩ := visible (before.length - 1) ⟨by omega, by omega⟩
  obtain ⟨first, atFirst, visibleFirst⟩ := visible before.length ⟨starts.le, ends⟩
  rw [List.getElem?_append_left (by omega), ← List.getLast?_eq_getElem?] at atLast
  rw [List.getElem?_append_right le_rfl, Nat.sub_self, ← List.head?_eq_getElem?] at atFirst
  rcases apart with blank | blank
  · exact Bool.false_ne_true (visibleLast.symm.trans (blank last atLast))
  · exact Bool.false_ne_true (visibleFirst.symm.trans (blank first atFirst))

theorem Apart.of_blank (blank : ∀ c ∈ before, isBlank c = true) : Apart before after :=
  .inl fun c last => blank c (List.mem_of_mem_getLast? last)

theorem isVisible_append_left (apart : Apart before after)
    (starts : stretch.fst < before.length) :
    IsVisible (before ++ after) stretch ↔ IsVisible before stretch := by
  have same (ends : stretch.snd < before.length) :
      IsVisible (before ++ after) stretch ↔ IsVisible before stretch := by
    refine forall₂_congr fun place inside => ?_
    rw [List.getElem?_append_left (inside.2.trans_lt ends)]
  constructor
  · intro visible
    exact (same (apart.snd_lt visible starts)).mp visible
  · intro visible
    exact (same visible.snd_lt_length).mpr visible

theorem isVisible_shifted :
    IsVisible (before ++ after) (shifted before.length stretch) ↔ IsVisible after stretch := by
  have later (place : ℕ) : (before ++ after)[place + before.length]? = after[place]? := by
    rw [List.getElem?_append_right (Nat.le_add_left _ _), Nat.add_sub_cancel]
  constructor
  · intro visible place inside
    rw [← later]
    exact visible _ ⟨Nat.add_le_add_right inside.1 _, Nat.add_le_add_right inside.2 _⟩
  · intro visible place inside
    have starts : stretch.fst + before.length ≤ place := inside.1
    have ends : place ≤ stretch.snd + before.length := inside.2
    obtain ⟨original, rfl⟩ : ∃ original, place = original + before.length :=
      ⟨place - before.length, by omega⟩
    rw [later]
    exact visible original ⟨by omega, by omega⟩

theorem mem_wordPlaces_append_left (apart : Apart before after)
    (starts : stretch.fst < before.length) :
    stretch ∈ wordPlaces (before ++ after) ↔ stretch ∈ wordPlaces before := by
  -- A longer stretch starts before the seam too.
  refine and_congr (isVisible_append_left apart starts) (forall_congr' fun other => ?_)
  constructor
  · intro longest visible longer
    exact longest ((isVisible_append_left apart (longer.1.trans_lt starts)).mpr visible) longer
  · intro longest visible longer
    exact longest ((isVisible_append_left apart (longer.1.trans_lt starts)).mp visible) longer

theorem mem_wordPlaces_shifted (apart : Apart before after) :
    shifted before.length stretch ∈ wordPlaces (before ++ after) ↔ stretch ∈ wordPlaces after := by
  refine and_congr isVisible_shifted ?_
  constructor
  · intro longest other visible longer
    exact shifted_le_shifted_iff.mp
      (longest (isVisible_shifted.mpr visible) (shifted_le_shifted_iff.mpr longer))
  · intro longest other visible longer
    -- A longer stretch starts behind the seam too, as it cannot run across.
    have behind : before.length ≤ other.fst := by
      by_contra starts
      have ends : other.snd < before.length := apart.snd_lt visible (Nat.not_le.mp starts)
      have reached : stretch.snd + before.length ≤ other.snd := longer.2
      omega
    obtain ⟨original, rfl⟩ := exists_shifted behind
    exact shifted_le_shifted_iff.mpr
      (longest (isVisible_shifted.mp visible) (shifted_le_shifted_iff.mp longer))

/-- The words of two texts are those of the first, and behind them those of the second. -/
theorem wordPlaces_append (apart : Apart before after) :
    wordPlaces (before ++ after) =
      wordPlaces before ∪ shifted before.length '' wordPlaces after := by
  ext stretch
  by_cases starts : stretch.fst < before.length
  · rw [mem_wordPlaces_append_left apart starts, Set.mem_union, or_iff_left]
    rintro ⟨original, -, rfl⟩
    exact Nat.not_lt.mpr (Nat.le_add_left _ _) starts
  · obtain ⟨original, rfl⟩ := exists_shifted (Nat.not_lt.mp starts)
    rw [mem_wordPlaces_shifted apart, Set.mem_union, or_iff_right,
      (shifted_injective before.length).mem_set_image]
    intro word
    exact starts word.1.fst_lt_length

theorem encard_wordPlaces_append (apart : Apart before after) :
    (wordPlaces (before ++ after)).encard =
      (wordPlaces before).encard + (wordPlaces after).encard := by
  have disjoint : Disjoint (wordPlaces before) (shifted before.length '' wordPlaces after) := by
    rw [Set.disjoint_left]
    rintro _ word ⟨original, -, rfl⟩
    exact Nat.not_lt.mpr (Nat.le_add_left _ _) word.1.fst_lt_length
  rw [wordPlaces_append apart, Set.encard_union_eq disjoint,
    (shifted_injective before.length).encard_image]

theorem wordPlaces_of_blank (blank : ∀ c ∈ text, isBlank c = true) : wordPlaces text = ∅ := by
  apply Set.eq_empty_of_forall_notMem
  rintro stretch ⟨visible, -⟩
  obtain ⟨c, found, shown⟩ := visible stretch.fst ⟨le_rfl, stretch.fst_le_snd⟩
  exact Bool.false_ne_true (shown.symm.trans (blank c (List.mem_of_getElem? found)))

theorem encard_wordPlaces_of_visible
    (nonempty : text ≠ []) (visible : ∀ c ∈ text, isBlank c = false) :
    (wordPlaces text).encard = 1 := by
  have length : 0 < text.length := List.length_pos_of_ne_nil nonempty
  let whole : NonemptyInterval ℕ := ⟨(0, text.length - 1), Nat.zero_le _⟩
  have wholeVisible : IsVisible text whole := by
    intro place inside
    have ends : place ≤ text.length - 1 := inside.2
    have found := List.getElem?_eq_getElem (l := text) (i := place) (by omega)
    exact ⟨_, found, visible _ (List.mem_of_getElem? found)⟩
  have greatest {stretch : NonemptyInterval ℕ} (shown : IsVisible text stretch) :
      stretch ≤ whole := by
    have ends := shown.snd_lt_length
    exact ⟨Nat.zero_le _, Nat.le_sub_one_of_lt ends⟩
  have only : wordPlaces text = {whole} := by
    ext stretch
    constructor
    · rintro ⟨shown, longest⟩
      exact le_antisymm (greatest shown) (longest wholeVisible (greatest shown))
    · rintro rfl
      exact ⟨wholeVisible, fun other shown _ => greatest shown⟩
  rw [only, Set.encard_singleton]

end Seams

section Words

theorem words_of_blank {c : Char} (blank : isBlank c = true) (rest : List Char) :
    words (c :: rest) = words rest := by
  rw [words, if_pos blank]

theorem words_of_word
    {word rest : List Char} (nonempty : word ≠ []) (visible : ∀ c ∈ word, isBlank c = false)
    (ends : ∀ c ∈ rest.head?, isBlank c = true) : words (word ++ rest) = word :: words rest := by
  obtain ⟨c, letters, rfl⟩ := List.exists_cons_of_ne_nil nonempty
  have shown : ∀ d ∈ letters, (!isBlank d) = true := by
    intro d member
    rw [visible d (List.mem_cons_of_mem c member), Bool.not_false]
  have stops : rest.takeWhile (!isBlank ·) = [] ∧ rest.dropWhile (!isBlank ·) = rest := by
    cases rest with
    | nil => exact ⟨rfl, rfl⟩
    | cons d others => simp [ends d rfl]
  rw [List.cons_append, words, if_neg (by simp [visible c List.mem_cons_self]),
    List.takeWhile_append_of_pos shown, List.dropWhile_append_of_pos shown, stops.1, stops.2,
    List.append_nil]

/-- Induction along a text, a blank or a word at a time. -/
theorem words_induction
    {motive : List Char → Prop}
    (nil : motive [])
    (blank : ∀ c rest, isBlank c = true → motive rest → motive (c :: rest))
    (word : ∀ word rest, word ≠ [] → (∀ c ∈ word, isBlank c = false) →
      (∀ c ∈ rest.head?, isBlank c = true) → motive rest → motive (word ++ rest))
    (text : List Char) : motive text := by
  induction text using words.induct with
  | case1 => exact nil
  | case2 c rest blankFirst inRest => exact blank c rest blankFirst inRest
  | case3 c rest visibleFirst inRest =>
      have shown : ∀ d ∈ c :: rest.takeWhile (!isBlank ·), isBlank d = false := by
        refine List.forall_mem_cons.mpr ⟨by simpa using visibleFirst, ?_⟩
        simpa using List.all_eq_true.mp (List.all_takeWhile (p := (!isBlank ·)) (l := rest))
      have stops : ∀ d ∈ (rest.dropWhile (!isBlank ·)).head?, isBlank d = true := by
        intro d first
        have stopped := List.head?_dropWhile_not (!isBlank ·) rest
        rw [Option.mem_def.mp first] at stopped
        simpa using stopped
      have divided := word _ _ (List.cons_ne_nil _ _) shown stops inRest
      rwa [List.cons_append, List.takeWhile_append_dropWhile] at divided

/-- There is a word for each maximal stretch. -/
theorem length_words (text : List Char) :
    ((words text).length : ℕ∞) = (wordPlaces text).encard := by
  induction text using words_induction with
  | nil =>
      rw [words, wordPlaces_of_blank (List.forall_mem_nil _), Set.encard_empty]
      rfl
  | blank c rest blank inRest =>
      have only : ∀ d ∈ [c], isBlank d = true := List.forall_mem_singleton.mpr blank
      have apart : Apart [c] rest := .of_blank only
      rw [words_of_blank blank, inRest, ← List.singleton_append, encard_wordPlaces_append apart,
        wordPlaces_of_blank only, Set.encard_empty, zero_add]
  | word word rest nonempty visible ends inRest =>
      rw [words_of_word nonempty visible ends, List.length_cons, Nat.cast_add, inRest,
        encard_wordPlaces_append (.inr ends), encard_wordPlaces_of_visible nonempty visible,
        Nat.cast_one, add_comm]

theorem words_eq_nil_iff {text : List Char} : words text = [] ↔ ∀ c ∈ text, isBlank c = true := by
  induction text using words_induction with
  | nil => simp [words]
  | blank c rest blank inRest => simp [words_of_blank, blank, inRest]
  | word word rest nonempty visible ends inRest =>
      obtain ⟨c, member⟩ := List.exists_mem_of_ne_nil word nonempty
      rw [words_of_word nonempty visible ends, iff_false_left (List.cons_ne_nil _ _)]
      intro blank
      have blankFirst := blank c (List.mem_append_left rest member)
      exact Bool.false_ne_true ((visible c member).symm.trans blankFirst)

theorem length_words_pos
    {text : List Char} {c : Char} (member : c ∈ text) (visible : isBlank c = false) :
    0 < (words text).length := by
  apply List.length_pos_of_ne_nil
  rw [Ne, words_eq_nil_iff]
  intro blank
  exact Bool.false_ne_true (visible.symm.trans (blank c member))

/-- The words of a text are the pieces between its blanks that are not empty. -/
theorem filter_split_isBlank (text : List Char) :
    (split isBlank text).filter (!·.isEmpty) = words text := by
  simp only [split_eq_splitOnP]
  induction text using words_induction with
  | nil => simp [words]
  | blank c rest blank inRest =>
      rw [words_of_blank blank, ← inRest, List.splitOnP_cons_eq_if_modifyHead, if_pos blank]
      rfl
  | word word rest nonempty visible ends inRest =>
      rw [words_of_word nonempty visible ends, ← inRest]
      cases rest with
      | nil => simp [List.splitOnP_eq_singleton visible, nonempty]
      | cons d others =>
          have blank : isBlank d = true := ends d rfl
          rw [List.splitOnP_append_cons _ _ blank, List.splitOnP_eq_singleton visible,
            List.splitOnP_cons_eq_if_modifyHead, if_pos blank]
          simp [nonempty]

theorem length_words_append {before after : List Char} (apart : Apart before after) :
    (words (before ++ after)).length = (words before).length + (words after).length := by
  apply Nat.cast_injective (R := ℕ∞)
  rw [Nat.cast_add, length_words, length_words, length_words, encard_wordPlaces_append apart]

/-- Blanks around a text bring no word. -/
theorem length_words_of_pads {text padded : String} (pads : Pads text padded) :
    (words padded.toList).length = (words text.toList).length := by
  obtain ⟨before, after, blankBefore, blankAfter, spelled⟩ := pads
  have apartBefore : Apart before (text.toList ++ after) := .of_blank blankBefore
  have apartAfter : Apart text.toList after :=
    .inr fun c first => blankAfter c (List.mem_of_mem_head? first)
  rw [spelled, length_words_append apartBefore, length_words_append apartAfter,
    words_eq_nil_iff.mpr blankBefore, words_eq_nil_iff.mpr blankAfter, List.length_nil,
    Nat.zero_add, Nat.add_zero]

end Words

end MapBlocks.Text

namespace MapBlocks.Transform

open Text (isBlank Pads words)

theorem countWords_eq (text : String) : countWords text = max 1 (words text.toList).length := by
  have same : (words (Text.trim text.toList)).length = (words text.toList).length := by
    rw [Text.length_words_of_pads (.of_trimmed text), Text.trimmed, String.toList_ofList]
  rw [countWords, Text.filter_split_isBlank, same]
  split
  · rename_i empty
    rw [← same, List.isEmpty_iff.mp empty, words]
    rfl
  · rename_i full
    -- The first character of a trimmed text is not blank, so it belongs to a word.
    obtain ⟨c, rest, body⟩ : ∃ c rest, Text.trim text.toList = c :: rest := by
      apply List.exists_cons_of_ne_nil
      simpa using full
    have visible : isBlank c = false :=
      (Text.isTrimmed_trim text.toList).first c (by rw [body]; rfl)
    have some : 0 < (words (Text.trim text.toList)).length := by
      rw [body]
      exact Text.length_words_pos List.mem_cons_self visible
    rw [← same, max_eq_right some]

theorem countWords_of_visible
    {text : String} {c : Char} (member : c ∈ text.toList) (visible : isBlank c = false) :
    countWords text = (words text.toList).length := by
  rw [countWords_eq, max_eq_right (Text.length_words_pos member visible)]

/-- Blanks between two texts keep their words apart. -/
theorem countWords_append
    {first gap second : String} {c d : Char}
    (inFirst : c ∈ first.toList) (visibleFirst : isBlank c = false)
    (inSecond : d ∈ second.toList) (visibleSecond : isBlank d = false)
    (nonempty : gap ≠ "") (blank : ∀ e ∈ gap.toList, isBlank e = true) :
    countWords (first ++ gap ++ second) = countWords first + countWords second := by
  obtain ⟨e, blanks, spelled⟩ : ∃ e blanks, gap.toList = e :: blanks := by
    apply List.exists_cons_of_ne_nil
    simpa using nonempty
  have apartFirst : Text.Apart first.toList (gap.toList ++ second.toList) := by
    right
    intro f found
    apply blank
    rw [spelled] at found ⊢
    exact List.mem_of_mem_head? found
  have apartSecond : Text.Apart gap.toList second.toList := .of_blank blank
  have joined : (first ++ gap ++ second).toList =
      first.toList ++ (gap.toList ++ second.toList) := by
    rw [String.toList_append, String.toList_append, List.append_assoc]
  have inJoined : c ∈ (first ++ gap ++ second).toList := by
    rw [joined]
    exact List.mem_append_left _ inFirst
  rw [countWords_of_visible inJoined visibleFirst, countWords_of_visible inFirst visibleFirst,
    countWords_of_visible inSecond visibleSecond, joined, Text.length_words_append apartFirst,
    Text.length_words_append apartSecond, Text.words_eq_nil_iff.mpr blank, List.length_nil,
    Nat.zero_add]

/-- The word count of a text is the number of its maximal stretches of visible characters, but at
least one.  The counts of two texts that are not blank add up if blanks stand between them, and
blanks around a text count nothing. -/
theorem countWords_counts_maximal_stretches :
    (∀ text : String, ∃ number : ℕ,
      (Text.wordPlaces text.toList).encard = number ∧ countWords text = max 1 number) ∧
    (∀ first gap second : String,
      (∃ c ∈ first.toList, isBlank c = false) → (∃ c ∈ second.toList, isBlank c = false) →
      gap ≠ "" → (∀ c ∈ gap.toList, isBlank c = true) →
      countWords (first ++ gap ++ second) = countWords first + countWords second) ∧
    ∀ text padded, Pads text padded → countWords padded = countWords text := by
  refine ⟨?_, ?_, ?_⟩
  · intro text
    exact ⟨_, (Text.length_words text.toList).symm, countWords_eq text⟩
  · rintro first gap second ⟨c, inFirst, visibleFirst⟩ ⟨d, inSecond, visibleSecond⟩ nonempty blank
    exact countWords_append inFirst visibleFirst inSecond visibleSecond nonempty blank
  · intro text padded pads
    rw [countWords_eq, countWords_eq, Text.length_words_of_pads pads]

/-- A no-break space and a line separator are blanks, a zero-width space is none. -/
theorem countWords_counts_maximal_stretches_of_harbour :
    let first := "old\u00a0harbour"
    let gap := "\u2028 "
    let second := "west\u200bpier"
    (∃ c ∈ first.toList, isBlank c = false) ∧ (∃ c ∈ second.toList, isBlank c = false) ∧
      gap ≠ "" ∧ (∀ c ∈ gap.toList, isBlank c = true) ∧
      countWords (first ++ gap ++ second) = 3 ∧
      Pads second ("\t" ++ second ++ "\n") ∧ countWords ("\t" ++ second ++ "\n") = 1 := by
  intro first gap second
  obtain ⟨-, joined, padded⟩ := countWords_counts_maximal_stretches
  have inFirst : ∃ c ∈ first.toList, isBlank c = false := ⟨'o', by decide, by decide⟩
  have inSecond : ∃ c ∈ second.toList, isBlank c = false := ⟨'w', by decide, by decide⟩
  have blank : ∀ c ∈ gap.toList, isBlank c = true := List.all_eq_true.mp (by decide)
  have nonempty : gap ≠ "" := by decide
  have pads : Pads second ("\t" ++ second ++ "\n") :=
    ⟨['\t'], ['\n'], List.forall_mem_singleton.mpr (by decide),
      List.forall_mem_singleton.mpr (by decide), by decide⟩
  have counts : countWords first = 2 ∧ countWords second = 1 := by decide
  refine ⟨inFirst, inSecond, nonempty, blank, ?_, pads, ?_⟩
  · rw [joined first gap second inFirst inSecond nonempty blank, counts.1, counts.2]
  · rw [padded second _ pads, counts.2]

end MapBlocks.Transform
