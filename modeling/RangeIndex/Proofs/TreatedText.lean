import RangeIndex.Rule.Options

/-! White space in stored text. A text is runs without blanks, its words, with blanks around them and
between them. Everything a treatment does can be told from the words: trimming keeps them with what is
between them, and collapsing puts them out with one space between neighbours, which are the same words
again. So treating a text twice, or in pieces that meet at blanks, comes to treating it once. -/
namespace RangeIndex.TreatedText
open Text WhiteSpace

section Definitions

/-- A blank of stored text. -/
def Blank (c : Char) : Prop := c = ' ' ∨ c = '\t' ∨ c = '\n' ∨ c = '\r'

/-- The longest runs of a text without blanks, in order: what stands before a run and what follows it
is a blank or nothing. -/
inductive Runs : List Char → List (List Char) → Prop where
  | none {gap : List Char} (blank : ∀ c ∈ gap, Blank c) : Runs gap []
  | next {gap word rest : List Char} {words : List (List Char)} (blank : ∀ c ∈ gap, Blank c)
      (nonempty : word ≠ []) (solid : ∀ c ∈ word, ¬ Blank c)
      (ends : ∀ c, rest.head? = some c → Blank c) (later : Runs rest words) :
      Runs (gap ++ (word ++ rest)) (word :: words)

/-- What is left of a text without the blanks at its ends. -/
structure Stripped (text middle : List Char) : Prop where
  around : ∃ front back, text = front ++ middle ++ back ∧ (∀ c ∈ front, Blank c) ∧
    ∀ c ∈ back, Blank c
  first : ∀ c, middle.head? = some c → ¬ Blank c
  last : ∀ c, middle.getLast? = some c → ¬ Blank c

/-- Words as they are found in a text. -/
def Proper (words : List (List Char)) : Prop :=
  ∀ word ∈ words, word ≠ [] ∧ ∀ c ∈ word, isMarkupBlank c = false

end Definitions

section Words
variable {gap text : List Char} {words : List (List Char)}

theorem blank_iff {c : Char} : isMarkupBlank c = true ↔ Blank c := by
  simp [isMarkupBlank, Blank, or_assoc]

theorem not_blank_iff {c : Char} : isMarkupBlank c = false ↔ ¬ Blank c := by
  rw [← blank_iff, Bool.not_eq_true]

/-- Blanks in front of a text or behind it add no word. -/
theorem words_behind_blanks (blank : ∀ c ∈ gap, Blank c) (text : List Char) :
    Text.words isMarkupBlank (gap ++ text) = Text.words isMarkupBlank text := by
  induction gap with
  | nil => rfl
  | cons c gap ih =>
    obtain ⟨first, rest⟩ := List.forall_mem_cons.mp blank
    exact (words_seam (blank_iff.mpr first) [] (gap ++ text)).trans (ih rest)

theorem words_before_blanks (blank : ∀ c ∈ gap, Blank c) (text : List Char) :
    Text.words isMarkupBlank (text ++ gap) = Text.words isMarkupBlank text := by
  cases gap with
  | nil => rw [List.append_nil]
  | cons c gap =>
    obtain ⟨first, rest⟩ := List.forall_mem_cons.mp blank
    have nothing := words_behind_blanks rest []
    rw [List.append_nil] at nothing
    rw [words_seam (blank_iff.mpr first), nothing]
    exact List.append_nil _

theorem words_proper (text : List Char) : Proper (Text.words isMarkupBlank text) :=
  fun _ member => solid_of_mem_words member

theorem words_of_runs (runs : Runs text words) : Text.words isMarkupBlank text = words := by
  induction runs with
  | none blank =>
    have nothing := words_behind_blanks blank []
    rwa [List.append_nil] at nothing
  | @next gap word rest words blank nonempty solid ends later ih =>
    have alone := words_solid nonempty fun c member => not_blank_iff.mpr (solid c member)
    rw [words_behind_blanks blank, ← ih]
    cases rest with
    | nil =>
      rw [List.append_nil, alone]
      rfl
    | cons c rest =>
      have blank := blank_iff.mpr (ends c rfl)
      have behind : Text.words isMarkupBlank (c :: rest) = Text.words isMarkupBlank rest :=
        words_seam blank [] rest
      rw [words_seam blank, alone, behind]
      rfl

/-- A character in front of a text is a blank more, begins a run, or goes on with the first. -/
theorem runs_exist (text : List Char) : ∃ words, Runs text words := by
  induction text with
  | nil => exact ⟨[], .none (List.forall_mem_nil _)⟩
  | cons c text ih =>
    obtain ⟨words, runs⟩ := ih
    by_cases here : Blank c
    · cases runs with
      | none blank => exact ⟨[], .none (List.forall_mem_cons.mpr ⟨here, blank⟩)⟩
      | @next gap word rest words blank nonempty solid ends later =>
        exact ⟨_, .next (List.forall_mem_cons.mpr ⟨here, blank⟩) nonempty solid ends later⟩
    · have alone : ∀ d ∈ [c], ¬ Blank d := List.forall_mem_singleton.mpr here
      have begun (ends : ∀ d, text.head? = some d → Blank d) : Runs (c :: text) ([c] :: words) :=
        .next (List.forall_mem_nil _) (List.cons_ne_nil c []) alone ends runs
      cases runs with
      | none blank => exact ⟨_, begun fun d front => blank d (List.mem_of_head? front)⟩
      | @next gap word rest words blank nonempty solid ends later =>
        cases gap with
        | nil =>
          have longer : ∀ d ∈ c :: word, ¬ Blank d := List.forall_mem_cons.mpr ⟨here, solid⟩
          exact ⟨_, .next (List.forall_mem_nil _) (List.cons_ne_nil c word) longer ends later⟩
        | cons d gap =>
          refine ⟨_, begun fun e front => ?_⟩
          obtain rfl := Option.some.inj front
          exact blank d List.mem_cons_self

theorem runs_iff : Runs text words ↔ Text.words isMarkupBlank text = words := by
  constructor
  · exact words_of_runs
  · rintro rfl
    obtain ⟨words, runs⟩ := runs_exist text
    rwa [words_of_runs runs]

end Words

section Joining
variable {words : List (List Char)}

theorem joined_cons (word next : List Char) (rest : List (List Char)) :
    joinWith [' '] (word :: next :: rest) = word ++ ' ' :: joinWith [' '] (next :: rest) := by
  rw [joinWith, List.append_assoc]
  rfl

/-- Words put out behind some output have a space in front of each. -/
theorem fold_words {output : List Char} (begun : output ≠ []) (words : List (List Char)) :
    (words.foldl addWord output).reverse = joinWith [' '] (output.reverse :: words) := by
  induction words generalizing output with
  | nil => rfl
  | cons word rest ih =>
    have added : addWord output word = word.reverse ++ ' ' :: output := by
      rw [addWord, if_neg (by simpa using begun)]
    rw [List.foldl_cons, added, ih (by simp), joined_cons]
    cases rest with
    | nil => simp [joinWith]
    | cons next rest => simp [joined_cons]

/-- A collapsed text is its words with one space between neighbours: nothing is put out in front of the
first word, and after it there is some output, as it is not empty. -/
theorem collapsed_eq (text : List Char) :
    apply .collapse text = joinWith [' '] (Text.words isMarkupBlank text) := by
  have proper := words_proper text
  rw [apply]
  cases found : Text.words isMarkupBlank text with
  | nil => rfl
  | cons word rest =>
    rw [found] at proper
    obtain ⟨nonempty, _⟩ := proper word List.mem_cons_self
    have first : addWord [] word = word.reverse := rfl
    rw [List.foldl_cons, first, fold_words (by simpa using nonempty), List.reverse_reverse]

/-- Words with spaces between them are the words of the text they make. -/
theorem words_joined (proper : Proper words) :
    Text.words isMarkupBlank (joinWith [' '] words) = words := by
  induction words with
  | nil => rfl
  | cons word rest ih =>
    obtain ⟨⟨nonempty, solid⟩, later⟩ := List.forall_mem_cons.mp proper
    have alone := words_solid nonempty solid
    cases rest with
    | nil => exact alone
    | cons next rest =>
      rw [joined_cons, words_seam (by decide), alone, ih later]
      rfl

theorem words_collapsed (text : List Char) :
    Text.words isMarkupBlank (apply .collapse text) = Text.words isMarkupBlank text := by
  rw [collapsed_eq, words_joined (words_proper text)]

theorem collapsed_of_words {text other : List Char}
    (same : Text.words isMarkupBlank text = Text.words isMarkupBlank other) :
    apply .collapse text = apply .collapse other := by
  rw [collapsed_eq, collapsed_eq, same]

theorem joined_first (proper : Proper words) :
    ∀ c, (joinWith [' '] words).head? = some c → isMarkupBlank c = false := by
  intro c front
  cases words with
  | nil => cases front
  | cons word rest =>
    obtain ⟨⟨nonempty, solid⟩, _⟩ := List.forall_mem_cons.mp proper
    obtain ⟨d, others, rfl⟩ := List.exists_cons_of_ne_nil nonempty
    have first : (joinWith [' '] ((d :: others) :: rest)).head? = some d := by
      cases rest <;> rfl
    rw [← Option.some.inj (first.symm.trans front)]
    exact solid d List.mem_cons_self

theorem joined_last (proper : Proper words) :
    ∀ c, (joinWith [' '] words).getLast? = some c → isMarkupBlank c = false := by
  induction words with
  | nil => exact fun c back => by cases back
  | cons word rest ih =>
    obtain ⟨⟨nonempty, solid⟩, later⟩ := List.forall_mem_cons.mp proper
    intro c back
    cases rest with
    | nil => exact solid c (List.mem_of_getLast? back)
    | cons next rest =>
      have present : joinWith [' '] (next :: rest) ≠ [] := by
        intro empty
        have same := words_joined later
        rw [empty] at same
        exact List.cons_ne_nil _ _ same.symm
      obtain ⟨d, final⟩ := Option.ne_none_iff_exists'.mp (mt List.getLast?_eq_none_iff.mp present)
      rw [joined_cons, List.append_cons, List.getLast?_append, final] at back
      exact ih later c (final.trans back)

end Joining

section Trimming
variable {text middle : List Char}

/-- Trimming drops just the blanks in front of the first other character and behind the last. -/
theorem trim_of_stripped (stripped : Stripped text middle) : apply .trim text = middle := by
  obtain ⟨⟨front, back, rfl, ahead, behind⟩, first, last⟩ := stripped
  have ahead : ∀ c ∈ front, isMarkupBlank c = true := fun c member => blank_iff.mpr (ahead c member)
  have behind : ∀ c ∈ back, isMarkupBlank c = true := fun c member => blank_iff.mpr (behind c member)
  rw [apply, trimBy]
  cases middle with
  | nil =>
    have all : ∀ c ∈ front ++ back, isMarkupBlank c = true :=
      List.forall_mem_append.mpr ⟨ahead, behind⟩
    have nothing : (front ++ back ++ []).dropWhile isMarkupBlank = [] :=
      dropWhile_run all fun _ head => by cases head
    rw [List.append_nil] at nothing ⊢
    rw [nothing]
    rfl
  | cons c rest =>
    have begins : ∀ d, (c :: rest ++ back).head? = some d → isMarkupBlank d = false :=
      fun d head => not_blank_iff.mpr (first d head)
    have ends : ∀ d, (c :: rest).reverse.head? = some d → isMarkupBlank d = false := by
      intro d final
      rw [List.head?_reverse] at final
      exact not_blank_iff.mpr (last d final)
    have reversed : ∀ d ∈ back.reverse, isMarkupBlank d = true :=
      fun d member => behind d (List.mem_reverse.mp member)
    rw [List.append_assoc, dropWhile_run ahead begins, List.reverse_append,
      dropWhile_run reversed ends, List.reverse_reverse]

theorem stripped_trim (text : List Char) : Stripped text (apply .trim text) where
  around := by
    let inner := (text.dropWhile isMarkupBlank).reverse
    refine ⟨text.takeWhile isMarkupBlank, (inner.takeWhile isMarkupBlank).reverse, ?_, ?_, ?_⟩
    · rw [apply, trimBy, List.append_assoc, ← List.reverse_append, List.takeWhile_append_dropWhile,
        List.reverse_reverse, List.takeWhile_append_dropWhile]
    · exact fun c member => blank_iff.mp (List.all_eq_true.mp List.all_takeWhile c member)
    · exact fun c member => blank_iff.mp
        (List.all_eq_true.mp List.all_takeWhile c (List.mem_reverse.mp member))
  first := fun _ front => not_blank_iff.mp (head_trimBy front)
  last := fun _ back => not_blank_iff.mp (last_trimBy back)

theorem trimmed_iff : apply .trim text = middle ↔ Stripped text middle := by
  constructor
  · rintro rfl
    exact stripped_trim text
  · exact trim_of_stripped

/-- Trimming keeps the words. -/
theorem words_trimmed (text : List Char) :
    Text.words isMarkupBlank (apply .trim text) = Text.words isMarkupBlank text := by
  obtain ⟨front, back, same, ahead, behind⟩ := (stripped_trim text).around
  have padded := congrArg (Text.words isMarkupBlank) same
  rw [words_before_blanks behind, words_behind_blanks ahead] at padded
  exact padded.symm

/-- There are no blanks at the ends of a collapsed text. -/
theorem trim_collapsed (text : List Char) :
    apply .trim (apply .collapse text) = apply .collapse text := by
  have proper := words_proper text
  rw [collapsed_eq, apply]
  exact trimBy_of_ends (joined_first proper) (joined_last proper)

end Trimming

section Treatments

theorem apply_apply (treatment : WhiteSpace) (text : List Char) :
    apply treatment (apply treatment text) = apply treatment text := by
  cases treatment with
  | keep => rfl
  | trim => exact trimBy_trimBy isMarkupBlank text
  | collapse => exact collapsed_of_words (words_collapsed text)

theorem collapsed_iff {text result : List Char} :
    apply .collapse text = result ↔ ∃ words, Runs text words ∧ result = joinWith [' '] words := by
  constructor
  · rintro rfl
    exact ⟨_, runs_iff.mpr rfl, collapsed_eq text⟩
  · rintro ⟨words, runs, rfl⟩
    rw [collapsed_eq, words_of_runs runs]

/-- Words do not go on over blanks, and over one space no more than over many. -/
theorem words_over_gap {gap : List Char} (present : gap ≠ []) (blank : ∀ c ∈ gap, Blank c)
    (before after : List Char) :
    Text.words isMarkupBlank (before ++ gap ++ after) =
      Text.words isMarkupBlank (before ++ ' ' :: after) := by
  obtain ⟨c, gap, rfl⟩ := List.exists_cons_of_ne_nil present
  obtain ⟨first, rest⟩ := List.forall_mem_cons.mp blank
  rw [List.append_assoc, List.cons_append, words_seam (blank_iff.mpr first),
    words_behind_blanks rest, words_seam (by decide)]

/-- Pieces of a text that meet at blanks can be collapsed by themselves first. -/
theorem collapsed_pieces (before after : List Char) :
    apply .collapse (apply .collapse before ++ ' ' :: apply .collapse after) =
      apply .collapse (before ++ ' ' :: after) := by
  apply collapsed_of_words
  rw [words_seam (by decide), words_collapsed, words_collapsed, words_seam (by decide)]

end Treatments

/-- Collapsing gives the runs of a text without blanks, with a space between neighbours, and trimming
what is between the blanks at its ends. A treatment done again changes nothing, and neither does trimming
before or after collapsing. Collapsing goes on over pieces that meet at blanks. -/
theorem treatments_chain :
    (∀ text result, apply .collapse text = result ↔
      ∃ words, Runs text words ∧ result = joinWith [' '] words) ∧
    (∀ text result, apply .trim text = result ↔ Stripped text result) ∧
    (∀ treatment text, apply treatment (apply treatment text) = apply treatment text) ∧
    (∀ text, apply .collapse (apply .trim text) = apply .collapse text ∧
      apply .trim (apply .collapse text) = apply .collapse text) ∧
    ∀ before gap after, gap ≠ [] → (∀ c ∈ gap, Blank c) →
      apply .collapse (before ++ gap ++ after) =
        apply .collapse (apply .collapse before ++ ' ' :: apply .collapse after) := by
  refine ⟨fun _ _ => collapsed_iff, fun _ _ => trimmed_iff, apply_apply, fun text => ⟨?_, ?_⟩, ?_⟩
  · exact collapsed_of_words (words_trimmed text)
  · exact trim_collapsed text
  · intro before gap after present blank
    rw [collapsed_pieces]
    exact collapsed_of_words (words_over_gap present blank before after)

/-- Two pieces of a title that meet at a tab and a line feed. -/
theorem title_in_pieces :
    (∀ c ∈ ['\t', '\n'], Blank c) ∧
      apply .collapse (" The".toList ++ ['\t', '\n'] ++ " Hobbit ".toList) =
        apply .collapse (apply .collapse " The".toList ++ ' ' :: apply .collapse " Hobbit ".toList) ∧
      apply .collapse " The\t\n Hobbit ".toList = "The Hobbit".toList ∧
      Stripped " The\t\n Hobbit ".toList "The\t\n Hobbit".toList := by
  obtain ⟨_, trims, _, _, pieces⟩ := treatments_chain
  have blank : ∀ c ∈ ['\t', '\n'], Blank c := by simp [Blank]
  exact ⟨blank, pieces _ _ _ (List.cons_ne_nil _ _) blank, by decide +kernel,
    (trims _ _).mp (by decide +kernel)⟩

end RangeIndex.TreatedText
