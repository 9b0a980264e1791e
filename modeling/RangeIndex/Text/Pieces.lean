/-! Cutting text at separators. Pieces keep their order and lose only the separators, so a path, a
qualified name and a run of words are all read through the same few cuts. -/
namespace RangeIndex.Text

/-- The pieces between separators, in order. A text without a separator is its only piece, and a
separator at an end leaves an empty piece there. -/
def splitBy (separates : Char → Bool) : List Char → List (List Char)
  | [] => [[]]
  | c :: rest =>
    match separates c, splitBy separates rest with
    | true, pieces => [] :: pieces
    | false, [] => [[c]]
    | false, piece :: pieces => (c :: piece) :: pieces

/-- The non-empty pieces between separators. -/
def words (separates : Char → Bool) (text : List Char) : List (List Char) :=
  (splitBy separates text).filter fun piece => !piece.isEmpty

/-- The words of a list joined by a separator between neighbours. -/
def joinWith (separator : List Char) : List (List Char) → List Char
  | [] => []
  | [piece] => piece
  | piece :: next :: rest => piece ++ separator ++ joinWith separator (next :: rest)

/-- The two sides of the first occurrence of a mark, when there is one. -/
def cutAt {α : Type} [BEq α] (mark : α) (text : List α) : Option (List α × List α) :=
  match text.dropWhile (fun c => !(c == mark)) with
  | [] => none
  | _ :: after => some (text.takeWhile (fun c => !(c == mark)), after)

/-- The two sides of the last occurrence of a mark, when there is one. -/
def cutAtLast {α : Type} [BEq α] (mark : α) (text : List α) : Option (List α × List α) :=
  (cutAt mark text.reverse).map fun (after, before) => (before.reverse, after.reverse)

/-- Whether one text occurs as a run inside another. -/
def occursIn {α : Type} [BEq α] (run : List α) : List α → Bool
  | [] => run.isEmpty
  | c :: rest => run.isPrefixOf (c :: rest) || occursIn run rest

/-- A text always has at least one piece. -/
theorem splitBy_ne_nil (separates : Char → Bool) (text : List Char) :
    splitBy separates text ≠ [] := by
  cases text with
  | nil => simp [splitBy]
  | cons c rest => unfold splitBy; split <;> simp

/-- Joining the pieces between separators gives the text back. -/
theorem joinWith_splitBy (separator : Char) (text : List Char) :
    joinWith [separator] (splitBy (· == separator) text) = text := by
  induction text with
  | nil => rfl
  | cons c rest ih =>
    have present := splitBy_ne_nil (· == separator) rest
    unfold splitBy
    cases pieces : splitBy (· == separator) rest with
    | nil => exact absurd pieces present
    | cons piece others =>
      rw [pieces] at ih
      cases found : c == separator with
      | true => simp [joinWith, ih, beq_iff_eq.mp found]
      | false => cases others <;> simp_all [joinWith]

@[simp] theorem splitBy_separator (separator : Char) (rest : List Char) :
    splitBy (· == separator) (separator :: rest) = [] :: splitBy (· == separator) rest := by
  simp [splitBy]

/-- Text on both sides of a separator is split by itself. -/
theorem splitBy_seam {separates : Char → Bool} {mark : Char} (marks : separates mark = true)
    (before after : List Char) :
    splitBy separates (before ++ mark :: after) =
      splitBy separates before ++ splitBy separates after := by
  induction before with
  | nil => simp [splitBy, marks]
  | cons c before ih =>
    obtain ⟨piece, pieces, split⟩ := List.exists_cons_of_ne_nil (splitBy_ne_nil separates before)
    rw [split] at ih
    cases found : separates c <;> simp [splitBy, found, ih, split]

section Inside
variable {separates : Char → Bool} {c : Char} {text piece : List Char}

/-- A character that does not separate goes to the first piece behind it. -/
theorem splitBy_inside (inside : separates c = false) {rest : List Char} {pieces : List (List Char)}
    (split : splitBy separates rest = piece :: pieces) :
    splitBy separates (c :: rest) = (c :: piece) :: pieces := by
  simp [splitBy, inside, split]

/-- A text without separators is one piece. -/
theorem splitBy_solid (solid : ∀ c ∈ piece, separates c = false) :
    splitBy separates piece = [piece] := by
  induction piece with
  | nil => rfl
  | cons c piece ih =>
    obtain ⟨first, rest⟩ := List.forall_mem_cons.mp solid
    exact splitBy_inside first (ih rest)

/-- There are no separators in the pieces between them. -/
theorem solid_of_mem_splitBy (member : piece ∈ splitBy separates text) :
    ∀ c ∈ piece, separates c = false := by
  induction text generalizing piece with
  | nil =>
    rw [List.mem_singleton.mp member]
    exact List.forall_mem_nil _
  | cons c rest ih =>
    obtain ⟨first, pieces, split⟩ := List.exists_cons_of_ne_nil (splitBy_ne_nil separates rest)
    cases found : separates c with
    | true =>
      rw [← List.nil_append (c :: rest), splitBy_seam found] at member
      rcases List.mem_append.mp member with empty | later
      · rw [List.mem_singleton.mp empty]
        exact List.forall_mem_nil _
      · exact ih later
    | false =>
      rw [splitBy_inside found split] at member
      rcases List.mem_cons.mp member with rfl | later
      · exact List.forall_mem_cons.mpr ⟨found, ih (split ▸ List.mem_cons_self)⟩
      · exact ih (split ▸ List.mem_cons_of_mem _ later)

end Inside

/-- Another character goes to the first piece behind it. -/
theorem splitBy_other {separator c : Char} (other : c ≠ separator) {rest piece : List Char}
    {pieces : List (List Char)} (split : splitBy (· == separator) rest = piece :: pieces) :
    splitBy (· == separator) (c :: rest) = (c :: piece) :: pieces :=
  @splitBy_inside (· == separator) c piece (beq_eq_false_iff_ne.mpr other) rest pieces split

/-- A piece is clear of a separator when it has none in it. -/
theorem solid_of_clear {separator : Char} {piece : List Char} (clear : separator ∉ piece) :
    ∀ c ∈ piece, (c == separator) = false :=
  fun _ member => beq_eq_false_iff_ne.mpr fun same => clear (same ▸ member)

theorem splitBy_clear {separator : Char} {piece : List Char} (clear : separator ∉ piece) :
    splitBy (· == separator) piece = [piece] :=
  splitBy_solid (solid_of_clear clear)

/-- A piece in front of a separator is cut off there. -/
theorem splitBy_append {separator : Char} {piece : List Char} (clear : separator ∉ piece)
    (rest : List Char) :
    splitBy (· == separator) (piece ++ separator :: rest) =
      piece :: splitBy (· == separator) rest := by
  rw [splitBy_seam (by simp), splitBy_clear clear]
  rfl

theorem clear_of_mem_splitBy {separator : Char} {text piece : List Char}
    (member : piece ∈ splitBy (· == separator) text) : separator ∉ piece := by
  intro inside
  simpa using solid_of_mem_splitBy member separator inside

/-- Text on both sides of a separator has its own words. -/
theorem words_seam {separates : Char → Bool} {mark : Char} (marks : separates mark = true)
    (before after : List Char) :
    words separates (before ++ mark :: after) = words separates before ++ words separates after := by
  rw [words, splitBy_seam marks, List.filter_append]
  rfl

/-- A text without separators is one word, unless it is empty. -/
theorem words_solid {separates : Char → Bool} {word : List Char} (nonempty : word ≠ [])
    (solid : ∀ c ∈ word, separates c = false) : words separates word = [word] := by
  rw [words, splitBy_solid solid]
  simp [nonempty]

theorem solid_of_mem_words {separates : Char → Bool} {text word : List Char}
    (member : word ∈ words separates text) : word ≠ [] ∧ ∀ c ∈ word, separates c = false := by
  obtain ⟨piece, nonempty⟩ := List.mem_filter.mp member
  exact ⟨by simpa using nonempty, solid_of_mem_splitBy piece⟩

/-- A run of one class ends where something else follows. -/
theorem takeWhile_run {α : Type} {belongs : α → Bool} {run rest : List α}
    (inside : ∀ c ∈ run, belongs c = true) (outside : ∀ c, rest.head? = some c → belongs c = false) :
    (run ++ rest).takeWhile belongs = run := by
  rw [List.takeWhile_append_of_pos inside]
  cases rest with
  | nil => simp
  | cons c rest => simp [outside c rfl]

theorem dropWhile_run {α : Type} {belongs : α → Bool} {run rest : List α}
    (inside : ∀ c ∈ run, belongs c = true) (outside : ∀ c, rest.head? = some c → belongs c = false) :
    (run ++ rest).dropWhile belongs = rest := by
  rw [List.dropWhile_append_of_pos inside]
  cases rest with
  | nil => rfl
  | cons c rest => simp [outside c rfl]

/-- What stands last is not left out with a class that it is outside of. -/
theorem dropWhile_concat {α : Type} {belongs : α → Bool} {last : α} (outside : belongs last = false)
    (run : List α) : (run ++ [last]).dropWhile belongs = run.dropWhile belongs ++ [last] := by
  rw [List.dropWhile_append]
  split
  · rename_i all
    rw [List.isEmpty_iff.mp all, List.dropWhile_cons_of_neg (by simp [outside])]
    rfl
  · rfl

/-- A text is cut at its first mark. -/
theorem cutAt_append {α : Type} [BEq α] [LawfulBEq α] {mark : α} {before : List α}
    (clear : mark ∉ before) (after : List α) :
    cutAt mark (before ++ mark :: after) = some (before, after) := by
  have passes : ∀ c ∈ before, (!(c == mark)) = true := by
    intro c member
    simpa using fun same : c = mark => clear (same ▸ member)
  have stops : ∀ c, (mark :: after).head? = some c → (!(c == mark)) = false := by
    intro c front
    obtain rfl := Option.some.inj front
    simp
  rw [cutAt, dropWhile_run passes stops, takeWhile_run passes stops]

/-- The two sides of a cut make up the text with the mark. -/
theorem eq_of_cutAt {α : Type} [BEq α] [LawfulBEq α] {mark : α} {text before after : List α}
    (cut : cutAt mark text = some (before, after)) : text = before ++ mark :: after := by
  have whole : text.takeWhile (fun c => !(c == mark)) ++ text.dropWhile (fun c => !(c == mark)) =
      text := List.takeWhile_append_dropWhile
  unfold cutAt at cut
  split at cut
  · cases cut
  · rename_i first rest found
    have last := List.head?_dropWhile_not (fun c => !(c == mark)) text
    rw [found] at last whole
    have same : first = mark := by simpa using last
    cases cut
    rw [same] at whole
    exact whole.symm

/-- The part of a text before its first mark is clear of the mark. -/
theorem clear_of_cutAt {α : Type} [BEq α] [LawfulBEq α] {mark : α} {text before after : List α}
    (cut : cutAt mark text = some (before, after)) : mark ∉ before := by
  unfold cutAt at cut
  split at cut
  · cases cut
  · cases cut
    intro member
    simpa using List.all_eq_true.mp List.all_takeWhile mark member

/-- A text is not cut when it is clear of the mark. -/
theorem cutAt_eq_none_iff {α : Type} [BEq α] [LawfulBEq α] {mark : α} {text : List α} :
    cutAt mark text = none ↔ mark ∉ text := by
  constructor
  · intro uncut member
    obtain ⟨before, after, rfl, clear⟩ := List.eq_append_cons_of_mem member
    rw [cutAt_append clear] at uncut
    cases uncut
  · intro clear
    cases cut : cutAt mark text with
    | none => rfl
    | some sides => exact absurd (eq_of_cutAt cut ▸ List.mem_append_right _ List.mem_cons_self) clear

end RangeIndex.Text
