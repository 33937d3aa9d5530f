/-
# Pieces between separators

Lines, fields, path components and directives are all pieces of a longer text: what stands between
the elements that separate them. A text with `n` separators has `n + 1` pieces, empty ones included,
and no piece holds a separator (`not_isSeparator_of_mem_pieces`).
-/
namespace TrafficReplay

variable {α : Type}

/-- Puts one more element, or one more border, in front of the pieces of what follows it. -/
def addToPieces (isSeparator : α → Bool) (a : α) (rest : List (List α)) : List (List α) :=
  if isSeparator a then [] :: rest
  else match rest with
    | [] => [[a]]
    | piece :: others => (a :: piece) :: others

/-- The pieces of a text between its separators, empty ones included. -/
def pieces (isSeparator : α → Bool) (text : List α) : List (List α) :=
  text.foldr (addToPieces isSeparator) [[]]

@[simp] theorem pieces_nil (isSeparator : α → Bool) : pieces isSeparator [] = [[]] := rfl

theorem pieces_cons (isSeparator : α → Bool) (a : α) (text : List α) :
    pieces isSeparator (a :: text) = addToPieces isSeparator a (pieces isSeparator text) := rfl

theorem pieces_ne_nil (isSeparator : α → Bool) (text : List α) : pieces isSeparator text ≠ [] := by
  cases text with
  | nil => simp
  | cons a text =>
    rw [pieces_cons]
    unfold addToPieces
    split
    · simp
    · split <;> simp

/-- No piece holds a separator. -/
theorem not_isSeparator_of_mem_pieces {isSeparator : α → Bool} {text piece : List α} {a : α}
    (hp : piece ∈ pieces isSeparator text) (ha : a ∈ piece) : isSeparator a = false := by
  induction text generalizing piece with
  | nil => simp at hp; simp [hp] at ha
  | cons b text ih =>
    rw [pieces_cons] at hp
    unfold addToPieces at hp
    split at hp
    · rcases List.mem_cons.1 hp with rfl | hp
      · simp at ha
      · exact ih hp ha
    · next hb =>
      split at hp
      · next h => exact absurd h (pieces_ne_nil _ _)
      · next first others h =>
        rcases List.mem_cons.1 hp with rfl | hp
        · rcases List.mem_cons.1 ha with rfl | ha
          · simpa using hb
          · exact ih (h ▸ List.mem_cons_self) ha
        · exact ih (h ▸ List.mem_cons_of_mem _ hp) ha

/-- The elements of a piece are elements of the text. -/
theorem mem_of_mem_pieces {isSeparator : α → Bool} {text piece : List α} {a : α}
    (hp : piece ∈ pieces isSeparator text) (ha : a ∈ piece) : a ∈ text := by
  induction text generalizing piece with
  | nil =>
    rw [pieces_nil, List.mem_singleton] at hp
    exact hp ▸ ha
  | cons b text ih =>
    rw [pieces_cons, addToPieces.eq_def] at hp
    split at hp
    · rcases List.mem_cons.1 hp with rfl | hp
      · cases ha
      · exact List.mem_cons_of_mem b (ih hp ha)
    · split at hp
      · next h => exact absurd h (pieces_ne_nil _ _)
      · next first others h =>
        rcases List.mem_cons.1 hp with rfl | hp
        · rcases List.mem_cons.1 ha with rfl | ha
          · exact List.mem_cons_self
          · exact List.mem_cons_of_mem b (ih (h ▸ List.mem_cons_self) ha)
        · exact List.mem_cons_of_mem b (ih (h ▸ List.mem_cons_of_mem _ hp) ha)

/-- A separator ends the pieces in front of it, and those behind it begin anew. -/
theorem pieces_append_cons {isSeparator : α → Bool} {a : α} (ha : isSeparator a = true)
    (front rest : List α) :
    pieces isSeparator (front ++ a :: rest)
      = pieces isSeparator front ++ pieces isSeparator rest := by
  induction front with
  | nil =>
    rw [List.nil_append, pieces_cons, addToPieces.eq_def, if_pos ha]
    rfl
  | cons b front ih =>
    rw [List.cons_append, pieces_cons, pieces_cons, ih, addToPieces.eq_def, addToPieces.eq_def]
    split
    · rfl
    · split
      · next h => exact absurd (List.append_eq_nil_iff.1 h).1 (pieces_ne_nil _ _)
      · next piece others h =>
        split
        · next hf => exact absurd hf (pieces_ne_nil _ _)
        · next first more hf =>
          rw [hf, List.cons_append] at h
          cases h
          rfl

/-- A text without separators is one piece. -/
theorem pieces_eq_singleton {isSeparator : α → Bool} {text : List α}
    (h : ∀ a ∈ text, isSeparator a = false) : pieces isSeparator text = [text] := by
  induction text with
  | nil => rfl
  | cons a text ih =>
    have htext : ∀ b ∈ text, isSeparator b = false := fun b hb => h b (List.mem_cons_of_mem a hb)
    rw [pieces_cons, ih htext, addToPieces.eq_def, h a List.mem_cons_self]
    rfl

/-- The pieces that are not empty: the longest runs of elements that are no separators. -/
def runs (isSeparator : α → Bool) (text : List α) : List (List α) :=
  (pieces isSeparator text).filter fun piece => !piece.isEmpty

theorem runs_append_cons {isSeparator : α → Bool} {a : α} (ha : isSeparator a = true)
    (front rest : List α) :
    runs isSeparator (front ++ a :: rest) = runs isSeparator front ++ runs isSeparator rest := by
  rw [runs, runs, runs, pieces_append_cons ha, List.filter_append]

theorem runs_eq_singleton {isSeparator : α → Bool} {text : List α} (hne : text ≠ [])
    (h : ∀ a ∈ text, isSeparator a = false) : runs isSeparator text = [text] := by
  rw [runs, pieces_eq_singleton h, List.filter_cons_of_pos (by simpa using hne), List.filter_nil]

end TrafficReplay
