/-
# Lines of a stream

The second view of a stream beside its deliveries: the bytes that it gives (`Delivery.contents`),
cut behind each line break (`lines`). A stream without faults is read line by line as its bytes are
cut, wherever its portions end and however often a read is interrupted
(`Delivery.readLine_faultFree`).
-/
import Mathlib
import TrafficReplay.Delivery
import TrafficReplay.Text.Pieces

namespace TrafficReplay

/-- The lines of some bytes, each with its line break; the last one may have none. -/
def lines : Bytes → List Bytes
  | [] => []
  | b :: bytes =>
    if b = newline then [b] :: lines bytes
    else match lines bytes with
      | [] => [[b]]
      | line :: others => (b :: line) :: others

/-- The first line of some bytes, with its line break if it has one. -/
def firstLine (bytes : Bytes) : Bytes :=
  bytes.takeWhile (· ≠ newline) ++ (bytes.dropWhile (· ≠ newline)).take 1

def afterFirstLine (bytes : Bytes) : Bytes :=
  (bytes.dropWhile (· ≠ newline)).drop 1

@[simp] theorem lines_nil : lines [] = [] := rfl

theorem lines_cons_newline (bytes : Bytes) :
    lines (newline :: bytes) = [newline] :: lines bytes := by
  simp [lines]

section FirstLine

variable {bytes : Bytes} (h : newline ∉ bytes) (rest : Bytes)
include h

theorem all_ne_newline : ∀ b ∈ bytes, decide (b ≠ newline) = true := by
  intro b hb
  have hne : b ≠ newline := fun e => h (e ▸ hb)
  exact decide_eq_true hne

theorem firstLine_append : firstLine (bytes ++ rest) = bytes ++ firstLine rest := by
  rw [firstLine, firstLine, List.takeWhile_append_of_pos (all_ne_newline h),
    List.dropWhile_append_of_pos (all_ne_newline h), List.append_assoc]

theorem afterFirstLine_append : afterFirstLine (bytes ++ rest) = afterFirstLine rest := by
  rw [afterFirstLine, afterFirstLine, List.dropWhile_append_of_pos (all_ne_newline h)]

theorem firstLine_append_newline : firstLine (bytes ++ newline :: rest) = bytes ++ [newline] := by
  rw [firstLine_append h]
  simp [firstLine]

theorem afterFirstLine_append_newline : afterFirstLine (bytes ++ newline :: rest) = rest := by
  rw [afterFirstLine_append h]
  simp [afterFirstLine]

end FirstLine

theorem firstLine_eq_nil_iff {bytes : Bytes} : firstLine bytes = [] ↔ bytes = [] := by
  cases bytes with
  | nil => exact iff_of_true rfl rfl
  | cons b bytes =>
    by_cases hb : b = newline <;> simp [firstLine, hb]

theorem lines_eq_cons {bytes : Bytes} (h : bytes ≠ []) :
    lines bytes = firstLine bytes :: lines (afterFirstLine bytes) := by
  induction bytes with
  | nil => exact absurd rfl h
  | cons b bytes ih =>
    by_cases hb : b = newline
    · subst hb
      rw [lines_cons_newline]
      simp [firstLine, afterFirstLine]
    · have hf : firstLine (b :: bytes) = b :: firstLine bytes := by simp [firstLine, hb]
      have ha : afterFirstLine (b :: bytes) = afterFirstLine bytes := by simp [afterFirstLine, hb]
      rw [hf, ha, lines, if_neg hb]
      cases bytes with
      | nil => rfl
      | cons c bytes => rw [ih (by simp)]

/-- The shape of a row of lines: line breaks end them and stand nowhere else, and the last line may
have none. -/
inductive Lined : List Bytes → Prop
  | nil : Lined []
  | tail {line : Bytes} : line ≠ [] → newline ∉ line → Lined [line]
  | row {line : Bytes} {rest : List Bytes} : newline ∉ line → Lined rest →
      Lined ((line ++ [newline]) :: rest)

theorem lined_lines (bytes : Bytes) : Lined (lines bytes) := by
  induction bytes with
  | nil => exact .nil
  | cons b bytes ih =>
    by_cases hb : b = newline
    · subst hb
      rw [lines_cons_newline]
      exact Lined.row (List.not_mem_nil : newline ∉ []) ih
    · have hne : newline ∉ [b] := by simpa using Ne.symm hb
      rw [lines, if_neg hb]
      generalize lines bytes = rows at ih ⊢
      cases ih with
      | nil => exact .tail (by simp) hne
      | @tail line _ hline => exact .tail (by simp) (by simp [Ne.symm hb, hline])
      | @row line rest hline hrest =>
        exact Lined.row (by simp [Ne.symm hb, hline] : newline ∉ b :: line) hrest

theorem lines_unbroken {text : Bytes} (hne : text ≠ []) (hn : newline ∉ text) :
    lines text = [text] := by
  have hfirst := firstLine_append hn []
  have hafter := afterFirstLine_append hn []
  rw [List.append_nil] at hfirst hafter
  rw [lines_eq_cons hne, hfirst, hafter]
  exact congrArg ([·]) (List.append_nil text)

theorem Lined.lines_flatten {rows : List Bytes} (h : Lined rows) : lines rows.flatten = rows := by
  induction h with
  | nil => rfl
  | tail hne hn =>
    rw [List.flatten_singleton]
    exact lines_unbroken hne hn
  | @row text rest hn _ ih =>
    rw [List.flatten_cons, ← List.append_cons, lines_eq_cons (by simp),
      firstLine_append_newline hn, afterFirstLine_append_newline hn, ih]

theorem lined_of_forall {rows : List Bytes}
    (h : ∀ row ∈ rows, ∃ text, newline ∉ text ∧ row = text ++ [newline]) : Lined rows := by
  induction rows with
  | nil => exact .nil
  | cons row rows ih =>
    obtain ⟨text, hn, rfl⟩ := h row List.mem_cons_self
    exact .row hn (ih fun other hother => h other (List.mem_cons_of_mem _ hother))

theorem flatten_lines (bytes : Bytes) : (lines bytes).flatten = bytes := by
  induction bytes with
  | nil => rfl
  | cons b bytes ih =>
    rw [lines]
    split
    · next hb => rw [List.flatten_cons, ih, hb, List.singleton_append]
    · cases hl : lines bytes with
      | nil => rw [hl] at ih; simpa using ih
      | cons line others => rw [hl] at ih; simpa using ih

theorem lines_append_newline (bytes rest : Bytes) :
    lines (bytes ++ newline :: rest)
      = (pieces (· = newline) bytes).map (· ++ [newline]) ++ lines rest := by
  induction bytes with
  | nil => exact lines_cons_newline rest
  | cons b bytes ih =>
    rw [pieces_cons, addToPieces.eq_def, List.cons_append, lines, ih]
    by_cases hb : b = newline
    · simp [hb]
    · obtain ⟨piece, others, hp⟩ := List.exists_cons_of_ne_nil (pieces_ne_nil (· = newline) bytes)
      simp [hb, hp]

/-- Pieces with a line break behind each make up the bytes with a line break behind them. -/
theorem flatten_pieces (bytes : Bytes) :
    ((pieces (· = newline) bytes).map (· ++ [newline])).flatten = bytes ++ [newline] := by
  induction bytes with
  | nil => rfl
  | cons b bytes ih =>
    rw [pieces_cons, addToPieces.eq_def]
    by_cases hb : b = newline
    · simp [hb, ih]
    · obtain ⟨piece, others, hp⟩ := List.exists_cons_of_ne_nil (pieces_ne_nil (· = newline) bytes)
      rw [hp] at ih
      simpa [hb, hp] using ih

namespace Delivery

def contents : List Delivery → Bytes
  | [] => []
  | portion bytes :: rest => bytes ++ contents rest
  | interrupted :: rest | failed _ :: rest => contents rest

/-- No read fails for good; interruptions are tried again. -/
def FaultFree (deliveries : List Delivery) : Prop :=
  ∀ delivery ∈ deliveries, ∀ fault, delivery ≠ failed fault

def isSound : Delivery → Bool
  | portion _ | interrupted => true
  | failed _ => false

theorem isSound_iff {delivery : Delivery} :
    delivery.isSound = true ↔ ∀ fault, delivery ≠ failed fault := by
  cases delivery with
  | portion bytes => exact iff_of_true rfl fun _ h => nomatch h
  | interrupted => exact iff_of_true rfl fun _ h => nomatch h
  | failed fault => exact iff_of_false Bool.false_ne_true fun h => h fault rfl

instance (deliveries : List Delivery) : Decidable (FaultFree deliveries) :=
  decidable_of_iff (∀ delivery ∈ deliveries, delivery.isSound = true)
    ⟨fun h d hd => isSound_iff.mp (h d hd), fun h d hd => isSound_iff.mpr (h d hd)⟩

theorem FaultFree.tail {delivery : Delivery} {rest : List Delivery}
    (h : FaultFree (delivery :: rest)) :
    FaultFree rest :=
  fun d hd => h d (List.mem_cons_of_mem _ hd)

theorem FaultFree.cons {delivery : Delivery} {rest : List Delivery}
    (hd : ∀ fault, delivery ≠ failed fault)
    (h : FaultFree rest) : FaultFree (delivery :: rest) := by
  intro d hmem
  rcases List.mem_cons.mp hmem with rfl | hmem
  · exact hd
  · exact h d hmem

theorem faultFree_portion (bytes : Bytes) : FaultFree [portion bytes] :=
  FaultFree.cons (fun _ h => nomatch h) (fun _ h => absurd h List.not_mem_nil)

@[simp] theorem contents_portion (bytes : Bytes) : contents [portion bytes] = bytes :=
  List.append_nil bytes

theorem readLineAfter_portion {bytes : Bytes} (h : newline ∉ bytes) (read : Bytes)
    (rest : List Delivery) :
    readLineAfter read (portion bytes :: rest) = readLineAfter (bytes.reverse ++ read) rest := by
  have ht := List.takeWhile_eq_self_iff.mpr (all_ne_newline h)
  have hd := List.dropWhile_eq_nil_iff.mpr (all_ne_newline h)
  rw [readLineAfter, hd, ht, List.reverseAux_eq]

theorem readLineAfter_portion_newline {bytes : Bytes} (h : newline ∉ bytes) (read after : Bytes)
    (rest : List Delivery) :
    readLineAfter read (portion (bytes ++ newline :: after) :: rest)
      = (.line (read.reverse ++ (bytes ++ [newline])), portion after :: rest) := by
  rw [readLineAfter, List.takeWhile_append_of_pos (all_ne_newline h),
    List.dropWhile_append_of_pos (all_ne_newline h)]
  simp

theorem readLineAfter_faultFree {deliveries : List Delivery} (h : FaultFree deliveries)
    (read : Bytes) :
    ∃ rest, readLineAfter read deliveries
        = (.line (read.reverse ++ firstLine (contents deliveries)), rest) ∧
      FaultFree rest ∧ contents rest = afterFirstLine (contents deliveries) := by
  induction deliveries generalizing read with
  | nil => exact ⟨[], by simp [readLineAfter, contents, firstLine], h, rfl⟩
  | cons delivery deliveries ih =>
    cases delivery with
    | interrupted => exact ih h.tail read
    | failed fault => exact absurd rfl (h _ List.mem_cons_self fault)
    | portion bytes =>
      rw [contents]
      by_cases hb : newline ∈ bytes
      · obtain ⟨front, after, rfl, hf⟩ := List.eq_append_cons_of_mem hb
        rw [List.append_assoc, List.cons_append, firstLine_append_newline hf,
          afterFirstLine_append_newline hf]
        refine ⟨_, readLineAfter_portion_newline hf read after deliveries, .cons ?_ h.tail, rfl⟩
        intro fault hp
        cases hp
      · obtain ⟨rest, hr, hf, hc⟩ := ih h.tail (bytes.reverse ++ read)
        refine ⟨rest, ?_, hf, ?_⟩
        · rw [readLineAfter_portion hb, hr, firstLine_append hb]
          simp
        · rw [hc, afterFirstLine_append hb]

/-- A line that is read is the first line of the bytes to come, and what it leaves is what comes
behind it. -/
theorem readLine_faultFree {deliveries : List Delivery} (h : FaultFree deliveries) :
    ∃ rest, readLine deliveries = (.line (firstLine (contents deliveries)), rest) ∧
      FaultFree rest ∧ contents rest = afterFirstLine (contents deliveries) :=
  readLineAfter_faultFree h []

/-- A line that is read is whole, or it is the last one. -/
def IsLine (line : Bytes) (rest : List Delivery) : Prop :=
  (∃ front, newline ∉ front ∧ line = front ++ [newline]) ∨ newline ∉ line ∧ rest = []

theorem isLine_of_readLineAfter {deliveries rest : List Delivery} {read line : Bytes}
    (hread : newline ∉ read) (h : readLineAfter read deliveries = (.line line, rest)) :
    IsLine line rest := by
  induction deliveries generalizing read with
  | nil =>
    cases h
    exact .inr ⟨by simpa using hread, rfl⟩
  | cons delivery deliveries ih =>
    cases delivery with
    | interrupted => exact ih hread h
    | failed fault => cases h
    | portion bytes =>
      by_cases hb : newline ∈ bytes
      · obtain ⟨front, after, rfl, hfront⟩ := List.eq_append_cons_of_mem hb
        rw [readLineAfter_portion_newline hfront] at h
        cases h
        refine .inl ⟨read.reverse ++ front, ?_, (List.append_assoc _ _ _).symm⟩
        simp only [List.mem_append, List.mem_reverse, not_or]
        exact ⟨hread, hfront⟩
      · rw [readLineAfter_portion hb] at h
        refine ih ?_ h
        simp only [List.mem_append, List.mem_reverse, not_or]
        exact ⟨hb, hread⟩

theorem isLine_of_readLine {deliveries rest : List Delivery} {line : Bytes}
    (h : readLine deliveries = (.line line, rest)) : IsLine line rest :=
  isLine_of_readLineAfter List.not_mem_nil h

end Delivery

end TrafficReplay
