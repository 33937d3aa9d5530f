/-
# The normal form of a capture

Reading a stream loses what no separator line ends, and a separator line with nothing in front of it
comes back as one with an empty line in front. `Framing.Canonical` says of a capture that nothing of
this occurs in it. What a stream gives can always be framed and read again without a change, and
framing it makes the bytes of the stream themselves just when these are canonical
(`Framing.readings_normal_form`).

The proof follows `Framing.cut` line by line. `Gathered` is what the bytes in front of a line are at
any time: whole lines, and no separator among them. To be canonical is then a matter of neighbouring
lines, as though one more separator line stood in front of them all (`canonical_iff_isChain`).
-/
import TrafficReplay.Proofs.Record.RoundTrip

namespace TrafficReplay

namespace Framing

def separatorLine : Bytes :=
  separator ++ [newline]

/-- A capture as framing writes it: it is empty or ends with a separator line, line break included,
and each of its separator lines stands directly behind a line that is none. -/
structure Canonical (capture : Bytes) : Prop where
  ends : capture = [] ∨ (lines capture).getLast? = some separatorLine
  preceded : ∀ n line, (lines capture)[n]? = some line → isSeparatorLine line = true →
    ∃ m before, n = m + 1 ∧ (lines capture)[m]? = some before ∧ isSeparatorLine before = false

/-- A line may follow another unless both are separator lines. -/
def MayFollow (before line : Bytes) : Prop :=
  isSeparatorLine line = true → isSeparatorLine before = false

instance (before line : Bytes) : Decidable (MayFollow before line) :=
  inferInstanceAs (Decidable (_ → _))

theorem isSeparatorLine_separatorLine : isSeparatorLine separatorLine = true := by
  rw [separatorLine, isSeparatorLine_append_newline]
  exact decide_eq_true rfl

theorem getLast?_eq_separatorLine_iff {rows : List Bytes} :
    (separatorLine :: rows).getLast? = some separatorLine
      ↔ rows = [] ∨ rows.getLast? = some separatorLine := by
  cases rows with
  | nil => simp
  | cons row rows => simp [List.getLast?_cons_cons]

theorem lines_eq_nil_iff {bytes : Bytes} : lines bytes = [] ↔ bytes = [] := by
  constructor
  · intro h
    rw [← flatten_lines bytes, h, List.flatten_nil]
  · intro h
    rw [h, lines_nil]

/-- To be canonical is a matter of neighbouring lines, one more separator line being put in
front. -/
theorem canonical_iff_isChain {capture : Bytes} :
    Canonical capture ↔ (separatorLine :: lines capture).IsChain MayFollow ∧
      (separatorLine :: lines capture).getLast? = some separatorLine := by
  rw [getLast?_eq_separatorLine_iff, lines_eq_nil_iff, List.isChain_iff_getElem]
  constructor
  · intro h
    refine ⟨fun n hn hs => ?_, h.ends⟩
    rw [List.length_cons, Nat.add_lt_add_iff_right] at hn
    obtain ⟨m, before, rfl, hm, hb⟩ := h.preceded n _ (List.getElem?_eq_getElem hn) hs
    rw [List.getElem_cons_succ]
    obtain ⟨_, rfl⟩ := List.getElem?_eq_some_iff.mp hm
    exact hb
  · intro h
    refine ⟨h.2, fun n line hn hs => ?_⟩
    obtain ⟨hlt, rfl⟩ := List.getElem?_eq_some_iff.mp hn
    have hb := h.1 n (by simpa using hlt) hs
    cases n with
    | zero =>
      rw [List.getElem_cons_zero, isSeparatorLine_separatorLine] at hb
      cases hb
    | succ m =>
      rw [List.getElem_cons_succ] at hb
      exact ⟨m, _, rfl, List.getElem?_eq_getElem (by omega), hb⟩

instance (capture : Bytes) : Decidable (Canonical capture) :=
  decidable_of_iff _ canonical_iff_isChain.symm

/-! ## What stands in front of a separator line -/

theorem payloadLines_append_newline (front rest : Bytes) :
    payloadLines (front ++ newline :: rest) = payloadLines front ++ payloadLines rest :=
  @pieces_append_cons _ (· = newline) newline (decide_eq_true rfl) front rest

theorem payloadLines_eq_singleton {line : Bytes} (h : newline ∉ line) :
    payloadLines line = [line] := by
  refine pieces_eq_singleton fun b hb => decide_eq_false ?_
  rintro rfl
  exact h hb

/-- Whole lines, one behind the other, and none of them a separator. -/
inductive Gathered : Bytes → Prop
  | nil : Gathered []
  | line {read line : Bytes} : Gathered read → newline ∉ line → line ≠ separator →
      Gathered (read ++ (line ++ [newline]))

theorem Gathered.not_mem_append {read line : Bytes} (h : Gathered read) (hn : newline ∉ line)
    (hs : line ≠ separator) : separator ∉ payloadLines (read ++ line) := by
  induction h generalizing line with
  | nil =>
    rw [List.nil_append, payloadLines_eq_singleton hn, List.mem_singleton]
    exact Ne.symm hs
  | @line read other _ hn' hs' ih =>
    have hsplit : read ++ (other ++ [newline]) ++ line = (read ++ other) ++ newline :: line := by
      simp
    rw [hsplit, payloadLines_append_newline, payloadLines_eq_singleton hn, List.mem_append,
      List.mem_singleton]
    rintro (hmem | rfl)
    · exact ih hn' hs' hmem
    · exact hs rfl

theorem Gathered.not_mem {read : Bytes} (h : Gathered read) :
    separator ∉ payloadLines (withoutFinalBreak read) := by
  cases h with
  | nil => decide
  | line h hn hs =>
    rw [← List.append_assoc, withoutFinalBreak_append_newline]
    exact h.not_mem_append hn hs

theorem Gathered.frame_eq {read : Bytes} (h : Gathered read) (hne : read ≠ []) :
    frame (withoutFinalBreak read) = read ++ separatorLine := by
  cases h with
  | nil => exact absurd rfl hne
  | line h hn hs =>
    rw [← List.append_assoc, withoutFinalBreak_append_newline, frame, separatorLine]
    simp

/-! ## The records of a row of lines -/

def rawsOf (readings : List RecordReading) : List Bytes :=
  readings.filterMap RecordReading.raw?

@[simp] theorem rawsOf_cons_record (raw : Bytes) (readings : List RecordReading) :
    rawsOf (.record raw :: readings) = raw :: rawsOf readings := rfl

@[simp] theorem rawsOf_ended (discarded : Nat) : rawsOf [.ended discarded] = [] := rfl

theorem rawsOf_records (raws : List Bytes) (discarded : Nat) :
    rawsOf (raws.map .record ++ [.ended discarded]) = raws := by
  induction raws with
  | nil => rfl
  | cons raw raws ih => exact congrArg (raw :: ·) ih

theorem cut_eq_rawsOf (read : Bytes) (rows : List Bytes) :
    ∃ discarded, cut read rows = (rawsOf (cut read rows)).map .record ++ [.ended discarded] := by
  induction rows generalizing read with
  | nil => exact ⟨read.length, rfl⟩
  | cons line rows ih =>
    rw [cut]
    split
    · obtain ⟨discarded, hd⟩ := ih []
      exact ⟨discarded, congrArg (RecordReading.record _ :: ·) hd⟩
    · exact ih _

theorem not_mem_of_mem_cut {rows : List Bytes} (h : Lined rows) {read : Bytes}
    (hg : Gathered read) :
    ∀ raw ∈ rawsOf (cut read rows), separator ∉ payloadLines raw := by
  intro raw hraw
  induction h generalizing read with
  | nil => cases hraw
  | @tail line _ _ =>
    rw [cut] at hraw
    split at hraw
    · rw [List.mem_singleton.mp hraw]
      exact hg.not_mem
    · cases hraw
  | @row line rest hn _ ih =>
    rw [cut, isSeparatorLine_append_newline] at hraw
    by_cases hs : line = separator
    · rw [if_pos (decide_eq_true hs)] at hraw
      rcases List.mem_cons.mp hraw with rfl | hraw
      · exact hg.not_mem
      · exact ih .nil hraw
    · rw [if_neg (by simpa using hs)] at hraw
      exact ih (.line hg hn hs) hraw

theorem getLast?_ne_newline {front line : Bytes} (hne : line ≠ []) (hn : newline ∉ line) :
    (front ++ line).getLast? ≠ some newline := by
  rw [List.getLast?_append_of_ne_nil _ hne]
  intro h
  exact hn (List.mem_of_getLast? h)

theorem not_mayFollow_separatorLine {line : Bytes} (h : isSeparatorLine line = true) :
    ¬MayFollow separatorLine line := by
  intro hm
  have hb := hm h
  rw [isSeparatorLine_separatorLine] at hb
  cases hb

theorem flatMap_frame_cut_tail_ne {line : Bytes} (hne : line ≠ []) (hn : newline ∉ line)
    (read : Bytes) : (rawsOf (cut read [line])).flatMap frame ≠ read ++ line := by
  intro h
  have hlast := @getLast?_ne_newline read line hne hn
  rw [cut] at h
  split at h
  · rw [cut, rawsOf_cons_record, rawsOf_ended, List.flatMap_singleton] at h
    rw [← h, frame, List.getLast?_concat] at hlast
    exact hlast rfl
  · rw [cut, rawsOf_ended, List.flatMap_nil] at h
    exact hne (List.append_eq_nil_iff.mp h.symm).2

/-- Framing the records of some lines anew makes these lines again just when separator lines stand
where they should; `before` is the line in front of them. -/
theorem flatMap_frame_cut_iff {rows : List Bytes} (h : Lined rows) {read before : Bytes}
    (hg : Gathered read)
    (hb : read = [] ∧ before = separatorLine ∨ read ≠ [] ∧ isSeparatorLine before = false) :
    (rawsOf (cut read rows)).flatMap frame = read ++ rows.flatten
      ↔ (before :: rows).IsChain MayFollow ∧ (before :: rows).getLast? = some separatorLine := by
  induction h generalizing read before with
  | nil =>
    rw [cut, rawsOf_ended, List.flatMap_nil, List.flatten_nil, List.append_nil]
    rcases hb with ⟨rfl, rfl⟩ | ⟨hne, hb⟩
    · exact iff_of_true rfl ⟨.singleton _, rfl⟩
    · refine iff_of_false (Ne.symm hne) fun hc => ?_
      have hbefore : before = separatorLine := Option.some.inj hc.2
      rw [hbefore, isSeparatorLine_separatorLine] at hb
      cases hb
  | @tail line hne hn =>
    refine iff_of_false ?_ fun hc => ?_
    · rw [List.flatten_singleton]
      exact flatMap_frame_cut_tail_ne hne hn read
    · rw [List.getLast?_cons_cons] at hc
      have hline : line = separator ++ [newline] := Option.some.inj hc.2
      rw [hline] at hn
      exact hn (List.mem_append_right _ List.mem_cons_self)
  | @row line rest hn hrest ih =>
    rw [List.isChain_cons_cons, List.getLast?_cons_cons, cut, isSeparatorLine_append_newline,
      List.flatten_cons]
    by_cases hs : line = separator
    · rw [if_pos (decide_eq_true hs), rawsOf_cons_record, List.flatMap_cons, hs, ← separatorLine]
      have hnext := ih .nil (.inl ⟨rfl, rfl⟩)
      rw [List.nil_append] at hnext
      rcases hb with ⟨rfl, rfl⟩ | ⟨hne, hb⟩
      · -- framing writes a line break, and the separator comes behind it
        refine iff_of_false (fun e => ?_) fun hc => ?_
        · cases congrArg List.head? e
        · exact not_mayFollow_separatorLine isSeparatorLine_separatorLine hc.1.1
      · have hmay : MayFollow before separatorLine := fun _ => hb
        rw [hg.frame_eq hne, List.append_assoc, List.append_cancel_left_eq,
          List.append_cancel_left_eq, hnext]
        simp only [hmay, true_and]
    · have hline : isSeparatorLine (line ++ [newline]) = false := by
        rw [isSeparatorLine_append_newline]
        exact decide_eq_false hs
      have hmay : MayFollow before (line ++ [newline]) := by
        intro h
        rw [hline] at h
        cases h
      have hnext := ih (.line hg hn hs) (.inr ⟨by simp, hline⟩)
      rw [List.append_assoc] at hnext
      rw [if_neg (by simpa using hs), hnext]
      simp only [hmay, true_and]

/-! ## The normal form -/

theorem split_eq_rawsOf (bytes : Bytes) : split bytes = rawsOf (cut [] (lines bytes)) := by
  have h := readings_faultFree (Delivery.faultFree_portion bytes)
  rw [Delivery.contents_portion] at h
  rw [← h]
  rfl

theorem not_mem_of_mem_split {raw bytes : Bytes} (h : raw ∈ split bytes) :
    separator ∉ payloadLines raw := by
  rw [split_eq_rawsOf] at h
  exact not_mem_of_mem_cut (lined_lines bytes) .nil raw h

theorem split_flatMap_frame {payloads : List Bytes}
    (h : ∀ payload ∈ payloads, separator ∉ payloadLines payload) :
    split (payloads.flatMap frame) = payloads := by
  rw [split_eq_rawsOf, cut_frames h, rawsOf_records]

theorem flatMap_frame_split_iff (bytes : Bytes) :
    (split bytes).flatMap frame = bytes ↔ Canonical bytes := by
  have hiff := flatMap_frame_cut_iff (lined_lines bytes) .nil (.inl ⟨rfl, rfl⟩)
  rw [flatten_lines, List.nil_append, ← split_eq_rawsOf] at hiff
  rw [hiff, canonical_iff_isChain]

/-- **What a stream gives is in normal form.** No record has a separator among its lines, so framing
the records and splitting them again gives them back; and framing them gives the bytes of the stream
back just when these are canonical. -/
theorem readings_normal_form {deliveries : List Delivery} {capture : Bytes}
    (h : Delivery.FaultFree deliveries) (hc : Delivery.contents deliveries = capture) :
    (∃ discarded,
      readings deliveries = (split capture).map .record ++ [.ended discarded]) ∧
    (∀ raw ∈ split capture, separator ∉ payloadLines raw) ∧
    split ((split capture).flatMap frame) = split capture ∧
    ((split capture).flatMap frame = capture ↔ Canonical capture) := by
  refine ⟨?_, fun raw hraw => not_mem_of_mem_split hraw, ?_, flatMap_frame_split_iff capture⟩
  · rw [readings_faultFree h, hc, split_eq_rawsOf]
    exact cut_eq_rawsOf [] _
  · exact split_flatMap_frame fun raw hraw => not_mem_of_mem_split hraw

/-- A capture with nothing in front of its first separator and with bytes behind its last one. -/
def garbledCapture : Bytes :=
  separatorLine ++ [0x61, newline] ++ separatorLine ++ [0x62]

/-- Two records come out of it, and framing them makes other bytes, which give the same two. -/
theorem readings_normal_form_of_garbled :
    split garbledCapture = [[], [0x61]] ∧
      (∀ raw ∈ split garbledCapture, separator ∉ payloadLines raw) ∧
      split ((split garbledCapture).flatMap frame) = split garbledCapture ∧
      (split garbledCapture).flatMap frame ≠ garbledCapture := by
  have hsound : Delivery.FaultFree [.portion separatorLine, .interrupted,
      .portion ([0x61, newline] ++ separatorLine ++ [0x62])] := by decide
  obtain ⟨-, hnone, hagain, hback⟩ :=
    readings_normal_form hsound (rfl : Delivery.contents _ = garbledCapture)
  exact ⟨by decide +kernel, hnone, hagain, fun h => absurd (hback.mp h) (by decide)⟩

end Framing

end TrafficReplay
