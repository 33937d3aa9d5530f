/-
# Readings of a stream without faults

`Framing.cut` says what a capture holds in terms of its lines alone: each separator line ends a
record, and what stands behind the last one belongs to none. Reading a stream without faults to its
end gives just that (`Framing.readings_faultFree`), so the same bytes give the same records however
they are handed over (`Framing.readings_eq_of_contents_eq`).
-/
import TrafficReplay.Proofs.Record.Lines
import TrafficReplay.Record.Framing

namespace TrafficReplay

def RecordReading.raw? : RecordReading → Option Bytes
  | record raw => some raw
  | ended _ | fault _ => none

namespace Framing

/-- What a row of lines holds; `read` stands in front of them and belongs to the first record. -/
def cut (read : Bytes) : List Bytes → List RecordReading
  | [] => [.ended read.length]
  | line :: rest =>
    if isSeparatorLine line then .record (withoutFinalBreak read) :: cut [] rest
    else cut (read ++ line) rest

/-! ## Reading, one line and one record at a time -/

section Reading

variable {deliveries rest : List Delivery} {read : Bytes}

theorem readRecordAfter_of_end (h : Delivery.readLine deliveries = (.line [], rest)) :
    readRecordAfter read deliveries = (.ended read.length, rest) := by
  rw [readRecordAfter]
  split <;> simp_all

theorem readRecordAfter_of_fault {fault : Fault}
    (h : Delivery.readLine deliveries = (.fault fault, rest)) :
    readRecordAfter read deliveries = (.fault fault, rest) := by
  rw [readRecordAfter]
  split <;> simp_all

theorem readRecordAfter_of_line {b : UInt8} {line : Bytes}
    (h : Delivery.readLine deliveries = (.line (b :: line), rest)) :
    readRecordAfter read deliveries =
      if isSeparatorLine (b :: line) then
        (.record (if read.head? = some newline then read.tail else read).reverse, rest)
      else readRecordAfter ((b :: line).reverseAux read) rest := by
  rw [readRecordAfter]
  split
  · simp_all
  · simp_all
  · next hl =>
    rw [h] at hl
    cases hl
    rfl

theorem readRecord_empty : readRecord [.portion []] = (.ended 0, []) :=
  readRecordAfter_of_end rfl

theorem readings_of_record {raw : Bytes} (h : readRecord deliveries = (.record raw, rest)) :
    readings deliveries = .record raw :: readings rest := by
  rw [readings]
  split <;> simp_all

theorem readings_of_fault {fault : Fault} (h : readRecord deliveries = (.fault fault, rest)) :
    readings deliveries = .fault fault :: readings rest := by
  rw [readings]
  split <;> simp_all

theorem readings_of_ended {discarded : Nat} (h : readRecord deliveries = (.ended discarded, rest)) :
    readings deliveries = [.ended discarded] := by
  rw [readings]
  split <;> simp_all

end Reading

/-! ## Reading without faults -/

/-- What was read before a separator is turned round and loses the line break at its end. -/
theorem reverse_withoutBreak (read : Bytes) :
    (if read.head? = some newline then read.tail else read).reverse
      = withoutFinalBreak read.reverse := by
  rw [withoutFinalBreak, List.getLast?_reverse, List.dropLast_reverse]
  split <;> rfl

/-- Reading one record is cutting up to the first separator line: the reading comes first, and the
rest of the stream holds the rest. -/
theorem readRecordAfter_faultFree {deliveries : List Delivery} (h : Delivery.FaultFree deliveries)
    (read : Bytes) :
    ∃ reading rest, readRecordAfter read deliveries = (reading, rest) ∧ Delivery.FaultFree rest ∧
      ((∃ raw, reading = .record raw ∧
          cut read.reverse (lines (Delivery.contents deliveries))
            = .record raw :: cut [] (lines (Delivery.contents rest))) ∨
        (∃ discarded, reading = .ended discarded ∧
          cut read.reverse (lines (Delivery.contents deliveries)) = [.ended discarded])) := by
  obtain ⟨rest, hl, hf, hc⟩ := Delivery.readLine_faultFree h
  by_cases hb : Delivery.contents deliveries = []
  · -- the stream is at its end
    rw [firstLine_eq_nil_iff.mpr hb] at hl
    refine ⟨_, rest, readRecordAfter_of_end hl, hf, .inr ⟨read.length, rfl, ?_⟩⟩
    rw [hb, lines_nil, cut, List.length_reverse]
  · have hne : firstLine (Delivery.contents deliveries) ≠ [] :=
      fun e => hb (firstLine_eq_nil_iff.mp e)
    obtain ⟨b, line, hline⟩ := List.exists_cons_of_ne_nil hne
    rw [lines_eq_cons hb, ← hc, hline, cut]
    rw [hline] at hl
    rw [readRecordAfter_of_line hl]
    by_cases hs : isSeparatorLine (b :: line) = true
    · rw [if_pos hs, if_pos hs, reverse_withoutBreak]
      exact ⟨_, rest, rfl, hf, .inl ⟨_, rfl, rfl⟩⟩
    · rw [if_neg hs, if_neg hs]
      obtain ⟨reading, rest', hr, hf', hcut⟩ :=
        readRecordAfter_faultFree hf ((b :: line).reverseAux read)
      refine ⟨reading, rest', hr, hf', ?_⟩
      rwa [List.reverseAux_eq, List.reverse_append, List.reverse_reverse] at hcut
termination_by Delivery.remaining deliveries
decreasing_by
  have hlt := Delivery.remaining_readLine_of_line hl
  rw [hline, List.length_cons] at hlt
  omega

/-- **A stream without faults gives what its lines hold.** -/
theorem readings_faultFree {deliveries : List Delivery} (h : Delivery.FaultFree deliveries) :
    readings deliveries = cut [] (lines (Delivery.contents deliveries)) := by
  obtain ⟨reading, rest, hr, hf, hcut⟩ := readRecordAfter_faultFree h []
  rcases hcut with ⟨raw, rfl, hcut⟩ | ⟨discarded, rfl, hcut⟩
  · rw [readings_of_record hr, readings_faultFree hf]
    exact hcut.symm
  · rw [readings_of_ended hr]
    exact hcut.symm
termination_by Delivery.remaining deliveries
decreasing_by exact remaining_readRecord hr (fun _ h => nomatch h)

theorem readings_eq_of_contents_eq {deliveries others : List Delivery}
    (h : Delivery.FaultFree deliveries)
    (h' : Delivery.FaultFree others)
    (hc : Delivery.contents deliveries = Delivery.contents others) :
    readings deliveries = readings others := by
  rw [readings_faultFree h, readings_faultFree h', hc]

theorem filterMap_readings {deliveries : List Delivery} (h : Delivery.FaultFree deliveries) :
    (readings deliveries).filterMap RecordReading.raw? = split (Delivery.contents deliveries) := by
  have hp := Delivery.faultFree_portion (Delivery.contents deliveries)
  rw [readings_eq_of_contents_eq h hp (Delivery.contents_portion _).symm]
  rfl

theorem length_filterMap_cut (read : Bytes) (rows : List Bytes) :
    ((cut read rows).filterMap RecordReading.raw?).length = rows.countP isSeparatorLine := by
  induction rows generalizing read with
  | nil => rfl
  | cons line rows ih =>
    rw [cut]
    by_cases hs : isSeparatorLine line = true
    · rw [if_pos hs, List.countP_cons_of_pos hs, ← ih []]
      rfl
    · rw [if_neg hs, List.countP_cons_of_neg hs, ih]

end Framing

end TrafficReplay
