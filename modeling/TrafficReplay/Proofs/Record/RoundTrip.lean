/-
# Framing and reading back

Records that are framed one after the other come back unchanged if, and only if, none of them has a
line that reads as a separator. One direction follows the framed lines; the other counts them: a
separator line inside a record ends one record too many.
-/
import TrafficReplay.Proofs.Record.Readings

namespace TrafficReplay.Framing

/-- The lines of a record between its line breaks; what stands behind the last one counts, even if
it is empty. -/
def payloadLines (payload : Bytes) : List Bytes :=
  pieces (· = newline) payload

theorem withoutFinalBreak_append_newline (bytes : Bytes) :
    withoutFinalBreak (bytes ++ [newline]) = bytes := by
  rw [withoutFinalBreak, List.getLast?_concat, if_pos rfl, List.dropLast_concat]

theorem isSeparatorLine_append_newline (bytes : Bytes) :
    isSeparatorLine (bytes ++ [newline]) = decide (bytes = separator) := by
  rw [isSeparatorLine, withoutFinalBreak_append_newline]

theorem lines_frame (payload rest : Bytes) :
    lines (frame payload ++ rest)
      = (payloadLines payload).map (· ++ [newline]) ++ (separator ++ [newline]) :: lines rest := by
  have hsplit : frame payload ++ rest = payload ++ newline :: (separator ++ newline :: rest) := by
    simp [frame]
  have hsep : pieces (· = newline) separator = [separator] := rfl
  rw [hsplit, lines_append_newline, lines_append_newline, hsep]
  rfl

theorem cut_append {rows : List Bytes} (h : ∀ row ∈ rows, isSeparatorLine row = false)
    (read : Bytes)
    (more : List Bytes) : cut read (rows ++ more) = cut (read ++ rows.flatten) more := by
  induction rows generalizing read with
  | nil => simp
  | cons row rows ih =>
    have hrow := h row List.mem_cons_self
    have hrows : ∀ row ∈ rows, isSeparatorLine row = false :=
      fun r hr => h r (List.mem_cons_of_mem _ hr)
    rw [List.cons_append, cut, hrow, if_neg (by decide), ih hrows, List.flatten_cons,
      List.append_assoc]

theorem cut_frame {payload : Bytes} (h : separator ∉ payloadLines payload) (rest : Bytes) :
    cut [] (lines (frame payload ++ rest)) = .record payload :: cut [] (lines rest) := by
  have hrows : ∀ row ∈ (payloadLines payload).map (· ++ [newline]),
      isSeparatorLine row = false := by
    intro row hrow
    obtain ⟨piece, hp, rfl⟩ := List.mem_map.mp hrow
    rw [isSeparatorLine_append_newline]
    exact decide_eq_false fun e => h (e ▸ hp)
  have hsep : isSeparatorLine (separator ++ [newline]) = true := by
    rw [isSeparatorLine_append_newline]
    exact decide_eq_true rfl
  rw [lines_frame, cut_append hrows, payloadLines, flatten_pieces, List.nil_append, cut,
    if_pos hsep,
    withoutFinalBreak_append_newline]

theorem cut_frames {payloads : List Bytes}
    (h : ∀ payload ∈ payloads, separator ∉ payloadLines payload) :
    cut [] (lines (payloads.flatMap frame)) = payloads.map .record ++ [.ended 0] := by
  induction payloads with
  | nil => rfl
  | cons payload payloads ih =>
    have hp := h payload List.mem_cons_self
    have hps : ∀ p ∈ payloads, separator ∉ payloadLines p :=
      fun p hmem => h p (List.mem_cons_of_mem _ hmem)
    rw [List.flatMap_cons, cut_frame hp, ih hps]
    rfl

/-- Each framed record brings one separator line of its own, and those among its lines. -/
theorem countP_isSeparatorLine_frames (payloads : List Bytes) :
    (lines (payloads.flatMap frame)).countP isSeparatorLine
      = (payloads.map fun payload => (payloadLines payload).count separator).sum
        + payloads.length := by
  induction payloads with
  | nil => rfl
  | cons payload payloads ih =>
    have hrows : ((payloadLines payload).map (· ++ [newline])).countP isSeparatorLine
        = (payloadLines payload).count separator := by
      rw [List.countP_map, List.count]
      refine List.countP_congr fun piece _ => ?_
      rw [Function.comp_apply, isSeparatorLine_append_newline]
      simp
    have hsep : isSeparatorLine (separator ++ [newline]) = true := by
      rw [isSeparatorLine_append_newline]
      exact decide_eq_true rfl
    rw [List.flatMap_cons, lines_frame, List.countP_append, hrows, List.countP_cons_of_pos hsep, ih]
    simp only [List.map_cons, List.sum_cons, List.length_cons]
    omega

/-- **Framed records come back exactly when none of them holds a separator line**, however the
stream hands its bytes over: all of them, unchanged and in order, then the end, with nothing left
over. -/
theorem readings_frames_iff {deliveries : List Delivery} {payloads : List Bytes}
    (h : Delivery.FaultFree deliveries)
    (hc : Delivery.contents deliveries = payloads.flatMap frame) :
    readings deliveries = payloads.map .record ++ [.ended 0]
      ↔ ∀ payload ∈ payloads, separator ∉ payloadLines payload := by
  rw [readings_faultFree h, hc]
  constructor
  · intro heq payload hmem
    have hcount := length_filterMap_cut [] (lines (payloads.flatMap frame))
    have hback : (payloads.map RecordReading.record ++ [RecordReading.ended 0]).filterMap
        RecordReading.raw? = payloads := by
      rw [List.filterMap_append, List.filterMap_map]
      exact (List.append_nil _).trans List.filterMap_some
    rw [heq, hback, countP_isSeparatorLine_frames] at hcount
    have hsum : (payloads.map fun payload => (payloadLines payload).count separator).sum = 0 := by
      omega
    have hzero := List.sum_eq_zero_iff_forall_eq_nat.mp hsum _ (List.mem_map_of_mem hmem)
    exact List.count_eq_zero.mp hzero
  · exact cut_frames

/-- A line break at the end, an empty record and a separator followed by a carriage return all come
back. -/
theorem readings_frames_of_near_separators :
    readings [.portion (frame [0x61, newline] ++ frame []), .interrupted,
        .portion (frame (separator ++ [0x0D]))]
      = [[0x61, newline], [], separator ++ [0x0D]].map .record ++ [.ended 0] :=
  (readings_frames_iff (by decide) (by decide)).mpr (by decide)

end TrafficReplay.Framing
