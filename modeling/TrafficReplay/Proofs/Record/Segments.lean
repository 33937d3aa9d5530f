/-
# Reading over faults

A fault cuts a stream into stretches that know nothing of each other. A stretch in front of a fault
gives its closed records, those whose separator line it holds together with the line break; what is
open in it is lost, a bare separator at its end included. Only the last stretch is read by the
ordinary rule (`Framing.readings_stretches`). So the bytes of a stream and the places of its faults
say all that reading gives, and portions and interruptions cannot be seen
(`Framing.answers_of_delivers`).

A line that a fault interrupts has no line break, so up to a fault only the whole lines of a stretch
are read. These carry the induction (`wholeLines`, `readRecordAfter_failed`), and they hold just its
closed records (`closedRecords_eq_rawsOf`).
-/
import TrafficReplay.Proofs.Delivery.Faults
import TrafficReplay.Proofs.Record.Concatenation

namespace TrafficReplay

def isWhole (row : Bytes) : Bool :=
  row.getLast? = some newline

def wholeLines (bytes : Bytes) : List Bytes :=
  (lines bytes).filter isWhole

theorem isWhole_append_newline (text : Bytes) : isWhole (text ++ [newline]) = true :=
  decide_eq_true List.getLast?_concat

theorem wholeLines_unbroken {bytes : Bytes} (h : newline ∉ bytes) : wholeLines bytes = [] := by
  by_cases hne : bytes = []
  · rw [hne]
    rfl
  · have hlast : ¬isWhole bytes = true := by
      intro hw
      exact h (List.mem_of_getLast? (of_decide_eq_true hw))
    rw [wholeLines, lines_unbroken hne h, List.filter_cons_of_neg hlast, List.filter_nil]

theorem wholeLines_eq_cons {bytes : Bytes} (h : newline ∈ bytes) :
    wholeLines bytes = firstLine bytes :: wholeLines (afterFirstLine bytes) := by
  obtain ⟨text, rest, rfl, hn⟩ := List.eq_append_cons_of_mem h
  rw [wholeLines, lines_eq_cons (List.ne_nil_of_mem h), firstLine_append_newline hn,
    afterFirstLine_append_newline hn, List.filter_cons_of_pos (isWhole_append_newline text)]
  rfl

theorem Lined.isWhole {rows more : List Bytes} (h : Lined (rows ++ more)) (hne : more ≠ []) :
    ∀ row ∈ rows, isWhole row = true := by
  induction rows with
  | nil => exact fun row hrow => absurd hrow List.not_mem_nil
  | cons first rows ih =>
    rw [List.cons_append] at h
    generalize hrest : rows ++ more = rest at h ih
    cases h with
    | tail _ _ => exact absurd (List.append_eq_nil_iff.mp hrest).2 hne
    | row hn hrow =>
      intro row hmem
      rcases List.mem_cons.mp hmem with rfl | hmem
      · exact isWhole_append_newline _
      · exact ih hrow row hmem

namespace Delivery

/-- Up to a fault, a line is read as ever if it is whole; otherwise the fault is met. -/
theorem readLineAfter_failed {before : List Delivery} (h : FaultFree before) (read : Bytes)
    (fault : Fault) (after : List Delivery) :
    (newline ∉ contents before ∧
      readLineAfter read (before ++ failed fault :: after) = (.fault fault, after)) ∨
    (newline ∈ contents before ∧ ∃ rest,
      readLineAfter read (before ++ failed fault :: after)
        = (.line (read.reverse ++ firstLine (contents before)), rest ++ failed fault :: after) ∧
      FaultFree rest ∧ contents rest = afterFirstLine (contents before)) := by
  induction before generalizing read with
  | nil => exact .inl ⟨List.not_mem_nil, rfl⟩
  | cons delivery before ih =>
    cases delivery with
    | interrupted => exact ih h.tail read
    | failed other => exact absurd rfl (h _ List.mem_cons_self other)
    | portion bytes =>
      rw [contents, List.cons_append]
      by_cases hb : newline ∈ bytes
      · obtain ⟨front, more, rfl, hf⟩ := List.eq_append_cons_of_mem hb
        rw [readLineAfter_portion_newline hf, List.append_assoc, List.cons_append,
          firstLine_append_newline hf, afterFirstLine_append_newline hf]
        refine .inr ⟨by simp, portion more :: before, rfl, .cons ?_ h.tail, rfl⟩
        intro other hp
        cases hp
      · rw [readLineAfter_portion hb, firstLine_append hb, afterFirstLine_append hb]
        rcases ih h.tail (bytes.reverse ++ read) with ⟨hn, hr⟩ | ⟨hn, rest, hr, hf, hc⟩
        · exact .inl ⟨by simp [hb, hn], hr⟩
        · exact .inr ⟨by simp [hn], rest, by simpa using hr, hf, hc⟩

end Delivery

namespace Framing

/-! ## The closed records of a stretch -/

theorem isWhole_of_mem_lines_closedPart {bytes row : Bytes} (h : row ∈ lines (closedPart bytes)) :
    isWhole row = true := by
  have hlined := lined_lines (closedPart bytes)
  rcases (parted bytes).complete with hnil | hlast
  · rw [hnil, lines_nil] at h
    cases h
  · obtain ⟨rows, hrows⟩ := List.getLast?_eq_some_iff.mp hlast
    rw [hrows] at h hlined
    rcases List.mem_append.mp h with hmem | hmem
    · exact hlined.isWhole (List.cons_ne_nil _ _) row hmem
    · rw [List.mem_singleton.mp hmem]
      exact isWhole_append_newline separator

theorem closedRecords_eq_rawsOf (bytes : Bytes) :
    closedRecords bytes = rawsOf (cut [] (wholeLines bytes)) := by
  have hparted := parted bytes
  have hopen : ∀ row ∈ (lines (openPart bytes)).filter isWhole, isSeparatorLine row = false := by
    intro row hrow
    obtain ⟨hmem, hlast⟩ := List.mem_filter.mp hrow
    refine Bool.eq_false_iff.mpr fun hs => ?_
    rcases isSeparatorLine_iff.mp hs with rfl | rfl
    · exact hparted.unclosed hmem
    · exact absurd hlast (by decide)
  have hlines : lines bytes = lines (closedPart bytes) ++ lines (openPart bytes) := by
    rw [← hparted.complete.lines_append, hparted.whole]
  have hcut := cut_append hopen [] []
  rw [List.append_nil] at hcut
  rw [wholeLines, hlines, List.filter_append,
    List.filter_eq_self.mpr fun row hrow => isWhole_of_mem_lines_closedPart hrow,
    cut_lines_append hparted.complete, rawsOf_append, hcut, cut, rawsOf_ended, List.append_nil]
  rfl

/-! ## Up to a fault -/

/-- Up to a fault, reading follows the whole lines; where these hold no separator line any more, the
fault is met, and only what comes behind it is left. -/
theorem readRecordAfter_failed {before : List Delivery} (h : Delivery.FaultFree before)
    (read : Bytes) (fault : Fault) (after : List Delivery) :
    (readRecordAfter read (before ++ .failed fault :: after) = (.fault fault, after) ∧
      rawsOf (cut read.reverse (wholeLines (Delivery.contents before))) = []) ∨
    ∃ raw rest,
      readRecordAfter read (before ++ .failed fault :: after)
        = (.record raw, rest ++ .failed fault :: after) ∧
      Delivery.FaultFree rest ∧
      rawsOf (cut read.reverse (wholeLines (Delivery.contents before)))
        = raw :: rawsOf (cut [] (wholeLines (Delivery.contents rest))) := by
  generalize hrows : wholeLines (Delivery.contents before) = rows
  induction rows generalizing before read with
  | nil =>
    rcases Delivery.readLineAfter_failed h [] fault after with ⟨hn, hl⟩ | ⟨hn, -⟩
    · exact .inl ⟨readRecordAfter_of_fault hl, rfl⟩
    · rw [wholeLines_eq_cons hn] at hrows
      cases hrows
  | cons row rows ih =>
    rcases Delivery.readLineAfter_failed h [] fault after with ⟨hn, -⟩ | ⟨hn, rest, hl, hf, hc⟩
    · rw [wholeLines_unbroken hn] at hrows
      cases hrows
    · rw [wholeLines_eq_cons hn, ← hc] at hrows
      obtain ⟨hrow, hrest⟩ := List.cons.inj hrows
      obtain ⟨b, line, hline⟩ := List.exists_cons_of_ne_nil
        (fun e => List.ne_nil_of_mem hn (firstLine_eq_nil_iff.mp e))
      rw [hline] at hl hrow
      rw [readRecordAfter_of_line hl, ← hrow, cut]
      by_cases hs : isSeparatorLine (b :: line) = true
      · rw [if_pos hs, if_pos hs, reverse_withoutBreak, ← hrest]
        exact .inr ⟨_, rest, rfl, hf, rfl⟩
      · rw [if_neg hs, if_neg hs]
        have hnext := ih hf ((b :: line).reverseAux read) hrest
        have hread : ((b :: line).reverseAux read).reverse = read.reverse ++ b :: line := by
          rw [List.reverseAux_eq, List.reverse_append, List.reverse_reverse]
        rwa [hread] at hnext

/-- **In front of a fault a stream gives its closed records, and behind it what it would give had it
begun there.** -/
theorem readings_failed {before : List Delivery} (h : Delivery.FaultFree before) (fault : Fault)
    (after : List Delivery) :
    readings (before ++ .failed fault :: after)
      = (closedRecords (Delivery.contents before)).map .record ++
          .fault fault :: readings after := by
  rw [closedRecords_eq_rawsOf]
  generalize hraws : rawsOf (cut [] (wholeLines (Delivery.contents before))) = raws
  induction raws generalizing before with
  | nil =>
    rcases readRecordAfter_failed h [] fault after with ⟨hr, -⟩ | ⟨raw, rest, -, -, hcut⟩
    · exact readings_of_fault hr
    · cases hraws.symm.trans hcut
  | cons raw raws ih =>
    rcases readRecordAfter_failed h [] fault after with ⟨-, hcut⟩ | ⟨raw', rest, hr, hf, hcut⟩
    · cases hraws.symm.trans hcut
    · obtain ⟨rfl, hrest⟩ := List.cons.inj (hraws.symm.trans hcut)
      rw [readings_of_record hr, ih hf hrest.symm]
      rfl

/-- What a stream gives up to a fault and with it does not depend on what comes behind. -/
theorem exists_readings_failed (before : List Delivery) (fault : Fault) :
    ∃ earlier, ∀ after,
      readings (before ++ .failed fault :: after) = earlier ++ .fault fault :: readings after := by
  induction before using Delivery.faults_induction with
  | free before hfree => exact ⟨_, fun after => readings_failed hfree fault after⟩
  | fault front other later hfree ih =>
    obtain ⟨earlier, hearlier⟩ := ih
    refine ⟨(closedRecords (Delivery.contents front)).map .record ++ .fault other :: earlier,
      fun after => ?_⟩
    rw [List.append_assoc, List.cons_append, readings_failed hfree, hearlier, List.append_assoc]
    rfl

/-! ## Stretch by stretch -/

/-- The bytes between the faults, from `start` on, each stretch with the fault that ends it. -/
def stretches (bytes : Bytes) (start : Nat) : List (Nat × Fault) → List (Bytes × Fault)
  | [] => []
  | (place, fault) :: later => (bytes.extract start place, fault) :: stretches bytes place later

/-- The bytes behind the last fault, or behind `start` if there is none. -/
def lastStretch (bytes : Bytes) (start : Nat) (faults : List (Nat × Fault)) : Bytes :=
  bytes.drop ((faults.map Prod.fst).getLastD start)

def ofStretch (stretch : Bytes × Fault) : List RecordReading :=
  (closedRecords stretch.1).map .record ++ [.fault stretch.2]

theorem ofStretch_append (bytes : Bytes) (fault : Fault) (more : List RecordReading) :
    ofStretch (bytes, fault) ++ more
      = (closedRecords bytes).map .record ++ .fault fault :: more := by
  rw [ofStretch, List.append_assoc, List.singleton_append]

theorem length_stretches (bytes : Bytes) (start : Nat) (faults : List (Nat × Fault)) :
    (stretches bytes start faults).length = faults.length := by
  induction faults generalizing start with
  | nil => rfl
  | cons p later ih => exact congrArg (· + 1) (ih p.1)

theorem lastStretch_cons (bytes : Bytes) (start : Nat) (p : Nat × Fault)
    (later : List (Nat × Fault)) :
    lastStretch bytes start (p :: later) = lastStretch bytes p.1 later := by
  rw [lastStretch, lastStretch, List.map_cons, List.getLastD_cons]

theorem flatten_stretches {bytes : Bytes} {start : Nat} {faults : List (Nat × Fault)}
    (hsorted : faults.Pairwise fun p q => p.1 ≤ q.1) (hstart : ∀ p ∈ faults, start ≤ p.1) :
    ((stretches bytes start faults).map Prod.fst).flatten ++ lastStretch bytes start faults
      = bytes.drop start := by
  induction faults generalizing start with
  | nil => rfl
  | cons p later ih =>
    obtain ⟨hfirst, hlater⟩ := List.pairwise_cons.mp hsorted
    have hp := hstart p List.mem_cons_self
    have hdrop : bytes.drop p.1 = (bytes.drop start).drop (p.1 - start) := by
      rw [List.drop_drop, Nat.add_sub_cancel' hp]
    rw [stretches, lastStretch_cons, List.map_cons, List.flatten_cons, List.append_assoc,
      ih hlater hfirst, hdrop, List.extract_eq_take_drop, List.take_append_drop]

theorem readings_behind (front : Bytes) (deliveries : List Delivery) :
    readings deliveries
      = (stretches (front ++ Delivery.contents deliveries) front.length
          (Delivery.faultsFrom front.length deliveries)).flatMap ofStretch
        ++ cut [] (lines (lastStretch (front ++ Delivery.contents deliveries) front.length
          (Delivery.faultsFrom front.length deliveries))) := by
  induction deliveries using Delivery.faults_induction generalizing front with
  | free deliveries hfree =>
    rw [Delivery.faultsFrom_of_faultFree hfree, readings_faultFree hfree, stretches, lastStretch,
      List.map_nil, List.getLastD_nil, List.drop_left]
    rfl
  | fault before fault after hfree ih =>
    have hcontents : front ++ Delivery.contents (before ++ .failed fault :: after)
        = front ++ Delivery.contents before ++ Delivery.contents after := by
      rw [Delivery.contents_append, Delivery.contents, List.append_assoc]
    have hstretch : (front ++ Delivery.contents before ++ Delivery.contents after).extract
        front.length (front.length + (Delivery.contents before).length)
        = Delivery.contents before := by
      rw [List.extract_eq_take_drop, List.append_assoc, List.drop_left, Nat.add_sub_cancel_left,
        List.take_left]
    have hafter := ih (front ++ Delivery.contents before)
    rw [List.length_append] at hafter
    rw [readings_failed hfree, hafter, hcontents, Delivery.faultsFrom_append hfree,
      Delivery.faultsFrom, stretches, lastStretch_cons, List.flatMap_cons, hstretch,
      List.append_assoc (ofStretch _), ofStretch_append]

theorem readings_of_delivers {deliveries : List Delivery} {bytes : Bytes}
    {faults : List (Nat × Fault)} (h : Delivery.Delivers deliveries bytes faults) :
    readings deliveries = (stretches bytes 0 faults).flatMap ofStretch
      ++ cut [] (lines (lastStretch bytes 0 faults)) := by
  have hreadings := readings_behind [] deliveries
  rwa [List.nil_append, List.length_nil, h.contents_eq, h.faults_eq] at hreadings

/-! ## How often a stream can be asked -/

theorem length_split (bytes : Bytes) :
    (split bytes).length = (lines bytes).countP isSeparatorLine := by
  rw [split_eq_rawsOf]
  exact length_filterMap_cut [] (lines bytes)

theorem length_closedRecords_le (bytes : Bytes) :
    (closedRecords bytes).length ≤ (lines bytes).countP isSeparatorLine := by
  have hparted := parted bytes
  rw [← hparted.whole, hparted.complete.lines_append, List.countP_append, hparted.whole,
    closedRecords, length_split]
  exact Nat.le_add_right _ _

theorem length_flatMap_ofStretch_le (stretches : List (Bytes × Fault)) :
    (stretches.flatMap ofStretch).length
      ≤ (stretches.map fun stretch => (lines stretch.1).countP isSeparatorLine).sum
        + stretches.length := by
  induction stretches with
  | nil => exact le_rfl
  | cons stretch stretches ih =>
    have hclosed := length_closedRecords_le stretch.1
    rw [List.flatMap_cons, List.length_append, ofStretch, List.length_append, List.length_map,
      List.length_singleton, List.map_cons, List.sum_cons, List.length_cons]
    omega

/-- **A fault cuts a stream cleanly.** Wherever faults come, the bytes between two of them are read
on their own and give their closed records; behind the last fault the ordinary rule holds. What
comes in front of a fault does not show behind it, and what comes behind it does not show in front.
-/
theorem readings_stretches {bytes : Bytes} {faults : List (Nat × Fault)}
    (hsorted : faults.Pairwise fun p q => p.1 ≤ q.1) (hwithin : ∀ p ∈ faults, p.1 ≤ bytes.length) :
    (∃ deliveries, Delivery.Delivers deliveries bytes faults) ∧
    ((stretches bytes 0 faults).map Prod.fst).flatten ++ lastStretch bytes 0 faults = bytes ∧
    ∀ deliveries, Delivery.Delivers deliveries bytes faults →
      (∃ places discarded,
        Layout (lastStretch bytes 0 faults) places (split (lastStretch bytes 0 faults)) discarded ∧
        readings deliveries = (stretches bytes 0 faults).flatMap ofStretch
          ++ (split (lastStretch bytes 0 faults)).map .record ++ [.ended discarded]) ∧
      (∀ times, (readTimes times deliveries).value
        = (readings deliveries ++ List.replicate times (RecordReading.ended 0)).take times) ∧
      (readings deliveries).length
        ≤ ((stretches bytes 0 faults).map fun stretch =>
            (lines stretch.1).countP isSeparatorLine).sum
          + (lines (lastStretch bytes 0 faults)).countP isSeparatorLine + faults.length + 1 ∧
      ∀ before fault after, deliveries = before ++ .failed fault :: after →
        ∃ earlier, readings deliveries = earlier ++ .fault fault :: readings after ∧
          ∀ later, readings (before ++ .failed fault :: later)
            = earlier ++ .fault fault :: readings later := by
  refine ⟨⟨_, Delivery.delivers_scheduled 1 hsorted hwithin⟩,
    flatten_stretches hsorted fun p _ => Nat.zero_le p.1, fun deliveries h => ?_⟩
  obtain ⟨places, raws, discarded, hlayout, hcut⟩ := exists_layout (lastStretch bytes 0 faults)
  have hraws : raws = split (lastStretch bytes 0 faults) := by
    rw [split_eq_rawsOf, hcut, rawsOf_records]
  subst hraws
  have hreadings := readings_of_delivers h
  rw [hcut, ← List.append_assoc] at hreadings
  refine ⟨⟨places, discarded, hlayout, hreadings⟩, fun times => value_readTimes times deliveries,
    ?_, ?_⟩
  · have hstretches := length_flatMap_ofStretch_le (stretches bytes 0 faults)
    rw [length_stretches] at hstretches
    rw [hreadings, List.length_append, List.length_append, List.length_map, length_split,
      List.length_singleton]
    omega
  · rintro before fault after rfl
    obtain ⟨earlier, hearlier⟩ := exists_readings_failed before fault
    exact ⟨earlier, hearlier after, hearlier⟩

/-- A capture of three records, the last of which ends with a bare separator. -/
def brokenCapture : Bytes :=
  [0x61, newline] ++ separatorLine ++ [0x62, newline] ++ separatorLine ++ [0x63, newline] ++
    separator

/-- Two faults between the first separator and its line break lose the first record and leave the
line break to the second; a third one, behind the second separator line, loses nothing. -/
theorem readings_stretches_of_broken :
    ∃ discarded, readings [.portion [0x61], .interrupted, .portion (newline :: separator),
        .failed .corruptData, .interrupted, .failed .incompleteData,
        .portion ([newline, 0x62, newline] ++ separator), .portion [newline],
        .failed .corruptData, .portion ([0x63, newline] ++ separator)]
      = [.fault .corruptData, .fault .incompleteData, .record [newline, 0x62], .fault .corruptData,
          .record [0x63], .ended discarded] := by
  obtain ⟨-, -, hall⟩ := @readings_stretches brokenCapture
    [(14, .corruptData), (14, .incompleteData), (30, .corruptData)] (by decide) (by decide)
  obtain ⟨⟨places, discarded, -, hreadings⟩, -⟩ := hall [.portion [0x61], .interrupted,
    .portion (newline :: separator), .failed .corruptData, .interrupted, .failed .incompleteData,
    .portion ([newline, 0x62, newline] ++ separator), .portion [newline], .failed .corruptData,
    .portion ([0x63, newline] ++ separator)] (by decide)
  have hstretches : (stretches brokenCapture 0
      [(14, .corruptData), (14, .incompleteData), (30, .corruptData)]).flatMap ofStretch
      = [.fault .corruptData, .fault .incompleteData, .record [newline, 0x62],
          .fault .corruptData] := by
    decide +kernel
  have hlast : split (lastStretch brokenCapture 0
      [(14, .corruptData), (14, .incompleteData), (30, .corruptData)]) = [[0x63]] := by
    decide +kernel
  rw [hstretches, hlast] at hreadings
  exact ⟨discarded, hreadings⟩

end Framing

/-! ## What can be seen of a stream -/

/-- What a call for the next record returns: a record, nothing at the end, or the fault. -/
def RecordReading.result : RecordReading → Except Fault (Option Bytes)
  | .record raw => .ok (some raw)
  | .ended _ => .ok none
  | .fault met => .error met

/-- A result the way an iterator hands it on: nothing at the end, and otherwise a record or the
fault. -/
def transposed : Except Fault (Option Bytes) → Option (Except Fault Bytes)
  | .ok none => none
  | .ok (some raw) => some (.ok raw)
  | .error fault => some (.error fault)

namespace Framing

def results (times : Nat) (deliveries : List Delivery) : List (Except Fault (Option Bytes)) :=
  (readTimes times deliveries).value.map RecordReading.result

def items (times : Nat) (deliveries : List Delivery) : List (Option (Except Fault Bytes)) :=
  (results times deliveries).map transposed

/-- **Portions and interruptions cannot be seen.** Streams that give the same bytes with faults at
the same places, none in particular, give the same results, the same items and the same events, call
by call and up to the end. -/
theorem answers_of_delivers {deliveries others : List Delivery} {bytes : Bytes}
    {faults : List (Nat × Fault)} (h : Delivery.Delivers deliveries bytes faults)
    (h' : Delivery.Delivers others bytes faults) :
    readings deliveries = readings others ∧
    ∀ times, results times deliveries = results times others ∧
      items times deliveries = items times others ∧
      (readTimes times deliveries).log = (readTimes times others).log := by
  have hreadings : readings deliveries = readings others :=
    (readings_of_delivers h).trans (readings_of_delivers h').symm
  refine ⟨hreadings, fun times => ?_⟩
  have hvalue : (readTimes times deliveries).value = (readTimes times others).value := by
    rw [value_readTimes, value_readTimes, hreadings]
  refine ⟨?_, ?_, ?_⟩
  · rw [results, results, hvalue]
  · rw [items, items, results, results, hvalue]
  · rw [log_readTimes, log_readTimes, hvalue]

/-- A stream that cuts through the separator and in front of its line break, with interruptions
there, gives what the capture gives in one portion: a record, the end, and the end again. -/
theorem answers_of_delivers_in_pieces :
    items 3 [.portion [0x61, newline, 0xF0], .interrupted, .interrupted,
        .portion (separator.drop 1), .interrupted, .portion [newline, 0x62]]
      = [some (.ok [0x61]), none, none] ∧
    (readTimes 3 [.portion [0x61, newline, 0xF0], .interrupted, .interrupted,
        .portion (separator.drop 1), .interrupted, .portion [newline, 0x62]]).log
      = [.discardedTail 1] := by
  obtain ⟨-, hall⟩ := @answers_of_delivers [.portion [0x61, newline, 0xF0], .interrupted,
    .interrupted, .portion (separator.drop 1), .interrupted, .portion [newline, 0x62]]
    [.portion ([0x61, newline] ++ separatorLine ++ [0x62])]
    ([0x61, newline] ++ separatorLine ++ [0x62]) [] (by decide) (by decide)
  obtain ⟨-, hitems, hlog⟩ := hall 3
  have hwhole : (readTimes 3 [.portion ([0x61, newline] ++ separatorLine ++ [0x62])]).value
      = [.record [0x61], .ended 1, .ended 0] := by
    decide +kernel
  rw [hitems, hlog, items, results, log_readTimes, hwhole]
  exact ⟨rfl, rfl⟩

end Framing

end TrafficReplay
