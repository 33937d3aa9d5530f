/-
# Captures put behind each other

The last separator line that has its line break cuts a capture in two. What it closes is settled:
the records in front of it stay the same whatever comes behind (`Framing.closedRecords`). What
stands behind it is open (`Framing.openPart`): a line that ends the capture may go on, and a bare
separator there ends a record only as long as nothing follows. `Framing.Parted` says where the cut
is, and bytes have only one (`Framing.Parted.unique`).

Splitting goes over concatenation up to the open part, which moves to the front of what comes next
(`Framing.split_over_append`). All of this comes from two facts about lines: bytes that end with a
line break keep their lines in front of any others (`lines_append_of_ends`), and behind a separator
line reading begins anew (`Framing.cut_append_separatorLine`).
-/
import TrafficReplay.Proofs.Record.Places

namespace TrafficReplay

theorem lines_append_of_ends {front : Bytes} (h : front = [] ∨ front.getLast? = some newline)
    (rest : Bytes) : lines (front ++ rest) = lines front ++ lines rest := by
  rcases h with rfl | hlast
  · rfl
  · obtain ⟨text, rfl⟩ : ∃ text, front = text ++ [newline] :=
      ⟨_, (List.dropLast_append_getLast? newline hlast).symm⟩
    rw [List.append_assoc, List.singleton_append, lines_append_newline, lines_append_newline,
      lines_nil, List.append_nil]

theorem Lined.of_append {rows more : List Bytes} (h : Lined (rows ++ more)) :
    Lined rows ∧ Lined more := by
  induction rows with
  | nil => exact ⟨.nil, h⟩
  | cons row rows ih =>
    rw [List.cons_append] at h
    generalize hrest : rows ++ more = rest at h ih
    cases h with
    | tail hne hn =>
      obtain ⟨rfl, rfl⟩ := List.append_eq_nil_iff.mp hrest
      exact ⟨.tail hne hn, .nil⟩
    | row hn hrow => exact ⟨.row hn (ih hrow).1, (ih hrow).2⟩

namespace Framing

/-! ## The cut -/

/-- The capture is empty or ends with a separator line, line break included: nothing is open in it.
-/
def Complete (capture : Bytes) : Prop :=
  capture = [] ∨ (lines capture).getLast? = some separatorLine

instance (capture : Bytes) : Decidable (Complete capture) :=
  inferInstanceAs (Decidable (_ ∨ _))

/-- The bytes up to the last separator line that has its line break, and those behind it. -/
structure Parted (bytes front left : Bytes) : Prop where
  whole : front ++ left = bytes
  complete : Complete front
  unclosed : separatorLine ∉ lines left

/-- The bytes up to the end of the last separator line that has its line break. -/
def closedPart (bytes : Bytes) : Bytes :=
  ((lines bytes).rdropWhile (· ≠ separatorLine)).flatten

/-- The bytes behind the last separator line that has its line break. -/
def openPart (bytes : Bytes) : Bytes :=
  ((lines bytes).rtakeWhile (· ≠ separatorLine)).flatten

/-- The records that a separator line with its line break closes. -/
def closedRecords (bytes : Bytes) : List Bytes :=
  split (closedPart bytes)

theorem Complete.ends {capture : Bytes} (h : Complete capture) :
    capture = [] ∨ capture.getLast? = some newline := by
  rcases h with hnil | hlast
  · exact .inl hnil
  · right
    obtain ⟨rows, hrows⟩ := List.getLast?_eq_some_iff.mp hlast
    have hflat := flatten_lines capture
    rw [hrows, List.flatten_append, List.flatten_singleton, separatorLine,
      ← List.append_assoc] at hflat
    rw [← hflat, List.getLast?_concat]

theorem Complete.lines_append {front : Bytes} (h : Complete front) (rest : Bytes) :
    lines (front ++ rest) = lines front ++ lines rest :=
  lines_append_of_ends h.ends rest

theorem Complete.append {front rest : Bytes} (h : Complete front) (h' : Complete rest) :
    Complete (front ++ rest) := by
  rcases h' with rfl | hlast
  · rwa [List.append_nil]
  · right
    rw [h.lines_append, List.getLast?_append, hlast, Option.some_or]

theorem lined_parts (bytes : Bytes) :
    Lined ((lines bytes).rdropWhile (· ≠ separatorLine)) ∧
      Lined ((lines bytes).rtakeWhile (· ≠ separatorLine)) := by
  refine Lined.of_append ?_
  rw [List.rdropWhile_append_rtakeWhile]
  exact lined_lines bytes

theorem lines_closedPart (bytes : Bytes) :
    lines (closedPart bytes) = (lines bytes).rdropWhile (· ≠ separatorLine) :=
  (lined_parts bytes).1.lines_flatten

theorem lines_openPart (bytes : Bytes) :
    lines (openPart bytes) = (lines bytes).rtakeWhile (· ≠ separatorLine) :=
  (lined_parts bytes).2.lines_flatten

theorem parted (bytes : Bytes) : Parted bytes (closedPart bytes) (openPart bytes) := by
  refine ⟨?_, ?_, ?_⟩
  · rw [closedPart, openPart, ← List.flatten_append, List.rdropWhile_append_rtakeWhile,
      flatten_lines]
  · rw [Complete, lines_closedPart, closedPart]
    by_cases hnil : (lines bytes).rdropWhile (· ≠ separatorLine) = []
    · left
      rw [hnil, List.flatten_nil]
    · right
      have hlast := List.rdropWhile_last_not (· ≠ separatorLine) (lines bytes) hnil
      rw [List.getLast?_eq_some_getLast hnil]
      simpa using hlast
  · intro hmem
    rw [lines_openPart] at hmem
    simpa using List.mem_rtakeWhile_imp hmem

/-- **Bytes are cut at one place only.** -/
theorem Parted.unique {bytes front left : Bytes} (h : Parted bytes front left) :
    front = closedPart bytes ∧ left = openPart bytes := by
  have hleft : ∀ row ∈ (lines left).reverse, decide (row ≠ separatorLine) = true := by
    intro row hrow
    refine decide_eq_true fun heq => h.unclosed ?_
    exact heq ▸ List.mem_reverse.mp hrow
  -- from the end, the last separator line is met first behind the open lines
  have hstop : (lines front).reverse.takeWhile (· ≠ separatorLine) = [] := by
    rcases h.complete with rfl | hlast
    · rfl
    · obtain ⟨rows, hrows⟩ := List.getLast?_eq_some_iff.mp hlast
      rw [hrows, List.reverse_append]
      simp
  have hopen : left = openPart bytes := by
    rw [openPart, ← h.whole, h.complete.lines_append, List.rtakeWhile, List.reverse_append,
      List.takeWhile_append_of_pos hleft, hstop, List.append_nil, List.reverse_reverse,
      flatten_lines]
  refine ⟨?_, hopen⟩
  have hwhole := h.whole.trans (parted bytes).whole.symm
  rw [hopen] at hwhole
  exact List.append_cancel_right hwhole

/-! ## Reading over the cut -/

theorem rawsOf_append (raws : List Bytes) (readings : List RecordReading) :
    rawsOf (raws.map .record ++ readings) = raws ++ rawsOf readings := by
  induction raws with
  | nil => rfl
  | cons raw raws ih => exact congrArg (raw :: ·) ih

theorem cut_append_separatorLine (read : Bytes) (rows more : List Bytes) :
    cut read (rows ++ separatorLine :: more)
      = (rawsOf (cut read (rows ++ [separatorLine]))).map .record ++ cut [] more := by
  induction rows generalizing read with
  | nil =>
    rw [List.nil_append, List.nil_append, cut, cut, if_pos isSeparatorLine_separatorLine,
      if_pos isSeparatorLine_separatorLine]
    rfl
  | cons row rows ih =>
    rw [List.cons_append, List.cons_append, cut, cut]
    split
    · rw [ih, rawsOf_cons_record]
      rfl
    · exact ih _

theorem cut_lines_append {front : Bytes} (h : Complete front) (more : List Bytes) :
    cut [] (lines front ++ more) = (split front).map .record ++ cut [] more := by
  rw [split_eq_rawsOf]
  rcases h with rfl | hlast
  · rfl
  · obtain ⟨rows, hrows⟩ := List.getLast?_eq_some_iff.mp hlast
    rw [hrows, List.append_assoc]
    exact cut_append_separatorLine [] rows more

theorem cut_append_of_complete {front : Bytes} (h : Complete front) (rest : Bytes) :
    cut [] (lines (front ++ rest)) = (split front).map .record ++ cut [] (lines rest) := by
  rw [h.lines_append, cut_lines_append h]

theorem cut_of_complete {capture : Bytes} (h : Complete capture) :
    cut [] (lines capture) = (split capture).map .record ++ [.ended 0] := by
  have hcut := cut_append_of_complete h []
  rwa [List.append_nil] at hcut

theorem SeparatorAt.extract_of_complete {capture : Bytes} {start stop : Nat} (h : Complete capture)
    (hat : SeparatorAt capture start stop) : capture.extract start stop = separatorLine := by
  refine hat.sign.resolve_right ?_
  rintro ⟨hbare, rfl⟩
  have hfilled := hat.line.filled
  have hdrop : capture.drop start = separator := by
    rwa [List.extract_eq_take_drop, ← List.length_drop, List.take_length] at hbare
  have hlast : capture.getLast? = separator.getLast? := by
    rw [← List.take_append_drop start capture, hdrop]
    exact List.getLast?_append_of_ne_nil _ (by decide)
  rcases h.ends with hnil | hend
  · rw [hnil] at hfilled
    exact absurd hfilled (Nat.not_lt_zero start)
  · rw [hlast] at hend
    exact absurd hend (by decide)

/-- The closed records stand in front of the separator lines that have their line break, and nothing
of the closed part is left out. -/
theorem exists_layout_closedPart (bytes : Bytes) :
    ∃ places, Layout (closedPart bytes) places (closedRecords bytes) 0 ∧
      ∀ place ∈ places, (closedPart bytes).extract place.1 place.2 = separatorLine := by
  have hcomplete := (parted bytes).complete
  obtain ⟨places, raws, discarded, hlayout, hcut⟩ := exists_layout (closedPart bytes)
  have hsame := hcut.symm.trans (cut_of_complete hcomplete)
  have hraws := congrArg rawsOf hsame
  rw [rawsOf_records, rawsOf_records] at hraws
  subst hraws
  cases List.append_cancel_left hsame
  refine ⟨places, hlayout, fun place hmem => ?_⟩
  exact ((hlayout.separators place.1 place.2).mp hmem).extract_of_complete hcomplete

theorem split_append_of_complete {front : Bytes} (h : Complete front) (rest : Bytes) :
    split (front ++ rest) = split front ++ split rest := by
  rw [split_eq_rawsOf, cut_append_of_complete h, rawsOf_append, ← split_eq_rawsOf]

theorem split_append_openPart (front rest : Bytes) :
    split (front ++ rest) = closedRecords front ++ split (openPart front ++ rest) := by
  have hparted := parted front
  rw [closedRecords, ← split_append_of_complete hparted.complete, ← List.append_assoc,
    hparted.whole]

/-- The cut of what is put together is the cut of the second capture with the open part in front. -/
theorem parted_append (front rest : Bytes) :
    closedPart (front ++ rest) = closedPart front ++ closedPart (openPart front ++ rest) ∧
      openPart (front ++ rest) = openPart (openPart front ++ rest) := by
  have hfront := parted front
  have hrest := parted (openPart front ++ rest)
  have hboth : Parted (front ++ rest) (closedPart front ++ closedPart (openPart front ++ rest))
      (openPart (openPart front ++ rest)) := by
    refine ⟨?_, hfront.complete.append hrest.complete, hrest.unclosed⟩
    rw [List.append_assoc, hrest.whole, ← List.append_assoc, hfront.whole]
  exact ⟨hboth.unique.1.symm, hboth.unique.2.symm⟩

theorem closedRecords_append (front rest : Bytes) :
    closedRecords (front ++ rest)
      = closedRecords front ++ closedRecords (openPart front ++ rest) := by
  rw [closedRecords, (parted_append front rest).1, split_append_of_complete (parted front).complete]
  rfl

theorem split_flatten_append {captures : List Bytes} (h : ∀ capture ∈ captures, Complete capture)
    (last : Bytes) : split (captures.flatten ++ last) = captures.flatMap split ++ split last := by
  induction captures with
  | nil => rfl
  | cons capture captures ih =>
    have hcaptures : ∀ other ∈ captures, Complete other :=
      fun other hmem => h other (List.mem_cons_of_mem _ hmem)
    rw [List.flatten_cons, List.append_assoc,
      split_append_of_complete (h capture List.mem_cons_self),
      ih hcaptures, List.flatMap_cons, List.append_assoc]

/-! ## Some calls, and then the rest -/

/-- What is left of a stream after so many calls for a record. -/
def behind : Nat → List Delivery → List Delivery
  | 0, deliveries => deliveries
  | times + 1, deliveries => behind times (readRecord deliveries).2

theorem behind_succ {deliveries rest : List Delivery} {reading : RecordReading}
    (h : readRecord deliveries = (reading, rest)) (times : Nat) :
    behind (times + 1) deliveries = behind times rest := by
  rw [behind, h]

theorem split_readRecord {deliveries rest : List Delivery} {reading : RecordReading}
    (h : Delivery.FaultFree deliveries) (hr : readRecord deliveries = (reading, rest)) :
    Delivery.FaultFree rest ∧
      split (Delivery.contents deliveries) = rawsOf [reading] ++
        split (Delivery.contents rest) := by
  obtain ⟨reading', rest', hr', hf, hcut⟩ := readRecordAfter_faultFree h []
  cases hr.symm.trans hr'
  refine ⟨hf, ?_⟩
  rw [split_eq_rawsOf, split_eq_rawsOf]
  rcases hcut with ⟨raw, rfl, hcut⟩ | ⟨discarded, rfl, hcut⟩
  · rw [List.reverse_nil] at hcut
    rw [hcut]
    rfl
  · rw [List.reverse_nil] at hcut
    rw [hcut, rest_of_ended hr]
    rfl

/-- The records of some calls, and then those of what they leave, are the records of the stream. -/
theorem split_behind {deliveries : List Delivery} (h : Delivery.FaultFree deliveries)
    (times : Nat) :
    rawsOf (readTimes times deliveries).value ++ split (Delivery.contents (behind times deliveries))
      = split (Delivery.contents deliveries) := by
  induction times generalizing deliveries with
  | zero => rfl
  | succ times ih =>
    rcases hr : readRecord deliveries with ⟨reading, rest⟩
    obtain ⟨hf, hsplit⟩ := split_readRecord h hr
    rw [readTimes_succ hr, behind_succ hr, hsplit, ← ih hf, ← List.append_assoc]
    congr 1
    exact List.filterMap_append (l := [reading])

/-- **Splitting goes over concatenation up to the open part.** Whatever comes behind a capture, its
closed records come first, and then what its open part and the rest hold together; the closed
records and the open part of the whole come about in the same way. So complete captures that are put
behind each other hold the records of all of them, and a stream may be split in any number of goes.
-/
theorem split_over_append (front rest : Bytes) :
    (∀ closed left, Parted front closed left ↔ closed = closedPart front ∧ left = openPart front) ∧
    (∃ places, Layout (closedPart front) places (closedRecords front) 0 ∧
      ∀ place ∈ places, (closedPart front).extract place.1 place.2 = separatorLine) ∧
    split (front ++ rest) = closedRecords front ++ split (openPart front ++ rest) ∧
    closedRecords (front ++ rest)
      = closedRecords front ++ closedRecords (openPart front ++ rest) ∧
    openPart (front ++ rest) = openPart (openPart front ++ rest) ∧
    (∀ captures : List Bytes, (∀ capture ∈ captures, Complete capture) → ∀ last,
      split (captures.flatten ++ last) = captures.flatMap split ++ split last) ∧
    ∀ deliveries, Delivery.FaultFree deliveries → ∀ times,
      rawsOf (readTimes times deliveries).value
          ++ split (Delivery.contents (behind times deliveries))
        = split (Delivery.contents deliveries) := by
  refine ⟨fun closed left => ⟨Parted.unique, ?_⟩, exists_layout_closedPart front,
    split_append_openPart front rest, closedRecords_append front rest, (parted_append front rest).2,
    fun captures h last => split_flatten_append h last,
      fun deliveries h times => split_behind h times⟩
  rintro ⟨rfl, rfl⟩
  exact parted front

/-- A capture that ends with a bare separator: alone it holds two records, but the second one goes
on once more bytes follow. -/
def looseCapture : Bytes :=
  [0x61, newline] ++ separatorLine ++ [0x62, newline] ++ separator

/-- Only the first record is settled, and a byte behind the separator makes it part of the second.
-/
theorem split_over_append_of_loose :
    split looseCapture = [[0x61], [0x62]] ∧
      split (looseCapture ++ ([0x63, newline] ++ separatorLine))
        = [[0x61], [0x62, newline] ++ separator ++ [0x63]] := by
  obtain ⟨hparted, -, hsplit, -⟩ :=
    split_over_append looseCapture ([0x63, newline] ++ separatorLine)
  obtain ⟨hclosed, hopen⟩ :=
    (hparted ([0x61, newline] ++ separatorLine) ([0x62, newline] ++ separator)).mp
      ⟨rfl, by decide, by decide⟩
  refine ⟨by decide +kernel, ?_⟩
  rw [hsplit, closedRecords, ← hclosed, ← hopen]
  decide +kernel

end Framing

end TrafficReplay
