/-
# Where the records of a stream stand

The third view of a stream beside its deliveries and its lines: the places of its bytes. `LineAt`
and `SeparatorAt` say by single bytes where a line and a separator line stand, and a `Layout` is all
that there is to say about some bytes: where their separator lines stand, what stands in front of
each of them, and how much stands behind the last one. Bytes have just one layout
(`Framing.exists_layout`, `Framing.Layout.unique`), and reading a stream follows it, however often
it goes on behind the end (`Framing.readTimes_layout`).

The proofs go along the rows of `lines`, with the place of the next row beside them: a row is a line
at that place, and no other line begins inside it (`lineAt_front_iff`, `lineAt_behind_iff`).
-/
import TrafficReplay.Proofs.Record.NormalForm
import TrafficReplay.Record.Metadata

namespace TrafficReplay

/-- A line stands from `start` up to `stop`: its line break belongs to it, and the last line may
have none. -/
structure LineAt (bytes : Bytes) (start stop : Nat) : Prop where
  filled : start < stop
  within : stop ≤ bytes.length
  opens : start = 0 ∨ bytes[start - 1]? = some newline
  unbroken : ∀ place, start ≤ place → place + 1 < stop → bytes[place]? ≠ some newline
  closes : bytes[stop - 1]? = some newline ∨ stop = bytes.length

theorem getElem?_ne_newline {text : Bytes} (h : newline ∉ text) (place : Nat) :
    text[place]? ≠ some newline :=
  fun he => h (List.mem_of_getElem? he)

theorem lineAt_unbroken_iff {text : Bytes} (hne : text ≠ []) (hn : newline ∉ text)
    {start stop : Nat} : LineAt text start stop ↔ start = 0 ∧ stop = text.length := by
  constructor
  · intro h
    exact ⟨h.opens.resolve_right (getElem?_ne_newline hn _),
      h.closes.resolve_left (getElem?_ne_newline hn _)⟩
  · rintro ⟨rfl, rfl⟩
    exact
      { filled := List.length_pos_iff.mpr hne
        within := le_rfl
        opens := .inl rfl
        unbroken := fun place _ _ => getElem?_ne_newline hn place
        closes := .inr rfl }

section Row

variable (text rest : Bytes)

theorem getElem?_behind_break (place : Nat) :
    (text ++ newline :: rest)[text.length + 1 + place]? = rest[place]? := by
  rw [List.getElem?_append_right (by omega)]
  have hplace : text.length + 1 + place - text.length = place + 1 := by omega
  rw [hplace, List.getElem?_cons_succ]

theorem getElem?_break : (text ++ newline :: rest)[text.length]? = some newline := by
  simp

variable {text}

theorem getElem?_before {place : Nat} (h : 0 < place) :
    (text ++ newline :: rest)[text.length + 1 + place - 1]? = rest[place - 1]? := by
  rw [← getElem?_behind_break text rest, Nat.add_sub_assoc h]

theorem lineAt_behind_iff {start stop : Nat} :
    LineAt (text ++ newline :: rest) (text.length + 1 + start) (text.length + 1 + stop)
      ↔ LineAt rest start stop := by
  have hlength : (text ++ newline :: rest).length = text.length + 1 + rest.length := by
    simp only [List.length_append, List.length_cons]
    omega
  constructor
  · intro h
    have hfilled : start < stop := Nat.lt_of_add_lt_add_left h.filled
    have hopens := h.opens
    have hcloses := h.closes
    rw [getElem?_before rest (by omega), hlength] at hcloses
    refine ⟨hfilled, by have := h.within; omega, ?_, ?_, hcloses.imp_right Nat.add_left_cancel⟩
    · rcases Nat.eq_zero_or_pos start with hzero | hpos
      · exact .inl hzero
      · rw [getElem?_before rest hpos] at hopens
        exact hopens.imp_left fun he => by omega
    · intro place hge hlt
      rw [← getElem?_behind_break text rest]
      exact h.unbroken _ (by omega) (by omega)
  · intro h
    have hfilled := h.filled
    refine ⟨Nat.add_lt_add_left hfilled _, ?_, .inr ?_, ?_, ?_⟩
    · rw [hlength]
      exact Nat.add_le_add_left h.within _
    · rcases Nat.eq_zero_or_pos start with rfl | hpos
      · exact getElem?_break text rest
      · rw [getElem?_before rest hpos]
        exact h.opens.resolve_left (by omega)
    · intro place hge hlt
      obtain ⟨place, rfl⟩ := Nat.exists_eq_add_of_le (show text.length + 1 ≤ place by omega)
      rw [getElem?_behind_break]
      exact h.unbroken place (by omega) (by omega)
    · rw [getElem?_before rest (by omega), hlength]
      exact h.closes.imp_right (congrArg (text.length + 1 + ·))

variable (hn : newline ∉ text)
include hn

theorem le_of_getElem?_eq_newline {place : Nat}
    (h : (text ++ newline :: rest)[place]? = some newline) : text.length ≤ place := by
  by_contra hlt
  rw [List.getElem?_append_left (by omega)] at h
  exact getElem?_ne_newline hn place h

theorem lineAt_front_iff {stop : Nat} :
    LineAt (text ++ newline :: rest) 0 stop ↔ stop = text.length + 1 := by
  constructor
  · intro h
    have hle : text.length + 1 ≤ stop := by
      have hfilled := h.filled
      rcases h.closes with hc | hc
      · have := le_of_getElem?_eq_newline rest hn hc
        omega
      · simp only [hc, List.length_append, List.length_cons]
        omega
    have hge : ¬text.length + 1 < stop := fun hlt =>
      h.unbroken text.length (Nat.zero_le _) hlt (getElem?_break text rest)
    omega
  · rintro rfl
    exact
      { filled := Nat.succ_pos _
        within := by simp
        opens := .inl rfl
        unbroken := by
          intro place _ hlt he
          have := le_of_getElem?_eq_newline rest hn he
          omega
        closes := .inl (getElem?_break text rest) }

theorem LineAt.exists_behind {start stop : Nat} (h : LineAt (text ++ newline :: rest) start stop)
    (hs : start ≠ 0) : ∃ start' stop', start = text.length + 1 + start' ∧
      stop = text.length + 1 + stop' ∧ LineAt rest start' stop' := by
  have hfilled := h.filled
  have hle := le_of_getElem?_eq_newline rest hn (h.opens.resolve_left hs)
  obtain ⟨start', rfl⟩ := Nat.exists_eq_add_of_le (show text.length + 1 ≤ start by omega)
  obtain ⟨stop', rfl⟩ := Nat.exists_eq_add_of_le (show text.length + 1 ≤ stop by omega)
  exact ⟨start', stop', rfl, rfl, (lineAt_behind_iff rest).mp h⟩

end Row

namespace Framing

/-- A separator line stands from `start` up to `stop`: the separator with a line break behind it, or
the separator alone where the bytes end. -/
structure SeparatorAt (bytes : Bytes) (start stop : Nat) : Prop where
  line : LineAt bytes start stop
  sign : bytes.extract start stop = separator ++ [newline] ∨
    bytes.extract start stop = separator ∧ stop = bytes.length

theorem isSeparatorLine_iff {row : Bytes} :
    isSeparatorLine row = true ↔ row = separator ++ [newline] ∨ row = separator := by
  constructor
  · intro h
    rw [isSeparatorLine, decide_eq_true_iff, withoutFinalBreak] at h
    split at h
    · next hlast =>
      left
      rw [← h]
      exact (List.dropLast_append_getLast? newline hlast).symm
    · exact .inr h
  · rintro (rfl | rfl)
    · exact isSeparatorLine_separatorLine
    · decide

theorem separatorAt_iff {bytes : Bytes} {start stop : Nat} : SeparatorAt bytes start stop ↔
    LineAt bytes start stop ∧ isSeparatorLine (bytes.extract start stop) = true := by
  constructor
  · rintro ⟨hline, hsign⟩
    exact ⟨hline, isSeparatorLine_iff.mpr (hsign.imp_right And.left)⟩
  · rintro ⟨hline, hs⟩
    refine ⟨hline, (isSeparatorLine_iff.mp hs).imp_right fun hbare => ⟨hbare, ?_⟩⟩
    -- the separator itself does not end with a line break, so the bytes end here
    refine hline.closes.resolve_left fun hbreak => ?_
    have hfilled := hline.filled
    have hmem : newline ∈ bytes.extract start stop := by
      refine List.mem_of_getElem? (i := stop - 1 - start) ?_
      rw [List.extract_eq_take_drop, List.getElem?_take_of_lt (by omega), List.getElem?_drop,
        ← hbreak]
      congr 1
      omega
    rw [hbare] at hmem
    exact absurd hmem (by decide)

/-- The places of the separator lines among rows of which the first one stands at `place`. -/
def separatorPlaces (place : Nat) : List Bytes → List (Nat × Nat)
  | [] => []
  | row :: rest =>
    let later := separatorPlaces (place + row.length) rest
    if isSeparatorLine row then (place, place + row.length) :: later else later

theorem mem_separatorPlaces_cons {place start stop : Nat} {row : Bytes} {rest : List Bytes} :
    (start, stop) ∈ separatorPlaces place (row :: rest) ↔
      (start = place ∧ stop = place + row.length ∧ isSeparatorLine row = true) ∨
      (start, stop) ∈ separatorPlaces (place + row.length) rest := by
  rw [separatorPlaces]
  split
  · next hs => simp only [List.mem_cons, Prod.mk.injEq, hs, and_true]
  · next hs => exact ⟨.inr, fun h => h.resolve_left fun hrow => hs hrow.2.2⟩

theorem not_separatorAt_nil {start stop : Nat} : ¬SeparatorAt [] start stop :=
  fun h => absurd (Nat.lt_of_lt_of_le h.line.filled h.line.within) (Nat.not_lt_zero _)

theorem separatorAt_unbroken_iff {text : Bytes} (hne : text ≠ []) (hn : newline ∉ text)
    {start stop : Nat} : SeparatorAt text start stop ↔
      start = 0 ∧ stop = text.length ∧ isSeparatorLine text = true := by
  rw [separatorAt_iff, lineAt_unbroken_iff hne hn, and_assoc]
  refine and_congr_right fun hstart => and_congr_right fun hstop => ?_
  rw [hstart, hstop, List.extract_eq_take_drop, Nat.sub_zero, List.drop_zero, List.take_length]

/-- The separator lines of some rows: the first row if it is one, and those of the others. -/
theorem separatorAt_row_iff {text : Bytes} (hn : newline ∉ text) (rest : Bytes)
    {start stop : Nat} : SeparatorAt (text ++ newline :: rest) start stop ↔
      (start = 0 ∧ stop = text.length + 1 ∧ isSeparatorLine (text ++ [newline]) = true) ∨
      ∃ start' stop', start = text.length + 1 + start' ∧ stop = text.length + 1 + stop' ∧
        SeparatorAt rest start' stop' := by
  have hfirst : (text ++ newline :: rest).extract 0 (text.length + 1) = text ++ [newline] := by
    rw [List.append_cons, List.extract_eq_take_drop]
    exact List.take_left' (by simp)
  have hlater (start' stop' : Nat) : (text ++ newline :: rest).extract (text.length + 1 + start')
      (text.length + 1 + stop') = rest.extract start' stop' := by
    rw [List.append_cons, List.extract_eq_take_drop, List.extract_eq_take_drop,
      Nat.add_sub_add_left, ← List.drop_drop, List.drop_left' (by simp)]
  constructor
  · intro h
    obtain ⟨hline, hs⟩ := separatorAt_iff.mp h
    by_cases hstart : start = 0
    · subst hstart
      obtain rfl := (lineAt_front_iff rest hn).mp hline
      rw [hfirst] at hs
      exact .inl ⟨rfl, rfl, hs⟩
    · obtain ⟨start', stop', rfl, rfl, hrest⟩ := hline.exists_behind rest hn hstart
      rw [hlater] at hs
      exact .inr ⟨start', stop', rfl, rfl, separatorAt_iff.mpr ⟨hrest, hs⟩⟩
  · rw [separatorAt_iff]
    rintro (⟨rfl, rfl, hs⟩ | ⟨start', stop', rfl, rfl, h⟩)
    · rw [hfirst]
      exact ⟨(lineAt_front_iff rest hn).mpr rfl, hs⟩
    · obtain ⟨hrest, hs⟩ := separatorAt_iff.mp h
      rw [hlater]
      exact ⟨(lineAt_behind_iff rest).mpr hrest, hs⟩

theorem mem_separatorPlaces_iff {rows : List Bytes} (h : Lined rows) {place start stop : Nat} :
    (start, stop) ∈ separatorPlaces place rows ↔ ∃ start' stop', start = place + start' ∧
      stop = place + stop' ∧ SeparatorAt rows.flatten start' stop' := by
  induction h generalizing place with
  | nil =>
    refine iff_of_false List.not_mem_nil ?_
    rintro ⟨start', stop', -, -, hat⟩
    exact not_separatorAt_nil hat
  | @tail text hne hn =>
    rw [mem_separatorPlaces_cons, List.flatten_singleton]
    simp only [separatorAt_unbroken_iff hne hn]
    constructor
    · rintro (⟨rfl, rfl, hs⟩ | hnone)
      · exact ⟨0, _, rfl, rfl, rfl, rfl, hs⟩
      · cases hnone
    · rintro ⟨start', stop', rfl, rfl, rfl, rfl, hs⟩
      exact .inl ⟨rfl, rfl, hs⟩
  | @row text rest hn _ ih =>
    have hlength : (text ++ [newline]).length = text.length + 1 := List.length_append
    rw [mem_separatorPlaces_cons, ih, hlength, List.flatten_cons, ← List.append_cons]
    simp only [separatorAt_row_iff hn]
    constructor
    · rintro (⟨rfl, rfl, hs⟩ | ⟨start', stop', rfl, rfl, hat⟩)
      · exact ⟨0, _, rfl, rfl, .inl ⟨rfl, rfl, hs⟩⟩
      · exact ⟨_, _, Nat.add_assoc _ _ _, Nat.add_assoc _ _ _, .inr ⟨start', stop', rfl, rfl, hat⟩⟩
    · rintro ⟨_, _, rfl, rfl, ⟨rfl, rfl, hs⟩ | ⟨start', stop', rfl, rfl, hat⟩⟩
      · exact .inl ⟨rfl, rfl, hs⟩
      · exact .inr ⟨start', stop', (Nat.add_assoc _ _ _).symm, (Nat.add_assoc _ _ _).symm, hat⟩

theorem le_of_mem_separatorPlaces {rows : List Bytes} {place : Nat} {p : Nat × Nat}
    (h : p ∈ separatorPlaces place rows) : place ≤ p.1 := by
  induction rows generalizing place with
  | nil => cases h
  | cons row rows ih =>
    rw [separatorPlaces] at h
    split at h
    · rcases List.mem_cons.mp h with rfl | h
      · exact le_rfl
      · have := ih h
        omega
    · have := ih h
      omega

theorem pairwise_separatorPlaces (place : Nat) (rows : List Bytes) :
    (separatorPlaces place rows).Pairwise fun p q => p.2 ≤ q.1 := by
  induction rows generalizing place with
  | nil => exact .nil
  | cons row rows ih =>
    rw [separatorPlaces]
    split
    · exact .cons (fun q hq => le_of_mem_separatorPlaces hq) (ih _)
    · exact ih _

/-! ## What stands between the separator lines -/

/-- The stretches in front of the places, each from the end of the place before it; the first one
begins at `start`. -/
def gaps (start : Nat) (places : List (Nat × Nat)) : List (Nat × Nat) :=
  (start :: places.map Prod.snd).zip (places.map Prod.fst)

/-- The end of the last place, or `start` if there is none. -/
def lastStop (start : Nat) (places : List (Nat × Nat)) : Nat :=
  (places.map Prod.snd).getLastD start

@[simp] theorem gaps_nil (start : Nat) : gaps start [] = [] := rfl

@[simp] theorem gaps_cons (start : Nat) (p : Nat × Nat) (places : List (Nat × Nat)) :
    gaps start (p :: places) = (start, p.1) :: gaps p.2 places := rfl

@[simp] theorem lastStop_nil (start : Nat) : lastStop start [] = start := rfl

@[simp] theorem lastStop_cons (start : Nat) (p : Nat × Nat) (places : List (Nat × Nat)) :
    lastStop start (p :: places) = lastStop p.2 places :=
  List.getLastD_cons ..

/-- The bytes from `start` up to `stop` hold the record and one line break behind it; if there are
no such bytes, the record is empty. -/
def Encloses (bytes : Bytes) (gap : Nat × Nat) (raw : Bytes) : Prop :=
  gap.1 < gap.2 ∧ bytes.extract gap.1 gap.2 = raw ++ [newline] ∨ gap.1 = gap.2 ∧ raw = []

/-- The bytes hold these records and nothing else: the places are those of all separator lines, in
order, a record stands in front of each of them, and so many bytes stand behind the last one. -/
structure Layout (bytes : Bytes) (places : List (Nat × Nat)) (raws : List Bytes)
    (discarded : Nat) : Prop where
  separators : ∀ start stop, (start, stop) ∈ places ↔ SeparatorAt bytes start stop
  ascending : places.Pairwise fun p q => p.2 ≤ q.1
  between : List.Forall₂ (Encloses bytes) (gaps 0 places) raws
  beyond : lastStop 0 places + discarded = bytes.length

section Between

variable {bytes front read : Bytes} {start place : Nat}

theorem encloses_withoutFinalBreak {back : Bytes} (hb : front ++ (read ++ back) = bytes)
    (hstart : front.length = start) (hplace : start + read.length = place)
    (hread : read = [] ∨ read.getLast? = some newline) :
    Encloses bytes (start, place) (withoutFinalBreak read) := by
  rcases hread with rfl | hlast
  · exact .inr ⟨hplace, rfl⟩
  · have hwhole : read.dropLast ++ [newline] = read :=
      List.dropLast_append_getLast? newline hlast
    have hpos : 0 < read.length := by
      rw [← hwhole, List.length_append]
      exact Nat.succ_pos _
    refine .inl ⟨by omega, ?_⟩
    rw [withoutFinalBreak, if_pos hlast, hwhole, ← hb, ← hplace, ← hstart,
      List.extract_eq_take_drop, List.drop_left, Nat.add_sub_cancel_left, List.take_left]

theorem forall₂_encloses_cut {rows : List Bytes} (h : Lined rows)
    (hb : front ++ (read ++ rows.flatten) = bytes) (hstart : front.length = start)
    (hplace : start + read.length = place) (hread : read = [] ∨ read.getLast? = some newline) :
    List.Forall₂ (Encloses bytes) (gaps start (separatorPlaces place rows))
      (rawsOf (cut read rows)) := by
  induction h generalizing front read start place with
  | nil => exact .nil
  | @tail text _ _ =>
    rw [cut, separatorPlaces]
    split
    · exact .cons (encloses_withoutFinalBreak hb hstart hplace hread) .nil
    · exact .nil
  | @row text rest _ _ ih =>
    have hlength : (text ++ [newline]).length = text.length + 1 := List.length_append
    rw [cut, separatorPlaces]
    split
    · refine .cons (encloses_withoutFinalBreak hb hstart hplace hread) ?_
      have hfront : (front ++ (read ++ (text ++ [newline]))).length
          = place + (text ++ [newline]).length := by
        rw [List.length_append, List.length_append, hstart, ← hplace, Nat.add_assoc]
      exact ih (by simpa using hb) hfront rfl (.inl rfl)
    · have hgrown : start + (read ++ (text ++ [newline])).length
          = place + (text ++ [newline]).length := by
        rw [List.length_append, ← hplace, Nat.add_assoc]
      exact ih (by simpa using hb) hstart hgrown (.inr (by simp))

end Between

/-- The readings of rows are records and then the end, and what the end leaves out stands behind the
last separator line. -/
theorem cut_eq_records (read : Bytes) (rows : List Bytes) (start : Nat) :
    ∃ discarded, cut read rows = (rawsOf (cut read rows)).map .record ++ [.ended discarded] ∧
      lastStop start (separatorPlaces (start + read.length) rows) + discarded
        = start + read.length + rows.flatten.length := by
  induction rows generalizing read start with
  | nil => exact ⟨read.length, rfl, rfl⟩
  | cons row rows ih =>
    rw [cut, separatorPlaces, List.flatten_cons, List.length_append, ← Nat.add_assoc]
    split
    · obtain ⟨discarded, hd, hlast⟩ := ih [] (start + read.length + row.length)
      refine ⟨discarded, congrArg (RecordReading.record _ :: ·) hd, ?_⟩
      rw [lastStop_cons]
      exact hlast
    · obtain ⟨discarded, hd, hlast⟩ := ih (read ++ row) start
      rw [List.length_append, ← Nat.add_assoc] at hlast
      exact ⟨discarded, hd, hlast⟩

theorem exists_layout (bytes : Bytes) : ∃ places raws discarded,
    Layout bytes places raws discarded ∧
      cut [] (lines bytes) = raws.map .record ++ [.ended discarded] := by
  have hlined := lined_lines bytes
  have hflatten := flatten_lines bytes
  obtain ⟨discarded, hcut, hbeyond⟩ := cut_eq_records [] (lines bytes) 0
  refine ⟨separatorPlaces 0 (lines bytes), rawsOf (cut [] (lines bytes)), discarded, ?_, hcut⟩
  refine ⟨fun start stop => ?_, pairwise_separatorPlaces 0 _, ?_, ?_⟩
  · rw [mem_separatorPlaces_iff hlined, hflatten]
    simp
  · exact @forall₂_encloses_cut bytes [] [] 0 0 _ hlined hflatten rfl rfl (.inl rfl)
  · simpa [hflatten] using hbeyond

namespace Layout

variable {bytes : Bytes} {places places' : List (Nat × Nat)} {raws raws' : List Bytes}
  {discarded discarded' : Nat}

theorem length_eq (h : Layout bytes places raws discarded) : raws.length = places.length := by
  rw [← h.between.length_eq]
  simp [gaps]

theorem filled (h : Layout bytes places raws discarded) {p : Nat × Nat} (hp : p ∈ places) :
    p.1 < p.2 :=
  ((h.separators p.1 p.2).mp hp).line.filled

theorem nodup (h : Layout bytes places raws discarded) : places.Nodup := by
  refine h.ascending.imp_of_mem fun hp _ hle => ?_
  rintro rfl
  exact absurd (h.filled hp) (Nat.not_lt.mpr hle)

theorem rightUnique_encloses (bytes : Bytes) : Relator.RightUnique (Encloses bytes) := by
  rintro gap raw raw' (⟨hlt, hraw⟩ | ⟨heq, rfl⟩) (⟨hlt', hraw'⟩ | ⟨heq', rfl⟩)
  · exact List.append_cancel_right (hraw.symm.trans hraw')
  · exact absurd heq' (Nat.ne_of_lt hlt)
  · exact absurd heq (Nat.ne_of_lt hlt')
  · rfl

/-- **Bytes have one layout only.** -/
theorem unique (h : Layout bytes places raws discarded)
    (h' : Layout bytes places' raws' discarded') :
    places = places' ∧ raws = raws' ∧ discarded = discarded' := by
  have hperm : places.Perm places' := by
    refine (List.perm_ext_iff_of_nodup h.nodup h'.nodup).mpr fun p => ?_
    rw [h.separators p.1 p.2, h'.separators p.1 p.2]
  have hplaces : places = places' := by
    refine hperm.eq_of_pairwise (fun p q hp hq hpq hqp => ?_) h.ascending h'.ascending
    -- of two different places, one ends before the other begins
    have := h.filled hp
    have := h'.filled hq
    omega
  subst hplaces
  refine ⟨rfl, List.right_unique_forall₂' (rightUnique_encloses bytes) h.between h'.between, ?_⟩
  exact Nat.add_left_cancel (h.beyond.trans h'.beyond.symm)

end Layout

/-! ## One call after the other -/

/-- Reads one record after the other, so many times, and reports what is to be reported about each.
-/
def readTimes : Nat → List Delivery → Logged (List RecordReading)
  | 0, _ => pure []
  | times + 1, deliveries => do
    let (reading, rest) := readRecord deliveries
    Logged.report reading.notices
    let later ← readTimes times rest
    return reading :: later

theorem readTimes_succ {deliveries rest : List Delivery} {reading : RecordReading}
    (h : readRecord deliveries = (reading, rest)) (times : Nat) :
    (readTimes (times + 1) deliveries).value = reading :: (readTimes times rest).value := by
  simp only [readTimes, h]
  rfl

theorem rest_of_ended {deliveries rest : List Delivery} {read : Bytes} {discarded : Nat}
    (h : readRecordAfter read deliveries = (.ended discarded, rest)) : rest = [] := by
  fun_induction readRecordAfter read deliveries with
  | case1 | case3 => cases h
  | case2 read deliveries rest' hl =>
    cases h
    rcases Delivery.isLine_of_readLine hl with ⟨front, -, hline⟩ | ⟨-, hrest⟩
    · exact absurd hline.symm (List.append_ne_nil_of_right_ne_nil _ (List.cons_ne_nil _ _))
    · exact hrest
  | case4 read deliveries b line rest' hl hs ih => exact ih h

theorem log_readTimes (times : Nat) (deliveries : List Delivery) :
    (readTimes times deliveries).log
      = (readTimes times deliveries).value.flatMap RecordReading.notices := by
  induction times generalizing deliveries with
  | zero => rfl
  | succ times ih =>
    simp [readTimes, ih]

theorem value_readTimes_nil (times : Nat) :
    (readTimes times []).value = List.replicate times (.ended 0) := by
  induction times with
  | zero => rfl
  | succ times ih =>
    have hr : readRecord [] = (.ended 0, []) := readRecordAfter_of_end rfl
    rw [readTimes_succ hr, ih, List.replicate_succ]

theorem take_append_replicate_succ {α : Type} (xs : List α) (x : α) (n : Nat) :
    (xs ++ List.replicate (n + 1) x).take n = (xs ++ List.replicate n x).take n := by
  rw [List.take_append, List.take_append, List.take_replicate, List.take_replicate]
  congr 2
  omega

/-- Behind the end of a stream, reading meets the end again and nothing in front of it. -/
theorem value_readTimes (times : Nat) (deliveries : List Delivery) :
    (readTimes times deliveries).value
      = (readings deliveries ++ List.replicate times (RecordReading.ended 0)).take times := by
  induction times generalizing deliveries with
  | zero => rfl
  | succ times ih =>
    rcases hr : readRecord deliveries with ⟨reading, rest⟩
    rw [readTimes_succ hr]
    cases reading with
    | ended discarded =>
      obtain rfl := rest_of_ended hr
      rw [readings_of_ended hr, value_readTimes_nil, List.singleton_append, List.take_succ_cons,
        List.take_replicate, Nat.min_eq_left (Nat.le_succ times)]
    | record raw =>
      rw [readings_of_record hr, ih, List.cons_append, List.take_succ_cons,
        take_append_replicate_succ]
    | fault fault =>
      rw [readings_of_fault hr, ih, List.cons_append, List.take_succ_cons,
        take_append_replicate_succ]

theorem notices_ended_again (more : Nat) :
    (List.replicate more (RecordReading.ended 0)).flatMap RecordReading.notices = [] := by
  rw [List.flatMap_eq_nil_iff]
  intro reading h
  rw [List.eq_of_mem_replicate h]
  rfl

/-- Only the end that is met first may leave something out, and this is reported when it is met. -/
theorem notices_take (raws : List Bytes) (discarded times more : Nat) :
    ((raws.map RecordReading.record ++ RecordReading.ended discarded ::
        List.replicate more (RecordReading.ended 0)).take times).flatMap RecordReading.notices
      = if raws.length < times ∧ discarded ≠ 0 then [.discardedTail discarded] else [] := by
  induction raws generalizing times with
  | nil =>
    cases times with
    | zero => simp
    | succ times =>
      rw [List.map_nil, List.nil_append, List.take_succ_cons, List.take_replicate,
        List.flatMap_cons, notices_ended_again]
      by_cases hd : discarded = 0 <;> simp [RecordReading.notices, hd]
  | cons raw raws ih =>
    cases times with
    | zero => simp
    | succ times =>
      rw [List.map_cons, List.cons_append, List.take_succ_cons, List.flatMap_cons, ih]
      simp [RecordReading.notices]

/-- **Reading a stream yields what stands between its separator lines.** -/
theorem readTimes_layout {deliveries : List Delivery} {bytes : Bytes}
    (h : Delivery.FaultFree deliveries) (hc : Delivery.contents deliveries = bytes) :
    ∃ places raws discarded, Layout bytes places raws discarded ∧ raws.length = places.length ∧
      readings deliveries = raws.map .record ++ [.ended discarded] ∧
      ∀ times,
        (readTimes times deliveries).value =
          (raws.map RecordReading.record ++ RecordReading.ended discarded ::
            List.replicate times (RecordReading.ended 0)).take times ∧
        (readTimes times deliveries).log =
          if places.length < times ∧ discarded ≠ 0 then [.discardedTail discarded] else [] := by
  obtain ⟨places, raws, discarded, hlayout, hcut⟩ := exists_layout bytes
  have hreadings : readings deliveries = raws.map .record ++ [.ended discarded] := by
    rw [readings_faultFree h, hc, hcut]
  refine ⟨places, raws, discarded, hlayout, hlayout.length_eq, hreadings, fun times => ?_⟩
  have hvalue : (readTimes times deliveries).value =
      (raws.map RecordReading.record ++ RecordReading.ended discarded ::
        List.replicate times (RecordReading.ended 0)).take times := by
    rw [value_readTimes, hreadings, List.append_assoc, List.singleton_append]
  refine ⟨hvalue, ?_⟩
  rw [log_readTimes, hvalue, notices_take, hlayout.length_eq]

/-- A capture that opens with a separator line and holds the separator inside a line, in front of a
carriage return, and on two lines behind each other; one byte stands behind the last of these. -/
def crowdedCapture : Bytes :=
  separator ++ [newline] ++ [0x61] ++ separator ++ [newline] ++ separator ++
    [carriageReturn, newline] ++ separator ++ [newline] ++ separator ++ [newline] ++ [0x62]

/-- Three separator lines end three records. -/
theorem readTimes_layout_of_crowded :
    ∃ places, Layout crowdedCapture places
        [[], [0x61] ++ separator ++ [newline] ++ separator ++ [carriageReturn], []] 1 ∧
      places.length = 3 ∧ (readTimes 3 [.portion crowdedCapture]).log = [] ∧
      (readTimes 9 [.portion crowdedCapture]).log = [.discardedTail 1] := by
  obtain ⟨places, raws, discarded, hlayout, hlength, hreadings, htimes⟩ :=
    readTimes_layout (Delivery.faultFree_portion crowdedCapture) (Delivery.contents_portion _)
  have hread : readings [.portion crowdedCapture] =
      [[], [0x61] ++ separator ++ [newline] ++ separator ++ [carriageReturn], []].map .record
        ++ [.ended 1] := by
    decide +kernel
  rw [hread] at hreadings
  have hraws := congrArg rawsOf hreadings
  rw [rawsOf_records, rawsOf_records] at hraws
  subst hraws
  cases List.append_cancel_left hreadings
  refine ⟨places, hlayout, hlength.symm, ?_, ?_⟩
  · rw [(htimes 3).2, ← hlength]
    rfl
  · rw [(htimes 9).2, ← hlength]
    rfl

end Framing

end TrafficReplay
