/-
# Written records

An `Entry` is what the writer of a capture has: the parts of a record before they are bytes.
`Entry.bytes` writes them down, and reading a capture of framed entries gives the parts of each
entry back (`Entry.readings_frames`). Decimal numbers, fields, the first line and the framing are
undone one after the other, each by its own lemma.
-/
import TrafficReplay.Proofs.Decimal.Signed
import TrafficReplay.Proofs.Record.NormalForm
import TrafficReplay.Record.Metadata

namespace TrafficReplay

/-- The field neither ends early nor breaks the line. -/
def Plain (field : Bytes) : Prop :=
  blank ∉ field ∧ newline ∉ field

instance (field : Bytes) : Decidable (Plain field) :=
  inferInstanceAs (Decidable (_ ∧ _))

/-- The parts of a record: the first field, which begins with the tag, then the id, the time of
capture and more fields, which may be empty, whether a carriage return stands behind them, and all
that comes behind the first line. -/
structure Entry where
  tag : UInt8
  label : Bytes
  id : String
  timestamp : Int
  extras : List Bytes
  returned : Bool
  body : Bytes
  plain_first : Plain (tag :: label)
  plain_id : Plain (Utf8.encode id)
  plain_extras : ∀ extra ∈ extras, Plain extra
  id_ne : id ≠ ""
  minTimestamp_le : Decimal.minTimestamp ≤ timestamp
  le_maxTimestamp : timestamp ≤ Decimal.maxTimestamp
  body_whole : Framing.separator ∉ Framing.payloadLines body

namespace Entry

def first (entry : Entry) : Bytes :=
  entry.tag :: entry.label

def fields (entry : Entry) : List Bytes :=
  entry.first :: Utf8.encode entry.id :: Decimal.written entry.timestamp :: entry.extras

def opening (entry : Entry) : Bytes :=
  [blank].intercalate entry.fields ++ if entry.returned then [carriageReturn] else []

def bytes (entry : Entry) : Bytes :=
  entry.opening ++ newline :: entry.body

def record (entry : Entry) : Record :=
  ⟨⟨Kind.ofTag entry.tag, entry.id, entry.timestamp⟩, entry.bytes⟩

variable (entry : Entry)

theorem intercalate_cons {α : Type} (a : α) (first : List α) (others : List (List α)) :
    [a].intercalate (first :: others) = first ++ others.flatMap (a :: ·) := by
  induction others generalizing first with
  | nil => simp
  | cons other others ih => rw [List.intercalate_cons_cons, ih]; simp

theorem plain_written (n : Int) : Plain (Decimal.written n) := by
  constructor
  · intro h
    rcases Decimal.mem_written h with h | h <;> exact absurd h (by decide)
  · intro h
    rcases Decimal.mem_written h with h | h <;> exact absurd h (by decide)

theorem plain_of_mem_fields {field : Bytes} (h : field ∈ entry.fields) : Plain field := by
  rw [fields, List.mem_cons, List.mem_cons, List.mem_cons] at h
  rcases h with rfl | rfl | rfl | h
  · exact entry.plain_first
  · exact entry.plain_id
  · exact plain_written _
  · exact entry.plain_extras field h

/-! ## The first line -/

def essence : Bytes :=
  entry.first ++ blank :: (Utf8.encode entry.id ++ blank :: Decimal.written entry.timestamp)

def remainder : Bytes :=
  entry.extras.flatMap (blank :: ·) ++ if entry.returned then [carriageReturn] else []

theorem opening_eq : entry.opening = entry.essence ++ entry.remainder := by
  rw [opening, fields, intercalate_cons, essence, remainder]
  simp

theorem newline_not_mem_opening : newline ∉ entry.opening := by
  have hfield : ∀ field ∈ entry.fields, newline ∉ field :=
    fun field hmem => (entry.plain_of_mem_fields hmem).2
  rw [opening, fields, intercalate_cons, List.mem_append, List.mem_append, List.mem_flatMap]
  rintro ((h | ⟨field, hmem, h⟩) | h)
  · exact hfield _ List.mem_cons_self h
  · rcases List.mem_cons.mp h with h | h
    · exact absurd h (by decide)
    · exact hfield field (List.mem_cons_of_mem _ hmem) h
  · split at h
    · exact absurd h (by decide)
    · cases h

theorem getLast?_essence_ne : entry.essence.getLast? ≠ some carriageReturn := by
  intro h
  have hsplit : entry.essence
      = (entry.first ++ blank :: Utf8.encode entry.id ++ [blank])
        ++ Decimal.written entry.timestamp := by
    simp [essence]
  rw [hsplit, List.getLast?_append_of_ne_nil _ (Decimal.written_ne_nil _)] at h
  rcases Decimal.mem_written (List.mem_of_getLast? h) with h | h <;> exact absurd h (by decide)

def withoutReturn (line : Bytes) : Bytes :=
  if line.getLast? = some carriageReturn then line.dropLast else line

theorem withoutReturn_append_cons (front : Bytes) {b : UInt8} (hb : b ≠ carriageReturn)
    (rest : Bytes) : ∃ rest', withoutReturn (front ++ b :: rest) = front ++ b :: rest' := by
  rw [withoutReturn]
  split
  · next hlast =>
    cases rest with
    | nil =>
      rw [List.getLast?_concat] at hlast
      exact absurd (Option.some.inj hlast) hb
    | cons c rest => exact ⟨(c :: rest).dropLast, by rw [List.dropLast_append_cons]; rfl⟩
  · exact ⟨rest, rfl⟩

/-- Without a carriage return at its end, the first line holds the first three fields, and only
behind a blank more. -/
theorem exists_line : ∃ more, (more = [] ∨ ∃ others, more = blank :: others) ∧
    Metadata.line entry.bytes = entry.essence ++ more := by
  have htake : entry.bytes.takeWhile (· ≠ newline) = entry.opening := by
    rw [bytes, List.takeWhile_append_of_pos (all_ne_newline entry.newline_not_mem_opening)]
    simp
  have hline : Metadata.line entry.bytes = withoutReturn (entry.essence ++ entry.remainder) := by
    rw [Metadata.line, htake, opening_eq]
    rfl
  rw [hline, remainder]
  -- the carriage return that is dropped may be that of the last extra field, never one in front
  cases entry.extras with
  | nil =>
    refine ⟨[], .inl rfl, ?_⟩
    rw [List.flatMap_nil, List.nil_append, withoutReturn]
    split
    · rw [List.getLast?_concat, if_pos rfl, List.dropLast_concat, List.append_nil]
    · rw [List.append_nil, if_neg entry.getLast?_essence_ne]
  | cons extra extras =>
    have hb : blank ≠ carriageReturn := by decide
    obtain ⟨others, hothers⟩ := withoutReturn_append_cons entry.essence hb _
    exact ⟨blank :: others, .inr ⟨others, rfl⟩, hothers⟩

/-! ## The fields -/

theorem runs_of_plain {field : Bytes} (hne : field ≠ []) (h : Plain field) :
    runs (· = blank) field = [field] := by
  refine runs_eq_singleton hne fun b hb => decide_eq_false ?_
  rintro rfl
  exact h.1 hb

theorem exists_fields : ∃ more, Metadata.fields entry.bytes
    = entry.first :: Utf8.encode entry.id :: Decimal.written entry.timestamp :: more := by
  obtain ⟨more, hmore, hline⟩ := entry.exists_line
  have hid : Utf8.encode entry.id ≠ [] := fun h => entry.id_ne (Utf8.encode_eq_nil_iff.mp h)
  have hruns : ∀ front rest, runs (· = blank) (front ++ blank :: rest)
      = runs (· = blank) front ++ runs (· = blank) rest :=
    fun front rest => @runs_append_cons _ (· = blank) blank (decide_eq_true rfl) front rest
  have htime := runs_of_plain (Decimal.written_ne_nil _) (plain_written entry.timestamp)
  have hrest : ∃ others, runs (· = blank) (Decimal.written entry.timestamp ++ more)
      = Decimal.written entry.timestamp :: others := by
    rcases hmore with rfl | ⟨others, rfl⟩
    · exact ⟨[], by rw [List.append_nil, htime]⟩
    · exact ⟨runs (· = blank) others, by rw [hruns, htime]; rfl⟩
  obtain ⟨others, hothers⟩ := hrest
  refine ⟨others, ?_⟩
  have hfirst : runs (· = blank) entry.first = [entry.first] :=
    runs_of_plain (List.cons_ne_nil _ _) entry.plain_first
  rw [Metadata.fields, hline, essence, List.append_assoc, List.cons_append, hruns,
    List.append_assoc, List.cons_append, hruns, hothers, hfirst, runs_of_plain hid entry.plain_id]
  rfl

theorem parse_bytes : Record.parse entry.bytes = ⟨entry.record, []⟩ := by
  obtain ⟨more, hfields⟩ := entry.exists_fields
  have htime : Metadata.timestampOf? (Metadata.fields entry.bytes) = some entry.timestamp := by
    rw [hfields]
    exact Decimal.timestamp?_written entry.minTimestamp_le entry.le_maxTimestamp
  have hid : Metadata.idOf (Metadata.fields entry.bytes) = entry.id := by
    rw [hfields]
    exact Utf8.decodeLossy_encode entry.id
  have hkind : Metadata.kindOf (Metadata.fields entry.bytes) = Kind.ofTag entry.tag := by
    rw [hfields]
    rfl
  have hmetadata : Metadata.ofBytes entry.bytes
      = ⟨Kind.ofTag entry.tag, entry.id, entry.timestamp⟩ := by
    rw [Metadata.ofBytes]
    simp only [htime, hid, hkind]
    rfl
  have hnotices : Metadata.notices entry.bytes = [] := by
    rw [Metadata.notices]
    simp only [htime]
  rw [Record.parse, hnotices, Record.ofBytes, hmetadata]
  rfl

/-! ## The framing -/

theorem separator_not_mem_payloadLines :
    Framing.separator ∉ Framing.payloadLines entry.bytes := by
  have hblank : blank ∈ entry.opening := by
    rw [opening_eq, essence]
    simp
  rw [bytes, Framing.payloadLines_append_newline,
    Framing.payloadLines_eq_singleton entry.newline_not_mem_opening, List.mem_append,
    List.mem_singleton]
  rintro (h | h)
  · rw [← h] at hblank
    exact absurd hblank (by decide)
  · exact entry.body_whole h

/-- **Written records come back with all their parts**, however the stream hands its bytes over: the
kind and the tag in it, the id, the time, and the bytes as they were, in order and with nothing to
report. -/
theorem readings_frames {deliveries : List Delivery} {entries : List Entry}
    (h : Delivery.FaultFree deliveries)
    (hc : Delivery.contents deliveries = entries.flatMap fun entry => Framing.frame entry.bytes) :
    Framing.readings deliveries = entries.map (fun entry => .record entry.bytes) ++ [.ended 0] ∧
    (Framing.readings deliveries).flatMap RecordReading.notices = [] ∧
    ((Framing.readings deliveries).filterMap RecordReading.raw?).map Record.parse
      = entries.map (fun entry => ⟨⟨⟨Kind.ofTag entry.tag, entry.id, entry.timestamp⟩, entry.bytes⟩,
        []⟩) ∧
    ∀ entry ∈ entries, (Kind.ofTag entry.tag).tag = entry.tag := by
  have hwhole : ∀ payload ∈ entries.map bytes,
      Framing.separator ∉ Framing.payloadLines payload := by
    intro payload hmem
    obtain ⟨entry, -, rfl⟩ := List.mem_map.mp hmem
    exact entry.separator_not_mem_payloadLines
  have hframes : entries.flatMap (fun entry => Framing.frame entry.bytes)
      = (entries.map bytes).flatMap Framing.frame := by
    rw [List.flatMap_map]
  have hreadings : Framing.readings deliveries
      = (entries.map bytes).map .record ++ [.ended 0] := by
    rw [Framing.readings_faultFree h, hc, hframes, Framing.cut_frames hwhole]
  refine ⟨?_, ?_, ?_, fun entry _ => Kind.tag_ofTag entry.tag⟩
  · rw [hreadings, List.map_map]
    rfl
  · rw [List.flatMap_eq_nil_iff]
    intro reading hmem
    rw [hreadings, List.mem_append, List.mem_map, List.mem_singleton] at hmem
    rcases hmem with ⟨raw, -, rfl⟩ | rfl
    · rfl
    · rfl
  · rw [Framing.filterMap_readings h, hc, hframes, Framing.split_flatMap_frame hwhole, List.map_map]
    exact List.map_congr_left fun entry _ => entry.parse_bytes

/-- An entry at the earliest time, with an id of more than one byte, an empty field, one that is a
carriage return, and a body that almost holds a separator. -/
def lowest : Entry where
  tag := 0x31
  label := []
  id := "é"
  timestamp := Decimal.minTimestamp
  extras := [[], [carriageReturn]]
  returned := true
  body := Framing.separator ++ [carriageReturn]
  plain_first := by decide
  plain_id := by decide +kernel
  plain_extras := by decide
  id_ne := by decide
  minTimestamp_le := by decide
  le_maxTimestamp := by decide
  body_whole := by decide

/-- An entry at the latest time, of a kind of its own, without a body. -/
def highest : Entry where
  tag := 0xFF
  label := [0x31]
  id := "b"
  timestamp := Decimal.maxTimestamp
  extras := []
  returned := false
  body := []
  plain_first := by decide
  plain_id := by decide +kernel
  plain_extras := by decide
  id_ne := by decide
  minTimestamp_le := by decide
  le_maxTimestamp := by decide
  body_whole := by decide

theorem readings_frames_of_extremes :
    ((Framing.readings [.portion (Framing.frame lowest.bytes), .interrupted,
        .portion (Framing.frame highest.bytes)]).filterMap RecordReading.raw?).map Record.parse
      = [⟨⟨⟨.request, "é", -9223372036854775808⟩, lowest.bytes⟩, []⟩,
        ⟨⟨⟨.other 0xFF, "b", 9223372036854775807⟩, highest.bytes⟩, []⟩] :=
  (@readings_frames [.portion (Framing.frame lowest.bytes), .interrupted,
    .portion (Framing.frame highest.bytes)] [lowest, highest] (by decide) rfl).2.2.1

end Entry

end TrafficReplay
