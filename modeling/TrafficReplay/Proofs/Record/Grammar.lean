/-
# What the first line of a record says

The grammar of metadata, told without the reader. `Metadata.LineOf` says which bytes of a record are
its first line, `Metadata.FieldsOf` which stretches of a line are its fields, and `Metadata.Says`
what fields mean and what is to be reported about them. Any bytes have one first line, any line one
list of fields, and fields one meaning, and this is what reading a record comes to
(`Metadata.ofBytes_grammar`).
-/
import TrafficReplay.Proofs.Decimal.Numerals
import TrafficReplay.Proofs.Record.Lines
import TrafficReplay.Record.Metadata

namespace TrafficReplay

/-! ## Runs between blanks -/

section Runs

variable {gap field rest : Bytes}

theorem runs_append_of_blank (h : ∀ b ∈ gap, b = blank) :
    runs (· = blank) (gap ++ rest) = runs (· = blank) rest := by
  induction gap with
  | nil => rfl
  | cons b gap ih =>
    have hblank : b = blank := h b List.mem_cons_self
    have hruns := @runs_append_cons _ (· = blank) blank (decide_eq_true rfl) [] (gap ++ rest)
    rw [hblank, List.cons_append]
    exact hruns.trans (ih fun c hc => h c (List.mem_cons_of_mem _ hc))

theorem runs_append_of_field (hne : field ≠ []) (hfield : blank ∉ field)
    (hrest : rest = [] ∨ rest.head? = some blank) :
    runs (· = blank) (field ++ rest) = field :: runs (· = blank) rest := by
  have hrun : runs (· = blank) field = [field] := by
    refine runs_eq_singleton hne fun b hb => decide_eq_false ?_
    rintro rfl
    exact hfield hb
  cases rest with
  | nil => rw [List.append_nil, hrun]; rfl
  | cons b more =>
    obtain rfl : b = blank := Option.some.inj (hrest.resolve_left (List.cons_ne_nil _ _))
    have hfront := @runs_append_cons _ (· = blank) blank (decide_eq_true rfl) field more
    have hback := @runs_append_cons _ (· = blank) blank (decide_eq_true rfl) [] more
    rw [List.nil_append] at hback
    rw [hfront, hrun, hback]
    rfl

end Runs

namespace Metadata

/-! ## The first line -/

/-- The bytes in front of the first line break, or all of them, without one carriage return if they
end with one. -/
def LineOf (raw line : Bytes) : Prop :=
  ∃ front, newline ∉ front ∧ (raw = front ∨ ∃ rest, raw = front ++ newline :: rest) ∧
    (front = line ++ [carriageReturn] ∨ front = line ∧ line.getLast? ≠ some carriageReturn)

theorem takeWhile_ne_newline {raw front : Bytes} (h : newline ∉ front)
    (hraw : raw = front ∨ ∃ rest, raw = front ++ newline :: rest) :
    raw.takeWhile (· ≠ newline) = front := by
  rcases hraw with rfl | ⟨rest, rfl⟩
  · exact List.takeWhile_eq_self_iff.mpr (all_ne_newline h)
  · rw [List.takeWhile_append_of_pos (all_ne_newline h)]
    simp

theorem exists_front (raw : Bytes) :
    newline ∉ raw.takeWhile (· ≠ newline) ∧ (raw = raw.takeWhile (· ≠ newline) ∨
      ∃ rest, raw = raw.takeWhile (· ≠ newline) ++ newline :: rest) := by
  by_cases hmem : newline ∈ raw
  · obtain ⟨front, rest, hraw, hn⟩ := List.eq_append_cons_of_mem hmem
    rw [takeWhile_ne_newline hn (.inr ⟨rest, hraw⟩)]
    exact ⟨hn, .inr ⟨rest, hraw⟩⟩
  · rw [takeWhile_ne_newline hmem (.inl rfl)]
    exact ⟨hmem, .inl rfl⟩

/-- **A record has one first line.** -/
theorem lineOf_iff {raw line : Bytes} : LineOf raw line ↔ Metadata.line raw = line := by
  constructor
  · rintro ⟨front, hn, hraw, hline⟩
    rw [Metadata.line, takeWhile_ne_newline hn hraw]
    rcases hline with rfl | ⟨rfl, hlast⟩
    · rw [if_pos List.getLast?_concat, List.dropLast_concat]
    · exact if_neg hlast
  · rintro rfl
    obtain ⟨hn, hraw⟩ := exists_front raw
    refine ⟨_, hn, hraw, ?_⟩
    rw [Metadata.line]
    split
    · next hlast => exact .inl (List.dropLast_append_getLast? carriageReturn hlast).symm
    · next hlast => exact .inr ⟨rfl, hlast⟩

/-! ## The fields -/

/-- The fields of a line: stretches without blanks that are as long as can be, with nothing but
blanks in front of them, between them and behind them. -/
inductive FieldsOf : Bytes → List Bytes → Prop
  | none {gap : Bytes} : (∀ b ∈ gap, b = blank) → FieldsOf gap []
  | field {gap field rest : Bytes} {fields : List Bytes} : (∀ b ∈ gap, b = blank) → field ≠ [] →
      blank ∉ field → (rest = [] ∨ rest.head? = some blank) → FieldsOf rest fields →
      FieldsOf (gap ++ (field ++ rest)) (field :: fields)

theorem FieldsOf.runs_eq {line : Bytes} {fields : List Bytes} (h : FieldsOf line fields) :
    runs (· = blank) line = fields := by
  induction h with
  | @none gap hgap =>
    have hruns := @runs_append_of_blank gap [] hgap
    rw [List.append_nil] at hruns
    exact hruns
  | field hgap hne hfield hrest _ ih =>
    rw [runs_append_of_blank hgap, runs_append_of_field hne hfield hrest, ih]

theorem FieldsOf.ne_nil {line : Bytes} {fields : List Bytes} (h : FieldsOf line fields) :
    ∀ field ∈ fields, field ≠ [] := by
  induction h with
  | none _ => exact fun field hmem => absurd hmem List.not_mem_nil
  | field _ hne _ _ _ ih =>
    intro other hmem
    rcases List.mem_cons.mp hmem with rfl | hmem
    · exact hne
    · exact ih other hmem

theorem head?_of_blank {gap : Bytes} (h : ∀ b ∈ gap, b = blank) :
    gap = [] ∨ gap.head? = some blank := by
  cases gap with
  | nil => exact .inl rfl
  | cons b gap => exact .inr (congrArg some (h b List.mem_cons_self))

theorem FieldsOf.cons_blank {line : Bytes} {fields : List Bytes} (h : FieldsOf line fields) :
    FieldsOf (blank :: line) fields := by
  have hgrown : ∀ {gap : Bytes}, (∀ b ∈ gap, b = blank) → ∀ b ∈ blank :: gap, b = blank := by
    intro gap hgap b hb
    rcases List.mem_cons.mp hb with rfl | hmem
    · rfl
    · exact hgap b hmem
  cases h with
  | none hgap => exact .none (hgrown hgap)
  | field hgap hne hfield hrest hfields => exact .field (hgrown hgap) hne hfield hrest hfields

/-- A byte in front of a line goes to the first field if that one begins the line; otherwise it is a
field of its own. -/
theorem FieldsOf.exists_cons {b : UInt8} {line : Bytes} {fields : List Bytes} (hb : b ≠ blank)
    (h : FieldsOf line fields) : ∃ fields, FieldsOf (b :: line) fields := by
  have hnone : ∀ b ∈ ([] : Bytes), b = blank := by
    intro b hb
    exact absurd hb List.not_mem_nil
  have hsingle : blank ∉ [b] := by
    intro hmem
    exact hb (List.mem_singleton.mp hmem).symm
  cases h with
  | none hgap =>
    exact ⟨_, .field hnone (List.cons_ne_nil b []) hsingle (head?_of_blank hgap) (.none hgap)⟩
  | @field gap field rest fields hgap hne hfield hrest hfields =>
    cases gap with
    | nil =>
      have hlonger : blank ∉ b :: field := List.not_mem_cons_of_ne_of_not_mem (Ne.symm hb) hfield
      exact ⟨_, .field hnone (List.cons_ne_nil b field) hlonger hrest hfields⟩
    | cons c gap =>
      have hhead : (c :: gap ++ (field ++ rest)).head? = some blank :=
        congrArg some (hgap c List.mem_cons_self)
      exact ⟨_, .field hnone (List.cons_ne_nil b []) hsingle (.inr hhead)
        (.field hgap hne hfield hrest hfields)⟩

theorem exists_fieldsOf (line : Bytes) : ∃ fields, FieldsOf line fields := by
  induction line with
  | nil => exact ⟨[], .none fun b hb => absurd hb List.not_mem_nil⟩
  | cons b line ih =>
    obtain ⟨fields, h⟩ := ih
    by_cases hb : b = blank
    · rw [hb]
      exact ⟨fields, h.cons_blank⟩
    · exact h.exists_cons hb

/-- **A line has one list of fields.** -/
theorem fieldsOf_iff {line : Bytes} {fields : List Bytes} :
    FieldsOf line fields ↔ runs (· = blank) line = fields := by
  constructor
  · exact FieldsOf.runs_eq
  · rintro rfl
    obtain ⟨fields, h⟩ := exists_fieldsOf line
    rw [h.runs_eq]
    exact h

theorem fieldsOf_fields (raw : Bytes) : FieldsOf (Metadata.line raw) (Metadata.fields raw) :=
  fieldsOf_iff.mpr rfl

/-! ## What the fields mean -/

/-- The third field writes a number that 64 bits with a sign can hold. -/
def Dated (fields : List Bytes) (time : Int) : Prop :=
  ∃ field, fields[2]? = some field ∧ Decimal.Numeral field time ∧ -2 ^ 63 ≤ time ∧ time ≤ 2 ^ 63 - 1

/-- What fields say, and what is to be reported about them. -/
structure Says (fields : List Bytes) (metadata : Metadata) (events : List Event) : Prop where
  kind : ∀ tag label, fields[0]? = some (tag :: label) → metadata.kind = Kind.ofTag tag
  no_kind : fields[0]? = none → metadata.kind = .other 0
  id : ∀ field, fields[1]? = some field → metadata.id = Utf8.decodeLossy field
  no_id : fields[1]? = none → metadata.id = ""
  dated : ∀ time, Dated fields time → metadata.timestamp = time ∧ events = []
  undated : (¬∃ time, Dated fields time) → metadata.timestamp = 0
  malformed : ∀ field, fields[2]? = some field → (¬∃ time, Dated fields time) →
    events = [.malformedTimestamp (Utf8.decodeLossy field)]
  missing : fields[2]? = none → events = [.missingTimestamp metadata.id]
  warned : ∀ event ∈ events, event.level = .warn

theorem timestampOf?_eq_some_iff {fields : List Bytes} {time : Int} :
    timestampOf? fields = some time ↔ Dated fields time := by
  rw [timestampOf?, Option.bind_eq_some_iff, Dated]
  simp only [Decimal.timestamp?_eq_some_iff]

theorem timestampOf?_eq_none_iff {fields : List Bytes} :
    timestampOf? fields = none ↔ ¬∃ time, Dated fields time := by
  simp only [Option.eq_none_iff_forall_ne_some, ← timestampOf?_eq_some_iff, not_exists, ne_eq]

theorem not_dated_of_missing {fields : List Bytes} (h : fields[2]? = none) :
    ¬∃ time, Dated fields time := by
  rintro ⟨time, field, hfield, -⟩
  rw [h] at hfield
  cases hfield

theorem says_fields (raw : Bytes) :
    Says (Metadata.fields raw) (Metadata.ofBytes raw) (Metadata.notices raw) := by
  rw [Metadata.ofBytes, Metadata.notices]
  generalize Metadata.fields raw = fields
  refine
    { kind := fun tag label h => ?_
      no_kind := fun h => ?_
      id := fun field h => ?_
      no_id := fun h => ?_
      dated := fun time h => ?_
      undated := fun h => ?_
      malformed := fun field hfield h => ?_
      missing := fun h => ?_
      warned := fun event h => ?_ }
  · simp [kindOf, List.head?_eq_getElem?, h]
  · simp [kindOf, List.head?_eq_getElem?, h]
  · simp [idOf, h]
  · simp [idOf, h]
  · simp [timestampOf?_eq_some_iff.mpr h]
  · simp [timestampOf?_eq_none_iff.mpr h]
  · simp [timestampOf?_eq_none_iff.mpr h, hfield]
  · simp [timestampOf?_eq_none_iff.mpr (not_dated_of_missing h), h]
  · split at h
    · cases h
    · rw [List.mem_singleton.mp h]
      rfl
    · rw [List.mem_singleton.mp h]
      rfl

/-! ## One meaning -/

section Unique

variable {fields others : List Bytes} {metadata metadata' : Metadata} {events events' : List Event}

theorem getElem?_of_take_eq (hsame : fields.take 3 = others.take 3) {place : Nat} (h : place < 3) :
    fields[place]? = others[place]? := by
  rw [← List.getElem?_take_of_lt h, hsame, List.getElem?_take_of_lt h]

theorem Says.kind_eq (h : Says fields metadata events) (h' : Says others metadata' events')
    (hne : ∀ field ∈ fields, field ≠ []) (hsame : fields[0]? = others[0]?) :
    metadata.kind = metadata'.kind := by
  rcases hfirst : fields[0]? with _ | first
  · rw [h.no_kind hfirst, h'.no_kind (hsame.symm.trans hfirst)]
  · obtain ⟨tag, label, rfl⟩ := List.exists_cons_of_ne_nil (hne first (List.mem_of_getElem? hfirst))
    rw [h.kind tag label hfirst, h'.kind tag label (hsame.symm.trans hfirst)]

theorem Says.id_eq (h : Says fields metadata events) (h' : Says others metadata' events')
    (hsame : fields[1]? = others[1]?) : metadata.id = metadata'.id := by
  rcases hsecond : fields[1]? with _ | second
  · rw [h.no_id hsecond, h'.no_id (hsame.symm.trans hsecond)]
  · rw [h.id second hsecond, h'.id second (hsame.symm.trans hsecond)]

/-- The third field tells the time and what is to be reported; only when it is missing does the id
show in a report. -/
theorem Says.timestamp_eq (h : Says fields metadata events) (h' : Says others metadata' events')
    (hsame : fields[2]? = others[2]?) (hid : metadata.id = metadata'.id) :
    metadata.timestamp = metadata'.timestamp ∧ events = events' := by
  have hdated : ∀ time, Dated fields time ↔ Dated others time := by
    intro time
    rw [Dated, Dated, hsame]
  by_cases hd : ∃ time, Dated fields time
  · obtain ⟨time, htime⟩ := hd
    obtain ⟨ht, he⟩ := h.dated time htime
    obtain ⟨ht', he'⟩ := h'.dated time ((hdated time).mp htime)
    exact ⟨ht.trans ht'.symm, he.trans he'.symm⟩
  · have hd' : ¬∃ time, Dated others time := by simpa only [hdated] using hd
    refine ⟨(h.undated hd).trans (h'.undated hd').symm, ?_⟩
    rcases hthird : fields[2]? with _ | third
    · rw [h.missing hthird, h'.missing (hsame.symm.trans hthird), hid]
    · rw [h.malformed third hthird hd, h'.malformed third (hsame.symm.trans hthird) hd']

theorem Says.unique (h : Says fields metadata events) (h' : Says others metadata' events')
    (hne : ∀ field ∈ fields, field ≠ []) (hsame : fields.take 3 = others.take 3) :
    metadata = metadata' ∧ events = events' := by
  have hkind := h.kind_eq h' hne (getElem?_of_take_eq hsame (by decide))
  have hid := h.id_eq h' (getElem?_of_take_eq hsame (by decide))
  obtain ⟨htimestamp, hevents⟩ := h.timestamp_eq h' (getElem?_of_take_eq hsame (by decide)) hid
  cases metadata
  cases metadata'
  cases hkind
  cases hid
  cases htimestamp
  exact ⟨rfl, hevents⟩

end Unique

theorem ofBytes_iff_says {raw : Bytes} {metadata : Metadata} {events : List Event} :
    Metadata.ofBytes raw = metadata ∧ Metadata.notices raw = events ↔
      ∃ line fields, LineOf raw line ∧ FieldsOf line fields ∧ Says fields metadata events := by
  constructor
  · rintro ⟨rfl, rfl⟩
    exact ⟨Metadata.line raw, Metadata.fields raw, lineOf_iff.mpr rfl, fieldsOf_fields raw,
      says_fields raw⟩
  · rintro ⟨line, fields, hline, hfields, hsays⟩
    have hread := says_fields raw
    rw [Metadata.fields, lineOf_iff.mp hline, fieldsOf_iff.mp hfields] at hread
    exact hread.unique hsays hfields.ne_nil rfl

theorem ofBytes_congr {raw other line line' : Bytes} {fields fields' : List Bytes}
    (hline : LineOf raw line) (hline' : LineOf other line') (hfields : FieldsOf line fields)
    (hfields' : FieldsOf line' fields') (hsame : fields.take 3 = fields'.take 3) :
    Metadata.ofBytes raw = Metadata.ofBytes other ∧
      Metadata.notices raw = Metadata.notices other := by
  have hsays := says_fields raw
  have hsays' := says_fields other
  rw [Metadata.fields, lineOf_iff.mp hline, fieldsOf_iff.mp hfields] at hsays
  rw [Metadata.fields, lineOf_iff.mp hline', fieldsOf_iff.mp hfields'] at hsays'
  exact hsays.unique hsays' hfields.ne_nil hsame

theorem lineOf_append_newline {front line : Bytes} (h : newline ∉ front) (rest : Bytes)
    (hline : LineOf front line) : LineOf (front ++ newline :: rest) line := by
  obtain ⟨front', hn, hfront, hends⟩ := hline
  rcases hfront with rfl | ⟨more, rfl⟩
  · exact ⟨front, hn, .inr ⟨rest, rfl⟩, hends⟩
  · exact absurd (List.mem_append_right front' List.mem_cons_self) h

theorem ofBytes_append_newline {front : Bytes} (h : newline ∉ front) (rest : Bytes) :
    Metadata.ofBytes (front ++ newline :: rest) = Metadata.ofBytes front ∧
      Metadata.notices (front ++ newline :: rest) = Metadata.notices front := by
  have hfront : LineOf front (Metadata.line front) := lineOf_iff.mpr rfl
  exact ofBytes_congr (lineOf_append_newline h rest hfront) hfront (fieldsOf_fields front)
    (fieldsOf_fields front) rfl

/-- **Reading a record follows the grammar.** It has one first line and one list of fields; it is
read as metadata with some events just when its fields say so; and neither further fields nor
anything behind the first line break makes a difference. -/
theorem ofBytes_grammar (raw : Bytes) :
    (∃ line fields, ∀ line' fields',
      LineOf raw line' ∧ FieldsOf line' fields' ↔ line' = line ∧ fields' = fields) ∧
    (∀ metadata events, Metadata.ofBytes raw = metadata ∧ Metadata.notices raw = events ↔
      ∃ line fields, LineOf raw line ∧ FieldsOf line fields ∧ Says fields metadata events) ∧
    (∀ other line line' fields fields', LineOf raw line → LineOf other line' →
      FieldsOf line fields → FieldsOf line' fields' → fields.take 3 = fields'.take 3 →
      Metadata.ofBytes raw = Metadata.ofBytes other ∧
        Metadata.notices raw = Metadata.notices other) ∧
    ∀ front rest, newline ∉ front → raw = front ++ newline :: rest →
      Metadata.ofBytes raw = Metadata.ofBytes front ∧
        Metadata.notices raw = Metadata.notices front := by
  refine ⟨⟨Metadata.line raw, Metadata.fields raw, fun line' fields' => ?_⟩,
    fun metadata events => ofBytes_iff_says,
    fun other line line' fields fields' => ofBytes_congr, ?_⟩
  · rw [lineOf_iff, fieldsOf_iff, Metadata.fields]
    constructor
    · rintro ⟨rfl, rfl⟩
      exact ⟨rfl, rfl⟩
    · rintro ⟨rfl, rfl⟩
      exact ⟨rfl, rfl⟩
  · rintro front rest hn rfl
    exact ofBytes_append_newline hn rest

example : Metadata.ofBytes (Utf8.encode "  1  \t +0007 z\r\n2 b 5") = ⟨.request, "\t", 7⟩ := by
  decide +kernel

end Metadata

end TrafficReplay
