/-
# What an inspection prints

Nothing that is printed about a record breaks its line, not even an id, of which the bytes are the
capture's own: so there is one line for each record (`Inspection.lines_listing`). What an inspection
leaves behind is said by its ending and by what it has reported on the way
(`Inspection.exists_list_eq_outcome`), and the two numbers in its last words can be told from them
(`Inspection.reports_list_iff`).
-/
import TrafficReplay.CommandLine.Inspection
import TrafficReplay.Proofs.Calendar.Reading
import TrafficReplay.Proofs.CommandLine.Reports
import TrafficReplay.Proofs.Source.Contents

namespace TrafficReplay

namespace Kind

theorem head?_name_other (tag : UInt8) : (name (other tag)).toList.head? = some 'O' := by
  rw [name, String.toList_append, String.toList_append]
  rfl

theorem name_other_inj {tag tag' : UInt8} (h : name (other tag) = name (other tag')) :
    tag = tag' := by
  have hlist := congrArg String.toList h
  simp only [name, String.toList_append, List.append_assoc] at hlist
  have hnumber := List.append_cancel_right (List.append_cancel_left hlist)
  exact UInt8.toNat_inj.mp (toString_inj (String.toList_inj.mp hnumber))

theorem name_injective : Function.Injective name := by
  intro kind kind' h
  have hhead := congrArg (·.toList.head?) h
  cases kind with
  | request =>
    cases kind' with
    | request => rfl
    | response => exact absurd h (by decide)
    | other tag =>
      rw [head?_name_other] at hhead
      exact absurd hhead (by decide)
  | response =>
    cases kind' with
    | request => exact absurd h (by decide)
    | response => rfl
    | other tag =>
      rw [head?_name_other] at hhead
      exact absurd hhead (by decide)
  | other tag =>
    cases kind' with
    | request =>
      rw [head?_name_other] at hhead
      exact absurd hhead (by decide)
    | response =>
      rw [head?_name_other] at hhead
      exact absurd hhead (by decide)
    | other tag' => exact congrArg other (name_other_inj h)

theorem notMem_name {c : Char} (hc : c ∉ digitSigns)
    (hletters : c ∉ "RequestResponseOther()".toList)
    (kind : Kind) : c ∉ kind.name.toList := by
  have hsplit : "RequestResponseOther()".toList = "Request".toList ++ "Response".toList
      ++ "Other(".toList ++ ")".toList := rfl
  simp only [hsplit, List.mem_append, not_or] at hletters
  obtain ⟨⟨⟨hrequest, hresponse⟩, hopen⟩, hclose⟩ := hletters
  cases kind with
  | request => exact hrequest
  | response => exact hresponse
  | other tag =>
    simp only [name, String.toList_append, List.mem_append, hopen, hclose, notMem_toString hc,
      or_self, not_false_eq_true]

end Kind

namespace Metadata

theorem newline_notMem_line (raw : Bytes) : newline ∉ line raw := by
  have hfront : newline ∉ raw.takeWhile (· ≠ newline) := by
    intro h
    simpa using List.mem_takeWhile_imp h
  rw [line]
  split
  · exact fun h => hfront (List.mem_of_mem_dropLast h)
  · exact hfront

theorem newline_notMem_field {raw field : Bytes} (h : field ∈ fields raw) : newline ∉ field := by
  intro hmem
  exact newline_notMem_line raw (mem_of_mem_pieces (List.mem_filter.mp h).1 hmem)

theorem blank_notMem_field {raw field : Bytes} (h : field ∈ fields raw) : blank ∉ field := by
  intro hmem
  have hsign := not_isSeparator_of_mem_pieces (List.mem_filter.mp h).1 hmem
  exact absurd rfl (of_decide_eq_false hsign)

theorem notMem_id {b : UInt8} (hb : Utf8.IsPlain b) {raw : Bytes}
    (h : ∀ field ∈ fields raw, b ∉ field) : Char.ofNat b.toNat ∉ (ofBytes raw).id.toList := by
  show _ ∉ (((fields raw)[1]?.map Utf8.decodeLossy).getD "").toList
  cases hfield : (fields raw)[1]? with
  | none => exact List.not_mem_nil
  | some field => exact Utf8.notMem_decodeLossy hb (h field (List.mem_of_getElem? hfield))

end Metadata

namespace CommandLine

namespace Inspection

/-! ## Lines about records -/

/-- What the line about a record is made of: words, with a blank between each two of them. -/
def row (number : Nat) (kind : Kind) (id time : String) (length : Nat) (check : String) : String :=
  "#" ++ toString number ++ " type=" ++ kind.name ++ " id=" ++ id ++ " ts=" ++ time ++
    " len=" ++ toString length ++ " crc=" ++ check ++ "\n"

/-- The line tells this of a record: number, kind, id, time of capture and length. -/
def Tells (line : Bytes) (number : Nat) (kind : Kind) (id : String) (timestamp : Int)
    (length : Nat) : Prop :=
  ∃ time check, ' ' ∉ id.toList ∧ ' ' ∉ time.toList ∧ ' ' ∉ check.toList ∧
    Calendar.instant? time = some timestamp ∧
    line = Utf8.encode (row number kind id time length check)

theorem pieces_row {number length : Nat} {kind : Kind} {id time check : String}
    (hid : ' ' ∉ id.toList) (htime : ' ' ∉ time.toList) (hcheck : ' ' ∉ check.toList) :
    pieces (· = ' ') (row number kind id time length check).toList
      = ["#" ++ toString number, "type=" ++ kind.name, "id=" ++ id, "ts=" ++ time,
        "len=" ++ toString length, "crc=" ++ check ++ "\n"].map String.toList := by
  have htype : " type=".toList = ' ' :: "type=".toList := rfl
  have hidWord : " id=".toList = ' ' :: "id=".toList := rfl
  have htimeWord : " ts=".toList = ' ' :: "ts=".toList := rfl
  have hlength : " len=".toList = ' ' :: "len=".toList := rfl
  have hcheckWord : " crc=".toList = ' ' :: "crc=".toList := rfl
  have hrow : (row number kind id time length check).toList
      = ("#" ++ toString number).toList ++ ' ' :: (("type=" ++ kind.name).toList ++ ' ' ::
        (("id=" ++ id).toList ++ ' ' :: (("ts=" ++ time).toList ++ ' ' ::
        (("len=" ++ toString length).toList ++ ' ' :: ("crc=" ++ check ++ "\n").toList)))) := by
    simp only [row, String.toList_append, htype, hidWord, htimeWord, hlength, hcheckWord,
      List.append_assoc, List.cons_append]
  have hword {text : String} (h : ' ' ∉ text.toList) :
      pieces (· = ' ') text.toList = [text.toList] :=
    pieces_eq_singleton fun c hc => decide_eq_false fun he => h (he ▸ hc)
  have hnumber (n : Nat) : ' ' ∉ (toString n).toList := notMem_toString (by decide) n
  have hname := Kind.notMem_name (by decide) (by decide : ' ' ∉ _) kind
  have hcut (front rest : List Char) : pieces (· = ' ') (front ++ ' ' :: rest)
      = pieces (· = ' ') front ++ pieces (· = ' ') rest :=
    pieces_append_cons (a := ' ') (decide_eq_true rfl) front rest
  rw [hrow, hcut, hcut, hcut, hcut, hcut]
  rw [hword, hword, hword, hword, hword, hword]
  · rfl
  all_goals
    simp only [String.toList_append, List.mem_append, hid, htime, hcheck, hname, hnumber, or_false]
    decide

theorem Tells.unique {line : Bytes} {number number' length length' : Nat} {kind kind' : Kind}
    {id id' : String} {timestamp timestamp' : Int} (h : Tells line number kind id timestamp length)
    (h' : Tells line number' kind' id' timestamp' length') :
    number' = number ∧ kind' = kind ∧ id' = id ∧ timestamp' = timestamp ∧ length' = length := by
  obtain ⟨time, check, hid, htime, hcheck, hread, hline⟩ := h
  obtain ⟨time', check', hid', htime', hcheck', hread', hline'⟩ := h'
  have hwords := @pieces_row number length kind _ _ _ hid htime hcheck
  rw [Utf8.encode_injective (hline.symm.trans hline'), pieces_row hid' htime' hcheck'] at hwords
  simp only [List.map_cons, List.map_nil, List.cons.injEq, and_true, String.toList_append,
    List.append_cancel_left_eq, String.toList_inj] at hwords
  obtain ⟨hnumber, hkind, hsameId, hsameTime, hlength, -⟩ := hwords
  rw [hsameTime, hread] at hread'
  exact ⟨toString_inj hnumber, Kind.name_injective hkind, hsameId, (Option.some.inj hread').symm,
    toString_inj hlength⟩

variable {library : TimeLibrary}

theorem notMem_hexOf {c : Char} (hc : c ∉ digitSigns) (hx : c ≠ 'x') (check : UInt32) :
    c ∉ (hexOf check).toList := by
  have hzero : c ≠ '0' := fun he => hc (he ▸ List.mem_cons_self)
  have hdigits := notMem_toDigits (by decide : 1 < 16) hc check.toNat
  rw [hexOf, String.toList_append, String.toList_ofList]
  simp [hzero, hx, hdigits]

/-- The line tells what the record is, and at which place it stands, and nothing else. -/
def TellsOf (line : Bytes) (place : Nat) (record : Record) : Prop :=
  ∀ number kind id timestamp length, Tells line number kind id timestamp length ↔
    number = place ∧ kind = record.kind ∧ id = record.metadata.id ∧
      timestamp = record.timestamp ∧ length = record.bytes.length

/-- **The line about a record tells what it is.** -/
theorem tellsOf_describe (h : library.Documented) (number : Nat) (raw : Bytes) :
    TellsOf (Utf8.encode (describe library number (Record.ofBytes raw))) number
      (Record.ofBytes raw) := by
  obtain ⟨hmin, hmax⟩ := Record.timestamp_mem raw
  obtain ⟨moment, -, -, hwritten, hread⟩ := h.exists_moment hmin hmax
  have htells : Tells (Utf8.encode (describe library number (Record.ofBytes raw))) number
      (Record.ofBytes raw).kind (Record.ofBytes raw).metadata.id (Record.ofBytes raw).timestamp
      (Record.ofBytes raw).bytes.length :=
    ⟨_, _, Metadata.notMem_id (by decide : Utf8.IsPlain blank) fun _ => Metadata.blank_notMem_field,
      hwritten.notMem (by decide) (by decide), notMem_hexOf (by decide) (by decide) _, hread, rfl⟩
  intro number' kind id timestamp length
  constructor
  · exact fun htells' => htells.unique htells'
  · rintro ⟨rfl, rfl, rfl, rfl, rfl⟩
    exact htells

theorem exists_describe (h : library.Documented) (number : Nat) (raw : Bytes) :
    ∃ text, Unbroken text ∧ describe library number (Record.ofBytes raw) = text ++ "\n" := by
  refine ⟨_, ?_, rfl⟩
  obtain ⟨hmin, hmax⟩ := Record.timestamp_mem raw
  obtain ⟨moment, -, -, hwritten, -⟩ := h.exists_moment hmin hmax
  have hname : Unbroken (Record.ofBytes raw).kind.name :=
    Kind.notMem_name (by decide) (by decide) (Record.ofBytes raw).kind
  have hid : Unbroken (Record.ofBytes raw).metadata.id :=
    Metadata.notMem_id (by decide : Utf8.IsPlain newline) fun _ => Metadata.newline_notMem_field
  have htime : Unbroken (library.timeText (Record.ofBytes raw).timestamp) :=
    hwritten.notMem (by decide) (by decide)
  have hcheck : Unbroken (hexOf (Checksum.crc32 (Record.ofBytes raw).bytes)) :=
    notMem_hexOf (by decide) (by decide) _
  simp only [unbroken_append_iff, unbroken_toString, hname, hid, htime, hcheck, and_true]
  decide

theorem encode_entry (number : Nat) (record : Record) :
    Utf8.encode (entry library false number record)
      = Utf8.encode (describe library number record) := by
  rw [entry, if_neg Bool.false_ne_true, String.append_empty]

/-- **Each record is printed on one line.** -/
theorem lines_listing (h : library.Documented) (raws : List Bytes) :
    lines (Utf8.encode (listing library false ⟨raws.map Record.ofBytes, none⟩))
      = (raws.map Record.ofBytes).mapIdx fun number record =>
          Utf8.encode (describe library number record) := by
  have hrows : Utf8.encode (listing library false ⟨raws.map Record.ofBytes, none⟩)
      = ((raws.map Record.ofBytes).mapIdx fun number record =>
          Utf8.encode (describe library number record)).flatten := by
    rw [listing, Utf8.encode_join, map_mapIdx]
    simp only [encode_entry]
  rw [hrows]
  refine Lined.lines_flatten (lined_of_forall fun row hrow => ?_)
  obtain ⟨number, hnumber, rfl⟩ := List.mem_mapIdx.mp hrow
  have hraw : number < raws.length := by simpa using hnumber
  rw [List.getElem_map]
  obtain ⟨text, htext, hdescribe⟩ := exists_describe h number raws[number]
  refine ⟨_, Utf8.newline_notMem_encode htext, ?_⟩
  rw [hdescribe, Utf8.encode_append]
  rfl

/-! ## What an inspection comes to -/

theorem value_ofStream {deliveries : List Delivery} {raws : List Bytes} {fault : Option Fault}
    (h : Framing.Yields deliveries raws fault) :
    (ofStream deliveries).value = ⟨raws.map Record.ofBytes, fault⟩ := by
  induction h with
  | ended hr =>
    rw [ofStream, Framing.readings_of_ended hr]
    rfl
  | failed hr =>
    rw [ofStream, Framing.readings_of_fault hr]
    rfl
  | record hr _ ih =>
    rw [ofStream] at ih
    rw [ofStream, Framing.readings_of_record hr, List.foldr_cons, addReading]
    simp only [Logged.value_bind, ih]
    rfl

/-- How an inspection ends. -/
inductive Ending
  /-- The capture cannot be opened. -/
  | unopened (e : ReplayError)
  /-- A fault is met behind these records. -/
  | brokenOff (records : List Record) (fault : Fault)
  /-- These are all records of the capture. -/
  | complete (records : List Record)

namespace Ending

/-- The ending of a listing of these records, behind which there is a fault or the end. -/
def behind (records : List Record) : Option Fault → Ending
  | some fault => brokenOff records fault
  | none => complete records

def records : Ending → List Record
  | unopened _ => []
  | brokenOff records _ | complete records => records

/-- What an inspection with this ending leaves behind; `log` is what it has reported. -/
def outcome (library : TimeLibrary) (tree : FileTree) (arguments : InspectionArguments)
    (log : String) :
    Ending → Outcome
  | unopened e =>
    .failed [] [] (.ofError ("open " ++ Text.quoted arguments.input) e) tree
  | brokenOff records fault =>
    let inspection : Inspection := ⟨records, some fault⟩
    .failed (Utf8.encode (inspection.listing library arguments.dump)) (Utf8.encode log)
      (inspection.failure arguments.input fault) tree
  | complete records =>
    let inspection : Inspection := ⟨records, none⟩
    .done (Utf8.encode (inspection.listing library arguments.dump))
      (Utf8.encode (log ++ inspection.closing)) tree

end Ending

def ending (tree : FileTree) (path : String) : Ending :=
  match Source.openStream tree path with
  | .error e => .unopened e
  | .ok deliveries =>
    let inspection := (ofStream deliveries).value
    .behind inspection.records inspection.fault

variable {tree : FileTree} {path : String}

theorem ending_of_openStream_error {e : ReplayError}
    (ho : Source.openStream tree path = .error e) : ending tree path = .unopened e := by
  rw [ending, ho]

theorem ending_of_yields {deliveries : List Delivery} {raws : List Bytes} {fault : Option Fault}
    (ho : Source.openStream tree path = .ok deliveries)
    (hy : Framing.Yields deliveries raws fault) :
    ending tree path = .behind (raws.map Record.ofBytes) fault := by
  simp only [ending, ho, value_ofStream hy]

theorem exists_list_eq_outcome (library : TimeLibrary) (tree : FileTree) (filter : LogFilter)
    (time : String)
    (arguments : InspectionArguments) : ∃ log,
      list library tree filter time arguments
        = (ending tree arguments.input).outcome library tree arguments log := by
  rw [list, ending]
  cases ho : Source.openStream tree arguments.input with
  | error e => exact ⟨"", rfl⟩
  | ok deliveries =>
    refine ⟨TerminalLine.ofLog filter time (ofStream deliveries).log, ?_⟩
    rcases hinspection : (ofStream deliveries).value with ⟨records, fault⟩
    cases fault with
    | none => simp only [hinspection]; rfl
    | some fault => simp only [hinspection]; rfl

theorem exists_raws (tree : FileTree) (path : String) :
    ∃ raws : List Bytes, (ending tree path).records = raws.map Record.ofBytes := by
  cases ho : Source.openStream tree path with
  | error e =>
    rw [ending_of_openStream_error ho]
    exact ⟨[], rfl⟩
  | ok deliveries =>
    obtain ⟨raws, fault, hy⟩ := Framing.exists_yields deliveries
    rw [ending_of_yields ho hy]
    cases fault with
    | none => exact ⟨raws, rfl⟩
    | some fault => exact ⟨raws, rfl⟩

theorem output_list (library : TimeLibrary) (tree : FileTree) (filter : LogFilter)
    (time path : String) (dump : Bool) :
    (list library tree filter time ⟨path, dump⟩).output
      = Utf8.encode (listing library dump ⟨(ending tree path).records, none⟩) := by
  obtain ⟨log, hlist⟩ := exists_list_eq_outcome library tree filter time ⟨path, dump⟩
  rw [hlist]
  cases ending tree path with
  | unopened e => rfl
  | brokenOff records fault => rfl
  | complete records => rfl

/-- **One line is printed for each record, and tells what it is**, if the bytes of the records are
not asked for. -/
theorem lines_tell (h : library.Documented) (tree : FileTree) (filter : LogFilter)
    (time path : String) :
    (lines (list library tree filter time ⟨path, false⟩).output).length
      = (ending tree path).records.length ∧
    ∀ (place : Nat) line record,
      (lines (list library tree filter time ⟨path, false⟩).output)[place]? = some line →
      (ending tree path).records[place]? = some record → TellsOf line place record := by
  obtain ⟨raws, hraws⟩ := exists_raws tree path
  rw [output_list, hraws, lines_listing h]
  refine ⟨List.length_mapIdx, fun place line record hline hrecord => ?_⟩
  rw [List.getElem?_mapIdx, hrecord, Option.map_some] at hline
  obtain ⟨raw, -, hraw⟩ := List.mem_map.mp (List.mem_of_getElem? hrecord)
  rw [← Option.some.inj hline, ← hraw]
  exact tellsOf_describe h place raw

/-! ## The last words -/

/-- What the program says in the end of so many records, so many of them out of order. -/
def tally (count disordered : Nat) : String :=
  "Read " ++ toString count ++ " records, " ++ toString disordered ++
    " with a timestamp older than their predecessor.\n"

/-- The program has succeeded, and it says in the end that it has read so many records, so many of
them out of order. -/
def Reports (outcome : Outcome) (count disordered : Nat) : Prop :=
  outcome.code = 0 ∧ ∃ said, outcome.diagnostics = Utf8.encode (said ++ tally count disordered)

theorem tally_inj {said said' : String} {count count' disordered disordered' : Nat}
    (h : Utf8.encode (said ++ tally count disordered)
      = Utf8.encode (said' ++ tally count' disordered')) :
    count = count' ∧ disordered = disordered' := by
  have htext (said : String) (count disordered : Nat) :
      Utf8.encode (said ++ tally count disordered)
        = (Utf8.encode said ++ Utf8.encode "Read" ++ blank :: (Utf8.encode (toString count) ++
          Utf8.encode " records,")) ++ blank :: (Utf8.encode (toString disordered) ++
          Utf8.encode " with a timestamp older than their predecessor.\n") := by
    have hread : Utf8.encode "Read " = Utf8.encode "Read" ++ [blank] := rfl
    have hrecords : Utf8.encode " records, " = Utf8.encode " records," ++ [blank] := rfl
    simp only [tally, Utf8.encode_append, hread, hrecords, List.append_assoc, List.cons_append,
      List.nil_append]
  rw [htext, htext] at h
  obtain ⟨hfront, hdisordered⟩ := Utf8.number_inj (by decide) (by decide) h
  obtain ⟨-, hcount⟩ := Utf8.number_inj (by decide) (by decide) hfront
  exact ⟨hcount, hdisordered⟩

theorem reports_list_iff {filter : LogFilter} {time : String} {arguments : InspectionArguments}
    {count disordered : Nat} : Reports (list library tree filter time arguments) count disordered ↔
      ∃ records, ending tree arguments.input = .complete records ∧ count = records.length ∧
        disordered = disorder records := by
  obtain ⟨log, hlist⟩ := exists_list_eq_outcome library tree filter time arguments
  rw [hlist]
  cases ending tree arguments.input with
  | unopened e => exact iff_of_false (fun h => nomatch h.1) fun ⟨_, h, _⟩ => nomatch h
  | brokenOff records fault => exact iff_of_false (fun h => nomatch h.1) fun ⟨_, h, _⟩ => nomatch h
  | complete records =>
    constructor
    · rintro ⟨-, said, hsaid⟩
      obtain ⟨hcount, hdisordered⟩ := tally_inj hsaid
      exact ⟨records, rfl, hcount.symm, hdisordered.symm⟩
    · rintro ⟨others, hothers, rfl, rfl⟩
      cases hothers
      exact ⟨rfl, log, rfl⟩

/-- What the program says of its ending, behind what it has reported. -/
def Ending.ToldBy (outcome : Outcome) (path : String) : Ending → Prop
  | unopened e => outcome.Fails ("open " ++ Text.quoted path) e.causes
  | brokenOff records fault =>
    outcome.Fails ("read record " ++ toString records.length ++ " of " ++ Text.quoted path)
      [fault.message]
  | complete records => Reports outcome records.length (disorder records)

/-- **The program says how it ends.** -/
theorem toldBy_list (library : TimeLibrary) (tree : FileTree) (filter : LogFilter) (time : String)
    (arguments : InspectionArguments) :
    (ending tree arguments.input).ToldBy (list library tree filter time arguments)
      arguments.input := by
  obtain ⟨log, hlist⟩ := exists_list_eq_outcome library tree filter time arguments
  rw [hlist]
  cases ending tree arguments.input with
  | unopened e =>
    exact Outcome.fails_failed (e.length_causes_le.trans (by decide)) [] [] tree
  | brokenOff records fault =>
    exact @Outcome.fails_failed (failure arguments.input ⟨records, some fault⟩ fault)
      (show 1 ≤ 10 by decide) _ _ tree
  | complete records => exact ⟨rfl, log, rfl⟩

end Inspection

end CommandLine

end TrafficReplay
