/-
# Inspections and replays of one capture

An inspection reads a capture straight on and prints each record at once; a replay of the same
capture reads it through a source, one record ahead, and selects each record from what is in hand.
Both come to the same (`Inspection.agrees_with_replay`): what an inspection ends with says what a
replay gives (`Inspection.Ending.course`), and no two endings say the same
(`Inspection.Ending.course_inj`).
-/
import TrafficReplay.Proofs.Inspection.Listing
import TrafficReplay.Proofs.Replay.Course
import TrafficReplay.Proofs.Source.Refusals

namespace TrafficReplay

/-- A capture could not be opened, or not be taken for a compressed one. -/
def ReplayError.IsOpening : ReplayError → Prop
  | cannotOpen _ _ | cannotDecompress _ _ => True
  | invalidPattern _ _ | noSources _ | cannotRead _ _ | invalidSpeed _ => False

namespace Source

theorem isOpening_of_openStream {tree : FileTree} {path : String} {e : ReplayError}
    (h : openStream tree path = .error e) : e.IsOpening := by
  have hopens := Opens.of_error h
  generalize hresult : Except.error e = result at hopens
  cases hopens with
  | missing _ | locked _ | headless _ _ _ _ =>
    cases hresult
    trivial
  | unreadable ho _ => cases h.symm.trans ho
  | empty _ _ | filled _ _ => cases hresult

end Source

namespace Session

/-- The replay cannot be started because of the error, or it is started and gives the results. -/
def Comes (tree : FileTree) (pattern : String) (settings : Settings) :
    Except ReplayError (List ReadResult) → Prop
  | .error e => (start tree pattern settings).value = .error e
  | .ok results => ∃ summary, Replays tree pattern settings results summary

variable {tree : FileTree} {pattern : String} {settings : Settings}

theorem Comes.unique {course other : Except ReplayError (List ReadResult)}
    (h : Comes tree pattern settings course) (h' : Comes tree pattern settings other)
    (hc : ∀ results, course = .ok results → .ok none ∉ results)
    (ho : ∀ results, other = .ok results → .ok none ∉ results) : course = other := by
  cases course with
  | error e =>
    cases other with
    | error e' => exact congrArg Except.error (Except.error.inj (h.symm.trans h'))
    | ok results =>
      obtain ⟨summary, session, hstart, -⟩ := h'
      cases hstart.symm.trans h
  | ok results =>
    obtain ⟨summary, hreplays⟩ := h
    cases other with
    | error e =>
      obtain ⟨session, hstart, -⟩ := hreplays
      cases hstart.symm.trans h'
    | ok others =>
      obtain ⟨summary', hreplays'⟩ := h'
      exact congrArg Except.ok (hreplays.unique hreplays' (hc results rfl) (ho others rfl))

end Session

namespace CommandLine.Inspection

namespace Ending

/-- What a replay gives of a capture whose inspection ends so: the error with which it cannot be
started, or its results. A fault in front of all records is met when the capture is opened. -/
def course (path : String) : Ending → Except ReplayError (List ReadResult)
  | unopened e => .error e
  | brokenOff [] fault => .error (.cannotRead path fault)
  | brokenOff (record :: records) fault =>
    .ok (Content.results ⟨path, record :: records, some fault⟩)
  | complete records => .ok (Content.results ⟨path, records, none⟩)

/-- Only what keeps a capture from being opened is told as such. -/
def Sound : Ending → Prop
  | unopened e => e.IsOpening
  | brokenOff _ _ | complete _ => True

variable {path : String} {ending other : Ending}

theorem ok_none_notMem_course {results : List ReadResult} (h : ending.course path = .ok results) :
    .ok none ∉ results := by
  match ending with
  | unopened e => cases h
  | brokenOff [] fault => cases h
  | brokenOff (record :: records) fault =>
    cases h
    exact Content.ok_none_notMem_results _
  | complete records =>
    cases h
    exact Content.ok_none_notMem_results _

theorem course_inj (h : ending.Sound) (h' : other.Sound)
    (hc : ending.course path = other.course path) : ending = other := by
  match ending, other with
  | unopened e, unopened e' => exact congrArg unopened (Except.error.inj hc)
  | unopened e, brokenOff [] fault => cases hc; cases h
  | brokenOff [] fault, unopened e => cases hc; cases h'
  | brokenOff [] fault, brokenOff [] fault' => cases hc; rfl
  | brokenOff (record :: records) fault, brokenOff (record' :: records') fault' =>
    obtain ⟨hrecords, hfault⟩ := Content.results_inj (Except.ok.inj hc)
    cases hrecords
    cases hfault
    rfl
  | brokenOff (record :: records) fault, complete records' =>
    cases (Content.results_inj (Except.ok.inj hc)).2
  | complete records, brokenOff (record' :: records') fault =>
    cases (Content.results_inj (Except.ok.inj hc)).2
  | complete records, complete records' =>
    exact congrArg complete (Content.results_inj (Except.ok.inj hc)).1

end Ending

variable {tree : FileTree} {pattern path : String} {settings : Settings}

/-- An inspection and a source meet a capture alike: neither can open it, or its first reading is a
fault, or the source has in stock what the inspection lists. -/
theorem ending_cases (tree : FileTree) (path : String) :
    (∃ e, ending tree path = .unopened e ∧ e.IsOpening ∧
      (Source.openAt tree path).value = .error e) ∨
    (∃ fault, ending tree path = .brokenOff [] fault ∧
      (Source.openAt tree path).value = .error (.cannotRead path fault)) ∨
    ∃ source records fault, (Source.openAt tree path).value = .ok source ∧
      source.Stocks ⟨path, records, fault⟩ ∧ ending tree path = .behind records fault := by
  cases ho : Source.openStream tree path with
  | error e =>
    exact .inl ⟨e, ending_of_openStream_error ho, Source.isOpening_of_openStream ho,
      Source.openAt_of_error ho⟩
  | ok deliveries =>
    obtain ⟨raws, fault, hy⟩ := Framing.exists_yields deliveries
    have hending := ending_of_yields ho hy
    rcases Source.openAt_cases ho hy with ⟨source, hs, hstocks⟩ | ⟨f, rfl, rfl, he⟩
    · exact .inr (.inr ⟨source, _, fault, hs, hstocks, hending⟩)
    · exact .inr (.inl ⟨f, hending, he⟩)

theorem sound_ending (tree : FileTree) (path : String) : (ending tree path).Sound := by
  rcases ending_cases tree path with ⟨e, hending, ho, -⟩ | ⟨fault, hending, -⟩ |
    ⟨source, records, fault, -, -, hending⟩
  · rw [hending]
    exact ho
  · rw [hending]
    trivial
  · rw [hending]
    cases fault with
    | none => trivial
    | some fault => trivial

theorem value_start_of_openAt_error (hm : MatchesOnly tree pattern path)
    (hv : settings.validate = .ok ()) {e : ReplayError}
    (h : (Source.openAt tree path).value = .error e) :
    (Session.start tree pattern settings).value = .error e := by
  refine Session.start_of_resolve_error hv ?_
  rw [hm.resolveSources, h]
  rfl

theorem replays_of_openAt (hm : MatchesOnly tree pattern path) (hv : settings.validate = .ok ())
    (hl : settings.looping = false) {source : Source} {content : Content}
    (hs : (Source.openAt tree path).value = .ok source) (hstocks : source.Stocks content) :
    ∃ summary, Session.Replays tree pattern settings content.results summary ∧
      summary.emitted = content.records.length := by
  refine Session.replays_single hv hl ?_ hstocks
  rw [hm.resolveSources, hs]
  rfl

theorem comes_course (hm : MatchesOnly tree pattern path) (hv : settings.validate = .ok ())
    (hl : settings.looping = false) :
    Session.Comes tree pattern settings ((ending tree path).course path) := by
  rcases ending_cases tree path with ⟨e, hending, -, he⟩ | ⟨fault, hending, he⟩ |
    ⟨source, records, fault, hs, hstocks, hending⟩
  · rw [hending]
    exact value_start_of_openAt_error hm hv he
  · rw [hending]
    exact value_start_of_openAt_error hm hv he
  · obtain ⟨summary, hreplays, -⟩ := replays_of_openAt hm hv hl hs hstocks
    rw [hending]
    cases fault with
    | none => exact ⟨summary, hreplays⟩
    | some fault =>
      -- a source that could be opened has a record in front of its fault
      cases records with
      | nil => exact absurd rfl (hstocks.records_ne_nil (Option.some_ne_none fault))
      | cons record records => exact ⟨summary, hreplays⟩

theorem emitted_eq (hm : MatchesOnly tree pattern path) (hv : settings.validate = .ok ())
    (hl : settings.looping = false) {results : List ReadResult} {summary : Summary}
    (h : Session.Replays tree pattern settings results summary) :
    summary.emitted = (ending tree path).records.length := by
  obtain ⟨session, hstart, hconcludes⟩ := h
  rcases ending_cases tree path with ⟨e, -, -, he⟩ | ⟨fault, -, he⟩ |
    ⟨source, records, fault, hs, hstocks, hending⟩
  · cases hstart.symm.trans (value_start_of_openAt_error hm hv he)
  · cases hstart.symm.trans (value_start_of_openAt_error hm hv he)
  · obtain ⟨summary', ⟨session', hstart', hconcludes'⟩, hemitted⟩ :=
      replays_of_openAt hm hv hl hs hstocks
    cases hstart.symm.trans hstart'
    rw [hconcludes.summary_eq hconcludes', hemitted, hending]
    cases fault with
    | none => rfl
    | some fault => rfl

/-- No other ending of an inspection has the course that a replay of the capture takes. -/
theorem ending_eq_iff (hm : MatchesOnly tree pattern path) (hv : settings.validate = .ok ())
    (hl : settings.looping = false) {other : Ending} :
    ending tree path = other ↔
      other.Sound ∧ Session.Comes tree pattern settings (other.course path) := by
  have hcomes := comes_course hm hv hl
  constructor
  · rintro rfl
    exact ⟨sound_ending tree path, hcomes⟩
  · rintro ⟨hsound, hother⟩
    refine Ending.course_inj (sound_ending tree path) hsound (hcomes.unique hother ?_ ?_)
    · exact fun results h => Ending.ok_none_notMem_course h
    · exact fun results h => Ending.ok_none_notMem_course h

/-- **An inspection and a replay of one capture agree.** An inspection prints one line for each
record that it lists, numbered from zero, and the line tells what the record is; in the end it says
how it ends: that the capture cannot be opened, or behind how many records a fault is met and which
one it is, or how many records there are. And it ends so just when a replay of the capture alone
cannot be started for the same error, or gives the same records up to the same fault, or gives the
same records up to the end. -/
theorem agrees_with_replay {library : TimeLibrary} (hd : library.Documented)
    (hm : MatchesOnly tree pattern path) (hv : settings.validate = .ok ())
    (hl : settings.looping = false) (filter : LogFilter) (time : String) :
    (lines (list library tree filter time ⟨path, false⟩).output).length
      = (ending tree path).records.length ∧
    (∀ (place : Nat) line record,
      (lines (list library tree filter time ⟨path, false⟩).output)[place]? = some line →
      (ending tree path).records[place]? = some record → TellsOf line place record) ∧
    (ending tree path).ToldBy (list library tree filter time ⟨path, false⟩) path ∧
    (∀ e, ending tree path = .unopened e ↔
      (Session.start tree pattern settings).value = .error e ∧ e.IsOpening) ∧
    (∀ fault, ending tree path = .brokenOff [] fault ↔
      (Session.start tree pattern settings).value = .error (.cannotRead path fault)) ∧
    (∀ records fault, records ≠ [] → (ending tree path = .brokenOff records fault ↔
      ∃ summary, Session.Replays tree pattern settings
        (records.map (fun record => .ok (some record)) ++ [.error (.cannotRead path fault)])
        summary)) ∧
    (∀ records, ending tree path = .complete records ↔
      ∃ summary, Session.Replays tree pattern settings
        (records.map fun record => .ok (some record)) summary) ∧
    ∀ results summary count disordered,
      Session.Replays tree pattern settings results summary →
      Reports (list library tree filter time ⟨path, false⟩) count disordered →
      summary.emitted = count := by
  have hiff (other : Ending) := @ending_eq_iff tree pattern path settings hm hv hl other
  obtain ⟨hlength, htell⟩ := lines_tell hd tree filter time path
  refine ⟨hlength, htell, toldBy_list library tree filter time ⟨path, false⟩,
    fun e => (hiff (.unopened e)).trans and_comm,
      fun fault => (hiff _).trans (iff_of_eq (true_and _)),
    fun records fault hne => ?_, fun records => ?_, ?_⟩
  · obtain ⟨record, records, rfl⟩ := List.exists_cons_of_ne_nil hne
    exact (hiff _).trans (iff_of_eq (true_and _))
  · have hresults : Content.results ⟨path, records, none⟩
        = records.map fun record => .ok (some record) := List.append_nil _
    rw [← hresults]
    exact (hiff (.complete records)).trans (iff_of_eq (true_and _))
  · intro results summary count disordered hreplays hreports
    obtain ⟨records, hending, rfl, -⟩ := reports_list_iff.mp hreports
    rw [emitted_eq hm hv hl hreplays, hending]
    rfl

theorem matchesOnly_damaged : MatchesOnly Session.faultyFiles "b" "b" :=
  ⟨["b"], by cbv, by decide +kernel⟩

/-- A capture on a medium that fails behind its two records. -/
theorem agrees_with_replay_damaged :
    (∃ first second, lines (list .gregorian Session.faultyFiles .standard "" ⟨"b", false⟩).output
        = [first, second] ∧ TellsOf second 1 (Record.ofBytes (Utf8.encode "1 d 8\n"))) ∧
    (list .gregorian Session.faultyFiles .standard "" ⟨"b", false⟩).Fails
      "read record 2 of \"b\"" ["Input/output error (os error 5)"] ∧
    ∃ summary, summary.emitted = 2 ∧ Session.Replays Session.faultyFiles "b" {}
      ((["1 b 7\n", "1 d 8\n"].map fun text => .ok (some (Record.ofBytes (Utf8.encode text))))
        ++ [.error (.cannotRead "b" .inputOutput)]) summary := by
  have hending : ending Session.faultyFiles "b" = .brokenOff
      (["1 b 7\n", "1 d 8\n"].map fun text => Record.ofBytes (Utf8.encode text)) .inputOutput :=
    ending_of_yields Session.openStream_damaged Session.yields_damaged
  obtain ⟨hlength, htell, htold, -, -, hbroken, -⟩ :=
    @agrees_with_replay _ _ _ {} _ TimeLibrary.documented_gregorian matchesOnly_damaged rfl rfl
      .standard ""
  rw [hending] at hlength htell htold
  have hcontext :
      "read record " ++ toString 2 ++ " of " ++ Text.quoted "b" = "read record 2 of \"b\"" := by
    decide +kernel
  obtain ⟨summary, hreplays⟩ := (hbroken _ _ (List.cons_ne_nil _ _)).mp hending
  refine ⟨?_, hcontext ▸ htold, summary, ?_, hreplays⟩
  · obtain ⟨first, second, hlines⟩ := List.length_eq_two.mp hlength
    exact ⟨first, second, hlines, htell 1 second _ (by rw [hlines]; rfl) rfl⟩
  · rw [emitted_eq matchesOnly_damaged rfl rfl hreplays, hending]
    rfl

end CommandLine.Inspection

end TrafficReplay
