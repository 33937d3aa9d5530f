/-
# What a playback writes

`Playback.perform` reads a session to its end and writes then, where the program does both side by
side. It comes to one of three things (`Playback.perform_cases`), and what it comes to is what the
program can come to: for each of its outcomes there is a run of a `Transfer` that ends so, with the
same bytes on its output (`Playback.exists_run_of_perform`). And whatever runs there are, their
outputs take exactly the records that were read, each framed (`Playback.output_of_runs`).
-/
import TrafficReplay.Proofs.CommandLine.Reports
import TrafficReplay.Proofs.Files.Opening
import TrafficReplay.Proofs.Playback.Runs
import TrafficReplay.Proofs.Replay.Emission

namespace TrafficReplay.CommandLine

/-- The byte in front of the number of records that were written. -/
def bracket : UInt8 := 0x28

/-! ## The program as a whole -/

/-- What was written to the file or to the standard output. Of other devices nothing can be seen
when the program is over. -/
def Outcome.on (outcome : Outcome) : FileTree.Sink → Option Bytes
  | .file names =>
    match outcome.tree.root.find? names with
    | some (.file contents) => some contents
    | _ => none
  | .device .standardOutput => some outcome.output
  | .device _ => none

/-- Whether what is written to the output can be seen there when the program is over. -/
def Shows : FileTree.Sink → Bool
  | .file _ | .device .standardOutput => true
  | .device _ => false

namespace Playback

open Transfer

/-! ## What is reported -/

/-- What the program says at a good end: how many records were replayed and how many written. -/
def account (replayed written restarts : Nat) : String :=
  "Replayed " ++ toString replayed ++ " records (" ++ toString written ++ " written, " ++
    toString restarts ++ " restarts, stop reason: Exhausted).\n"

/-- The program has succeeded, and it says in the end that so many records were replayed and so many
written. -/
def Reports (outcome : Outcome) (replayed written : Nat) : Prop :=
  outcome.code = 0 ∧ ∃ said restarts,
    outcome.diagnostics = said ++ Utf8.encode (account replayed written restarts)

theorem account_inj {said said' : Bytes}
    {replayed replayed' written written' restarts restarts' : Nat}
    (h : said ++ Utf8.encode (account replayed written restarts)
      = said' ++ Utf8.encode (account replayed' written' restarts')) :
    replayed' = replayed ∧ written' = written := by
  have htext (said : Bytes) (replayed written restarts : Nat) :
      said ++ Utf8.encode (account replayed written restarts)
        = ((said ++ Utf8.encode "Replayed" ++ blank :: (Utf8.encode (toString replayed) ++
          Utf8.encode " records ")) ++ bracket :: (Utf8.encode (toString written) ++
          Utf8.encode " written,")) ++ blank :: (Utf8.encode (toString restarts) ++
          Utf8.encode " restarts, stop reason: Exhausted).\n") := by
    have hreplayed : Utf8.encode "Replayed " = Utf8.encode "Replayed" ++ [blank] := rfl
    have hrecords : Utf8.encode " records (" = Utf8.encode " records " ++ [bracket] := rfl
    have hwritten : Utf8.encode " written, " = Utf8.encode " written," ++ [blank] := rfl
    simp only [account, Utf8.encode_append, hreplayed, hrecords, hwritten, List.append_assoc,
      List.cons_append, List.nil_append]
  rw [htext, htext] at h
  obtain ⟨hfront, -⟩ := Utf8.number_inj (by decide) (by decide) h
  obtain ⟨hfirst, hwritten⟩ := Utf8.number_inj (by decide) (by decide) hfront
  obtain ⟨-, hreplayed⟩ := Utf8.number_inj (by decide) (by decide) hfirst
  exact ⟨hreplayed.symm, hwritten.symm⟩

theorem Reports.iff {outcome : Outcome} {count : Nat} (h : Reports outcome count count)
    (replayed written : Nat) :
    Reports outcome replayed written ↔ replayed = count ∧ written = count := by
  constructor
  · rintro ⟨-, said, restarts, hsaid⟩
    obtain ⟨-, said', restarts', hsaid'⟩ := h
    exact account_inj (hsaid'.symm.trans hsaid)
  · rintro ⟨rfl, rfl⟩
    exact h

theorem closing_eq {summary : Summary} (h : summary.reason = .exhausted) (written : Nat) :
    closing written summary = account summary.emitted written summary.restarts := by
  have hreason : " restarts, stop reason: Exhausted).\n"
      = " restarts, stop reason: " ++ StopReason.exhausted.name ++ ").\n" := rfl
  simp only [closing, account, h, hreason, String.append_assoc]

theorem reports_done {count : Nat} {summary : Summary} (hemitted : summary.emitted = count)
    (hreason : summary.reason = .exhausted) (output said : Bytes) (tree : FileTree) :
    Reports ((Ending.done count (some summary)).outcome output said tree) count count := by
  refine ⟨rfl, said, summary.restarts, ?_⟩
  show said ++ Utf8.encode (closing count summary) = _
  rw [closing_eq hreason, hemitted]

variable {tree opened : FileTree} {arguments : PlaybackArguments} {sink : FileTree.Sink}
  {filter : LogFilter} {time : String} {outcome : Outcome} {prepared : Session}

theorem perform_of_startFailure {e : ReplayError}
    (ho : openOutput tree arguments.out = .ok (sink, opened))
    (hp : (Session.prepare opened arguments.input arguments.settings).value = .error e) :
    ∃ said, perform tree filter time arguments
      = some (.failed [] said (startFailure e) opened) := by
  simp only [perform, ho, hp]
  exact ⟨_, rfl⟩

/-- Once the session is prepared it is read to its end, and what it gave is written. -/
theorem perform_of_prepare (ho : openOutput tree arguments.out = .ok (sink, opened))
    (hp : (Session.prepare opened arguments.input arguments.settings).value = .ok prepared) :
    ∃ log, perform tree filter time arguments
      = match (ofSession opened (prepared.proceed opened).value).value with
        | some playback => some (conclude opened sink log playback)
        | none => concludeEndless opened log sink := by
  simp only [perform, ho, hp]
  exact ⟨_, rfl⟩

theorem conclude_of_deliver {log : String} {playback : Playback} {output diagnostics : Bytes}
    {after : FileTree}
    (h : deliver opened (framed playback.records) sink = .ok (output, diagnostics, after)) :
    conclude opened sink log playback
      = (Ending.ofSession playback.error playback.records.length playback.session).outcome output
        (Utf8.encode log ++ diagnostics) after := by
  have hwritten : playback.written = framed playback.records := rfl
  simp only [conclude, hwritten, h]
  cases playback.error with
  | some e => rfl
  | none =>
    simp only [Ending.ofSession]
    cases playback.session.wait.1 with
    | none => rfl
    | some summary => rfl

theorem conclude_of_fault {log : String} {playback : Playback} {fault : Fault}
    (h : deliver opened (framed playback.records) sink = .error fault) :
    conclude opened sink log playback
      = (Ending.failed (writeFailure fault)).outcome [] (Utf8.encode log) opened := by
  have hwritten : playback.written = framed playback.records := rfl
  simp only [conclude, hwritten, h]
  rfl

theorem deliver_eq_error {bytes : Bytes} {fault : Fault}
    (h : deliver opened bytes sink = .error fault) :
    sink = .device .full ∧ fault = .noSpace ∧ bytes ≠ [] := by
  cases sink with
  | file names => cases h
  | device device =>
    cases device with
    | full =>
      simp only [deliver] at h
      split at h
      · cases h
      · next hne =>
        cases h
        exact ⟨rfl, rfl, hne⟩
    | null => cases h
    | standardOutput => cases h
    | standardError => cases h

/-- **What the program comes to.** The replay does not start; or it is read to its end, and all that
was read is written; or there is no room for it. -/
theorem perform_cases (ho : openOutput tree arguments.out = .ok (sink, opened))
    (h : perform tree filter time arguments = some outcome) :
    (∃ e said, (Session.prepare opened arguments.input arguments.settings).value = .error e ∧
      outcome = .failed [] said (startFailure e) opened) ∨
    ∃ prepared, (Session.prepare opened arguments.input arguments.settings).value = .ok prepared ∧
      ((∃ playback said output diagnostics after,
          (ofSession opened (prepared.proceed opened).value).value = some playback ∧
          deliver opened (framed playback.records) sink = .ok (output, diagnostics, after) ∧
          outcome = (Ending.ofSession playback.error playback.records.length
            playback.session).outcome output (said ++ diagnostics) after) ∨
        (sink = .device .full ∧
          (∀ playback, (ofSession opened (prepared.proceed opened).value).value = some playback →
            playback.records ≠ []) ∧
          ∃ said, outcome = (Ending.failed (writeFailure .noSpace)).outcome [] said opened)) := by
  cases hp : (Session.prepare opened arguments.input arguments.settings).value with
  | error e =>
    obtain ⟨said, hperform⟩ := @perform_of_startFailure _ _ _ _ filter time _ ho hp
    rw [hperform] at h
    exact .inl ⟨e, said, rfl, (Option.some.inj h).symm⟩
  | ok prepared =>
    obtain ⟨log, hperform⟩ := @perform_of_prepare _ _ _ _ filter time _ ho hp
    rw [hperform] at h
    refine .inr ⟨prepared, rfl, ?_⟩
    cases hplayback : (ofSession opened (prepared.proceed opened).value).value with
    | some playback =>
      rw [hplayback] at h
      obtain rfl := Option.some.inj h
      cases hd : deliver opened (framed playback.records) sink with
      | ok result =>
        obtain ⟨output, diagnostics, after⟩ := result
        exact .inl ⟨playback, _, output, diagnostics, after, rfl, hd, conclude_of_deliver hd⟩
      | error fault =>
        obtain ⟨hfull, rfl, hne⟩ := deliver_eq_error hd
        refine .inr ⟨hfull, fun other hother hnil => hne ?_, _, conclude_of_fault hd⟩
        cases hother
        rw [hnil]
        rfl
    | none =>
      rw [hplayback] at h
      refine .inr ?_
      cases sink with
      | file names => cases h
      | device device =>
        cases device with
        | full => exact ⟨rfl, fun _ hsome => (nomatch hsome), _, (Option.some.inj h).symm⟩
        | null => cases h
        | standardOutput => cases h
        | standardError => cases h

/-- What was delivered is seen on the output: all of it, and nothing that was there before. -/
theorem on_of_deliver (ho : openOutput tree arguments.out = .ok (sink, opened)) {bytes : Bytes}
    {output diagnostics : Bytes} {after : FileTree}
    (h : deliver opened bytes sink = .ok (output, diagnostics, after)) (hs : Shows sink = true)
    {said : Bytes} {ending : Ending} :
    (ending.outcome output said after).on sink = some bytes := by
  have houtcome : (ending.outcome output said after).tree = after ∧
      (ending.outcome output said after).output = output := by
    cases ending with
    | failed failure => exact ⟨rfl, rfl⟩
    | done written summary =>
      cases summary with
      | none => exact ⟨rfl, rfl⟩
      | some summary => exact ⟨rfl, rfl⟩
  cases sink with
  | file names =>
    cases h
    have hempty := find?_of_openOutput ho
    simp only [Outcome.on, houtcome.1, FileTree.Sink.find?_append hempty, List.nil_append]
  | device device =>
    cases device with
    | standardOutput =>
      cases h
      exact congrArg some houtcome.2
    | null => cases hs
    | full => cases hs
    | standardError => cases hs

theorem framed_ne_nil {records : List Record} (h : records ≠ []) : framed records ≠ [] := by
  obtain ⟨record, records, rfl⟩ := List.exists_cons_of_ne_nil h
  rw [framed_cons]
  exact List.append_ne_nil_of_left_ne_nil (frame_ne_nil record.bytes) _

/-- **Every outcome of the program is that of a run**, in which the session is read with the files
as they are when the output is open. Either the output takes everything, and then it shows what it
took; or it has no room, and nothing is written. -/
theorem exists_run_of_perform (ho : openOutput tree arguments.out = .ok (sink, opened))
    (hp : (Session.prepare opened arguments.input arguments.settings).value = .ok prepared)
    (h : perform tree filter time arguments = some outcome) :
    ∃ deeds t ending, Run (begin (prepared.proceed opened).value) deeds t ∧
      t.reader = .ended ending ∧ (∀ seen ∈ filesRead deeds, seen = opened) ∧
      ((faults deeds = [] ∧ (∃ output said after, outcome = ending.outcome output said after) ∧
          (Shows sink = true → outcome.on sink = some t.output)) ∨
        faults deeds = [.noSpace] ∧ ∃ said, outcome = ending.outcome [] said opened) ∧
      (faults deeds ≠ [] ↔ sink = .device .full ∧ ∃ record next,
        ((prepared.proceed opened).value.read opened).value = (.ok (some record), next)) := by
  rcases perform_cases ho h with ⟨e, said, hstart, -⟩ | ⟨prepared', hp', hcases⟩
  · rw [hp] at hstart
    cases hstart
  rw [hp] at hp'
  cases hp'
  rcases hcases with
    ⟨playback, said, output, diagnostics, after, hplayback, hd, rfl⟩ | ⟨hfull, hne, said, houtcome⟩
  · obtain ⟨deeds, t, hsmooth, houtput, hreader⟩ :=
      exists_smooth (Session.underway_of_prepare hp opened) hplayback
    refine ⟨deeds, t, _, hsmooth.run, hreader, hsmooth.files,
      .inl ⟨hsmooth.faults, ⟨_, _, _, rfl⟩, fun hs => ?_⟩,
      iff_of_false (fun h => h hsmooth.faults) ?_⟩
    · rw [houtput]
      exact on_of_deliver ho hd hs
    · rintro ⟨hfull, record, next, hread⟩
      have hne := records_ne_nil_of_read (readsLeft_pos _) hread hplayback
      rw [hfull, deliver, if_neg (framed_ne_nil hne)] at hd
      cases hd
  · obtain ⟨record, next, hread⟩ := read_of_readTimes (readsLeft_pos _) hne
    obtain ⟨deeds, t, hrun, hfaults, hfiles, hreader⟩ := exists_refused hread .noSpace
    refine ⟨deeds, t, _, hrun, hreader, hfiles, .inr ⟨hfaults, said, houtcome⟩,
      iff_of_true ?_ ⟨hfull, record, next, hread⟩⟩
    rw [hfaults]
    exact List.cons_ne_nil _ _

theorem exists_ofSession (hl : arguments.settings.looping = false)
    (hp : (Session.prepare opened arguments.input arguments.settings).value = .ok prepared) :
    ∃ playback, (ofSession opened (prepared.proceed opened).value).value = some playback := by
  have hlooping : (prepared.proceed opened).value.pump.looping = false := by
    obtain ⟨-, sources, -, rfl⟩ := Session.exists_sources_of_prepare hp
    have hready : Bounded _ ((⟨arguments.input, arguments.settings.looping, sources,
        .new arguments.settings.speed, 0, 0⟩ : Pump), Phase.ready) := ⟨hl, Nat.le_refl _⟩
    exact (hready.settle opened).looping
  refine exists_playback (Session.underway_of_prepare hp opened) (bounded_readsLeft hlooping) ?_
  have := readsLeft_pos (prepared.proceed opened).value
  omega

/-- **What the program writes.** An output file is empty when it is open. If the replay does not
start, nothing is written and the program fails. If it starts, reader and writer never get stuck,
and however they take turns: as long as the output takes everything, it has taken exactly the
records that were read, each framed, when the program ends; it ends well if no error was read, and
the numbers of records replayed and written that it reports then are both that of the records found
in the output; else it reports the error. A fault of the output is what is reported, whatever else
has happened. All outcomes of the program are such ends, with a fault just where there is no room
for a record that was read, and a replay that does not loop has one. -/
theorem output_of_runs (ho : openOutput tree arguments.out = .ok (sink, opened)) :
    (∀ names, sink = .file names → opened.root.find? names = some (.file [])) ∧
    (∀ e filter time,
      (Session.prepare opened arguments.input arguments.settings).value = .error e →
      ∃ outcome, perform tree filter time arguments = some outcome ∧
        outcome.Fails "start capture replay" e.causes ∧
        (Shows sink = true → outcome.on sink = some [])) ∧
    ∀ prepared, (Session.prepare opened arguments.input arguments.settings).value = .ok prepared →
      (∀ deeds t, Run (begin (prepared.proceed opened).value) deeds t →
        ((∀ ending, t.reader ≠ .ended ending) →
          ∃ deed next, Step t deed next ∧ deed.fault? = none) ∧
        ∀ ending, t.reader = .ended ending →
          (faults deeds = [] → t.output = framed (recordsRead deeds) ∧
            (ending.code = 0 →
              Framing.split t.output = (recordsRead deeds).map Record.bytes ∧
              ∀ output said after replayed written,
                Reports (ending.outcome output said after) replayed written ↔
                  replayed = (Framing.split t.output).length ∧
                    written = (Framing.split t.output).length) ∧
            (ending.code ≠ 0 → ∃ e, errorsRead deeds = [e] ∧ ∀ output said after,
              (ending.outcome output said after).Fails "capture replay failed" e.causes)) ∧
          ∀ fault ∈ faults deeds, faults deeds = [fault] ∧ ∀ output said after,
            (ending.outcome output said after).Fails "write replayed records" [fault.message]) ∧
      (∀ filter time outcome, perform tree filter time arguments = some outcome →
        ∃ deeds t ending, Run (begin (prepared.proceed opened).value) deeds t ∧
          t.reader = .ended ending ∧ (∀ seen ∈ filesRead deeds, seen = opened) ∧
          ((faults deeds = [] ∧ (∃ output said after, outcome = ending.outcome output said after) ∧
              (Shows sink = true → outcome.on sink = some t.output)) ∨
            faults deeds = [.noSpace] ∧ ∃ said, outcome = ending.outcome [] said opened) ∧
          (faults deeds ≠ [] ↔ sink = .device .full ∧ ∃ record next,
            ((prepared.proceed opened).value.read opened).value = (.ok (some record), next))) ∧
      (arguments.settings.looping = false → ∀ filter time,
        ∃ outcome, perform tree filter time arguments = some outcome) := by
  refine ⟨?_, ?_, fun prepared hp => ⟨?_, fun filter time outcome h =>
    exists_run_of_perform ho hp h, ?_⟩⟩
  · rintro names rfl
    exact find?_of_openOutput ho
  · intro e filter time hp
    obtain ⟨said, hperform⟩ := @perform_of_startFailure _ _ _ _ filter time _ ho hp
    refine ⟨_, hperform, Outcome.fails_failed (e.length_causes_le.trans (by decide)) _ _ _,
      fun hs => ?_⟩
    cases sink with
    | file names => simp only [Outcome.on, Outcome.failed, find?_of_openOutput ho]
    | device device =>
      cases device with
      | standardOutput => rfl
      | null => cases hs
      | full => cases hs
      | standardError => cases hs
  · intro deeds t hrun
    have hsound := hrun.sound (Session.underway_of_prepare hp opened)
    refine ⟨hsound.exists_step, fun ending hended => ?_⟩
    cases hsound.concluded ending hended with
    | @refused fault hf _ =>
      rw [hf]
      refine ⟨fun hnil => absurd hnil (List.cons_ne_nil _ _), fun other hother => ?_⟩
      rw [List.mem_singleton.mp hother]
      exact ⟨rfl, fun output said after =>
        @Outcome.fails_failed (writeFailure fault) (show 1 ≤ 10 by decide) output said after⟩
    | @failed e hf _ herrors houtput =>
      rw [hf]
      refine ⟨fun _ => ⟨houtput, fun hcode => absurd hcode Nat.one_ne_zero, fun _ => ⟨e, herrors,
        fun output said after => ?_⟩⟩, fun _ hmem => absurd hmem List.not_mem_nil⟩
      exact @Outcome.fails_failed (replayFailure e) (e.length_causes_le.trans (by decide)) _ _ _
    | @done summary hf _ _ houtput hwritten hemitted hreason =>
      rw [hf]
      have hsplit := split_framed hsound.framable
      rw [← houtput] at hsplit
      have hlength : (Framing.split t.output).length = t.written := by
        rw [hsplit, List.length_map, hwritten]
      refine ⟨fun _ => ⟨houtput, fun _ => ⟨hsplit, fun output said after => ?_⟩,
        fun hcode => absurd rfl hcode⟩, fun _ hmem => absurd hmem List.not_mem_nil⟩
      rw [hlength]
      exact (reports_done hemitted hreason output said after).iff
  · intro hl filter time
    obtain ⟨playback, hplayback⟩ := exists_ofSession hl hp
    obtain ⟨log, hperform⟩ := @perform_of_prepare _ _ _ _ filter time _ ho hp
    rw [hplayback] at hperform
    exact ⟨_, hperform⟩

theorem start_of_prepare
    (hp : (Session.prepare opened arguments.input arguments.settings).value = .ok prepared) :
    (Session.start opened arguments.input arguments.settings).value
      = .ok (prepared.proceed opened).value := by
  simp only [Session.start, Logged.value_bind, hp]
  rfl

def capturesBesideFull : FileTree :=
  ⟨.directory [("a", .file firstCapture), ("b", .file secondCapture), ("full", .device .full)], []⟩

theorem captures_besideFull : Captures capturesBesideFull "?" [firstCapture, secondCapture] := by
  refine ⟨["a", "b"], by cbv, by decide, ?_⟩
  have ha : capturesBesideFull.isDirectory "a" = false := by cbv
  have hb : capturesBesideFull.isDirectory "b" = false := by cbv
  rw [List.filter_cons_of_pos (by rw [ha]; rfl), List.filter_cons_of_pos (by rw [hb]; rfl),
    List.filter_nil]
  exact .cons ⟨_, by cbv, by decide, rfl⟩ (.cons ⟨_, by cbv, by decide, rfl⟩ .nil)

theorem openOutput_besideFull :
    openOutput capturesBesideFull (some "full") = .ok (.device .full, capturesBesideFull) := by
  cbv

theorem read_besideFull {prepared : Session}
    (hp : (Session.prepare capturesBesideFull "?" {}).value = .ok prepared) :
    ∃ record next, ((prepared.proceed capturesBesideFull).value.read capturesBesideFull).value
      = (.ok (some record), next) := by
  obtain ⟨sources, items, pump, session, final, -, hopened, hloop, -, -, -, -, -, hstart,
    hawaits⟩ :=
    @Session.exists_start capturesBesideFull "?" {} _ rfl rfl captures_besideFull
  cases (@start_of_prepare capturesBesideFull ⟨"?", {}, none⟩ _ hp).symm.trans hstart
  have hlength := (hloop.drained_captures hopened).length
  cases items with
  | nil =>
    rw [List.map_cons, List.map_cons, List.sum_cons, length_firstCapture, Nat.add_comm] at hlength
    exact absurd hlength (Nat.succ_ne_zero _).symm
  | cons item items =>
    exact ⟨item.2, _, Prod.ext (hawaits.read capturesBesideFull).1 rfl⟩

/-- What two captures are played back to on the standard output is what a run has read, framed; a
device without room refuses it, and this is what is reported. -/
theorem output_of_runs_two :
    (∃ prepared outcome deeds t ending,
      (Session.prepare twoCaptures "*" {}).value = .ok prepared ∧
      perform twoCaptures (.ofVariable none) "" ⟨"*", {}, none⟩ = some outcome ∧
      Run (begin (prepared.proceed twoCaptures).value) deeds t ∧ t.reader = .ended ending ∧
      outcome.code = ending.code ∧ outcome.output = framed (recordsRead deeds)) ∧
    ∃ outcome,
      perform capturesBesideFull (.ofVariable none) "" ⟨"?", {}, some "full"⟩ = some outcome ∧
      outcome.Fails "write replayed records" ["No space left on device (os error 28)"] := by
  constructor
  · obtain ⟨sources, hs, -⟩ := resolveSources_of_captures captures_twoCaptures
    have hp := @Session.prepare_of_resolve "*" _ {} _ rfl hs
    obtain ⟨-, -, hstarted⟩ := @output_of_runs twoCaptures twoCaptures ⟨"*", {}, none⟩ _ rfl
    obtain ⟨hruns, houtcomes, hends⟩ := hstarted _ hp
    obtain ⟨outcome, hperform⟩ := hends rfl (.ofVariable none) ""
    obtain ⟨deeds, t, ending, hrun, hended, -, hcases, hfaults⟩ := houtcomes _ _ _ hperform
    have hnone : faults deeds = [] := by
      by_contra hsome
      exact nomatch (hfaults.mp hsome).1
    rcases hcases with ⟨-, ⟨output, said, after, rfl⟩, hon⟩ | ⟨hfull, -⟩
    · refine ⟨_, _, deeds, t, ending, hp, hperform, hrun, hended, Ending.code_outcome _ _ _ _, ?_⟩
      rw [← (((hruns deeds t hrun).2 ending hended).1 hnone).1]
      exact Option.some.inj (hon rfl)
    · rw [hnone] at hfull
      cases hfull
  · obtain ⟨sources, hs, -⟩ := resolveSources_of_captures captures_besideFull
    have hp := @Session.prepare_of_resolve "?" _ {} _ rfl hs
    obtain ⟨-, -, hstarted⟩ :=
      @output_of_runs capturesBesideFull _ ⟨"?", {}, some "full"⟩ _ openOutput_besideFull
    obtain ⟨hruns, houtcomes, hends⟩ := hstarted _ hp
    obtain ⟨outcome, hperform⟩ := hends rfl (.ofVariable none) ""
    obtain ⟨deeds, t, ending, hrun, hended, -, hcases, hfaults⟩ := houtcomes _ _ _ hperform
    have hsome := hfaults.mpr ⟨rfl, read_besideFull hp⟩
    rcases hcases with ⟨hnone, -⟩ | ⟨hfull, said, rfl⟩
    · exact absurd hnone hsome
    · have htold :=
        ((hruns deeds t hrun).2 ending hended).2 .noSpace (by rw [hfull]; exact List.mem_cons_self)
      exact ⟨_, hperform, htold.2 _ _ _⟩

end Playback

end TrafficReplay.CommandLine
