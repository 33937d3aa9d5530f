/-
# Playbacks that end well

A program that ends well has read its session to the end without an error, has written all of it,
and counts it rightly (`Playback.exists_wrote`). If it does not loop, what it has written is the
merge of all that its captures had to give when the output was open, and none of them was faulty
(`Playback.exists_drained_of_error_none`). Captures that can all be read are played back to such an
end, unless the output has no room (`Playback.exists_wrote_of_captures`).
-/
import TrafficReplay.Proofs.Playback.Output
import TrafficReplay.Proofs.Replay.Faults

namespace TrafficReplay.CommandLine

namespace Playback

/-- These bytes were written to the output, and at its good end the program has said that so many
records were replayed and as many written, and that none were left. -/
def Wrote (opened : FileTree) (sink : FileTree.Sink) (count : Nat) (bytes : Bytes)
    (outcome : Outcome) : Prop :=
  ∃ restarts said output diagnostics after,
    deliver opened bytes sink = .ok (output, diagnostics, after) ∧
    outcome = .done output (said ++ diagnostics ++ Utf8.encode (account count count restarts)) after

variable {tree opened : FileTree} {arguments : PlaybackArguments} {sink : FileTree.Sink}
  {filter : LogFilter} {time : String} {outcome : Outcome} {prepared : Session}
  {playback : Playback} {captures : List Bytes}

theorem Wrote.reports {count : Nat} {bytes : Bytes} (h : Wrote opened sink count bytes outcome) :
    Reports outcome count count := by
  obtain ⟨restarts, said, output, diagnostics, after, -, rfl⟩ := h
  exact ⟨rfl, said ++ diagnostics, restarts, rfl⟩

theorem Wrote.code {count : Nat} {bytes : Bytes} (h : Wrote opened sink count bytes outcome) :
    outcome.code = 0 :=
  h.reports.1

theorem Wrote.on {count : Nat} {bytes : Bytes} (h : Wrote opened sink count bytes outcome)
    (ho : openOutput tree arguments.out = .ok (sink, opened)) (hs : Shows sink = true) :
    outcome.on sink = some bytes := by
  obtain ⟨restarts, said, output, diagnostics, after, hd, rfl⟩ := h
  exact @on_of_deliver _ _ _ _ ho _ _ _ _ hd hs _ (.done count none)

theorem exists_deliver (h : sink ≠ .device .full) (opened : FileTree) (bytes : Bytes) :
    ∃ output diagnostics after, deliver opened bytes sink = .ok (output, diagnostics, after) := by
  cases hd : deliver opened bytes sink with
  | ok result => exact ⟨_, _, _, rfl⟩
  | error fault => exact absurd (deliver_eq_error hd).1 h

theorem wrote_of_deliver {said output diagnostics : Bytes} {after : FileTree}
    (hd : deliver opened (framed playback.records) sink = .ok (output, diagnostics, after))
    (hc : Complete 0 playback) (he : playback.error = none) :
    Wrote opened sink playback.records.length (framed playback.records)
      ((Ending.ofSession playback.error playback.records.length playback.session).outcome output
        (said ++ diagnostics) after) := by
  obtain ⟨summary, hwait, hemitted, hreason⟩ := hc.summary he
  rw [Nat.zero_add] at hemitted
  refine ⟨summary.restarts, said, output, diagnostics, after, hd, ?_⟩
  simp only [he, Ending.ofSession, hwait, Ending.outcome, closing_eq hreason, hemitted]

/-- **A program that ends well has written all that was read**, and counts it. -/
theorem exists_wrote (ho : openOutput tree arguments.out = .ok (sink, opened))
    (h : perform tree filter time arguments = some outcome) (hcode : outcome.code = 0) :
    ∃ prepared playback,
      (Session.prepare opened arguments.input arguments.settings).value = .ok prepared ∧
      (ofSession opened (prepared.proceed opened).value).value = some playback ∧
      playback.error = none ∧ (∀ record ∈ playback.records, record.Framable) ∧
      Wrote opened sink playback.records.length (framed playback.records) outcome := by
  rcases perform_cases ho h with
    ⟨e, said, -, rfl⟩ |
    ⟨prepared, hp,
      ⟨playback, said, output, diagnostics, after, hplayback, hd, rfl⟩ | ⟨-, -, said, rfl⟩⟩
  · cases hcode
  · have hcomplete := complete_of_readTimes (Session.underway_of_prepare hp opened) hplayback
    have herror : playback.error = none := by
      rw [Ending.code_outcome] at hcode
      cases he : playback.error with
      | none => rfl
      | some e =>
        rw [he] at hcode
        cases hcode
    exact ⟨prepared, playback, hp, hplayback, herror, hcomplete.framable,
      wrote_of_deliver hd hcomplete herror⟩
  · cases hcode

/-- **What was read without an error is the merge of all that the captures had to give.** -/
theorem exists_drained_of_error_none (hl : arguments.settings.looping = false)
    (hp : (Session.prepare opened arguments.input arguments.settings).value = .ok prepared)
    (hplayback : (ofSession opened (prepared.proceed opened).value).value = some playback)
    (he : playback.error = none) :
    ∃ sources contents items,
      (resolveSources opened arguments.input).value = .ok sources ∧ Stocked sources contents ∧
      (∀ content ∈ contents, content.fault = none) ∧
      Merge.Drained Merge.Wins (contents.map Content.records) items ∧
      playback.records = items.map (·.2) := by
  obtain ⟨hv, sources, hs, -⟩ := Session.exists_sources_of_prepare hp
  obtain ⟨contents, hstocked⟩ := stocked_of_resolveSources hs
  obtain ⟨items, hd⟩ := Merge.exists_drained (contents.map Content.records)
  obtain ⟨pump, hpump⟩ : ∃ pump, pump = Pump.mk arguments.input arguments.settings.looping
      sources (.new arguments.settings.speed) 0 0 := ⟨_, rfl⟩
  have hat : Stocked pump.sources contents := hpump ▸ hstocked
  have hlooping : pump.looping = false := hpump ▸ hl
  rw [Session.prepare_of_resolve hv hs, ← hpump] at hp
  cases hp
  have hfree : ∀ content ∈ contents, content.fault = none := by
    by_contra hfaulty
    -- a fault would have been read as an error behind the cut
    push Not at hfaulty
    obtain ⟨first, path, fault, hcut⟩ := Merge.exists_cut hd hfaulty
    have hconcludes :=
      @Session.concludes_of_cut ⟨pump, .ready, false⟩ _ _ _ rfl hat hd _ _ _ hcut opened
    have herror := (of_concludes_error hconcludes hplayback).2
    rw [he] at herror
    cases herror
  have hconcludes :=
    @Session.concludes_of_faultFree ⟨pump, .ready, false⟩ _ _ _ rfl hlooping hat hfree hd opened
  exact ⟨sources, contents, items, hs, hstocked, hfree, hd,
    (of_concludes_exhausted hconcludes hplayback).1⟩

/-- **Captures that can all be read are played back to a good end**: their merge is written. -/
theorem exists_wrote_of_captures (ho : openOutput tree arguments.out = .ok (sink, opened))
    (hv : arguments.settings.validate = .ok ()) (hl : arguments.settings.looping = false)
    (hc : Captures opened arguments.input captures) (hroom : sink ≠ .device .full)
    (filter : LogFilter) (time : String) :
    ∃ items outcome, Merge.Drained Merge.Wins (captures.map Record.ofCapture) items ∧
      perform tree filter time arguments = some outcome ∧
      Wrote opened sink items.length (framed (items.map (·.2))) outcome := by
  obtain ⟨sources, items, pump, session, final, hs, hopened, hloop, -, -, -, -, -, hstart,
    hawaits⟩ :=
    Session.exists_start hv hl hc
  have hp := Session.prepare_of_resolve hv hs
  rw [start_of_prepare hp] at hstart
  cases hstart
  obtain ⟨playback, hplayback⟩ := exists_ofSession hl hp
  obtain ⟨log, hperform⟩ := @perform_of_prepare _ _ _ _ filter time _ ho hp
  rw [hplayback] at hperform
  have hconcludes := hawaits.concludes
  rw [Pacing.map_snd_taken_offers] at hconcludes
  obtain ⟨hrecords, herror⟩ := of_concludes_exhausted hconcludes hplayback
  obtain ⟨output, diagnostics, after, hd⟩ := exists_deliver hroom opened (framed playback.records)
  have hwrote := @wrote_of_deliver _ _ _ (Utf8.encode log) _ _ _ hd
    (complete_of_readTimes (Session.underway_of_prepare hp opened) hplayback) herror
  rw [← conclude_of_deliver hd, hrecords, List.length_map] at hwrote
  exact ⟨items, _, hloop.drained_captures hopened, hperform, hwrote⟩

end Playback

end TrafficReplay.CommandLine
