/-
# The playback of a playback

What a program has written to a file is a capture: the records that were read, framed. Played back
alone it is merged with nothing, so neither responses nor times that go backwards change its order,
and as its records can be framed again the same bytes are written (`Playback.replay_of_replay`).
-/
import TrafficReplay.Proofs.Files.Names
import TrafficReplay.Proofs.Playback.Merged
import TrafficReplay.Proofs.Source.Alike

namespace TrafficReplay

theorem framed_ofCapture_framed {records : List Record} (h : ∀ record ∈ records, record.Framable) :
    framed (Record.ofCapture (framed records)) = framed records := by
  rw [Record.ofCapture, split_framed h, framed, List.flatMap_map, List.flatMap_map]
  rfl

theorem length_ofCapture_framed {records : List Record} (h : ∀ record ∈ records, record.Framable) :
    (Record.ofCapture (framed records)).length = records.length := by
  rw [Record.ofCapture, split_framed h, List.length_map, List.length_map]

namespace CommandLine

theorem Outcome.find?_of_on {outcome : Outcome} {names : List String} {bytes : Bytes}
    (h : outcome.on (.file names) = some bytes) :
    outcome.tree.root.find? names = some (.file bytes) := by
  simp only [on] at h
  split at h
  · next contents hfind =>
    cases h
    exact hfind
  · cases h

namespace Playback

def capturesBeside (first second bytes : Bytes) : FileTree :=
  ⟨.directory [("a", .file first), ("b", .file second), ("d", .directory [("c", .file bytes)])], []⟩

theorem openOutput_beside (first second : Bytes) :
    openOutput ⟨.directory [("a", .file first), ("b", .file second)], []⟩ (some "d/c")
      = .ok (.file ["d", "c"], capturesBeside first second []) := by
  cbv

theorem captures_beside (first second bytes : Bytes) :
    Captures (capturesBeside first second bytes) "*" [first, second] := by
  have hsearch : Glob.search (capturesBeside first second bytes) "*"
      = .ok (["a", "b", "d"].map .path) := by cbv
  have ha : (capturesBeside first second bytes).lookup "a" = .ok (.file first) := by cbv
  have hb : (capturesBeside first second bytes).lookup "b" = .ok (.file second) := by cbv
  have hd : (capturesBeside first second bytes).isDirectory "d" = true := by cbv
  refine ⟨_, hsearch, List.cons_ne_nil _ _, ?_⟩
  rw [List.filter_cons_of_pos (by simp [FileTree.isDirectory, ha, Node.isDirectory]),
    List.filter_cons_of_pos (by simp [FileTree.isDirectory, hb, Node.isDirectory]),
    List.filter_cons_of_neg (by simp [hd]), List.filter_nil]
  exact .cons (Source.readable_of_plain ha rfl) (.cons (Source.readable_of_plain hb rfl) .nil)

theorem matchesOnly_beside (first second bytes : Bytes) :
    MatchesOnly (capturesBeside first second bytes) "d/*" "d/c" ∧
      (capturesBeside first second bytes).locate "d/c" = .ok ["d", "c"] := by
  have hd : (capturesBeside first second bytes).isDirectory "d/c" = false := by cbv
  refine ⟨⟨["d/c"], by cbv, ?_⟩, by cbv⟩
  rw [List.filter_cons_of_pos (by rw [hd]; rfl), List.filter_nil]

/-- **Playing back a playback changes nothing.** A program has come to a good end and has written to
a file whose name is not that of a compressed capture. While this file stays as it is, a program
whose pattern matches it alone, when its own output is open, and that writes elsewhere, comes to a
good end too, with whatever speed: both report the same number of records, replayed and written,
which is that of the records in the file, and the second one writes the same bytes. -/
theorem replay_of_replay {tree opened later reopened : FileTree}
    {arguments again : PlaybackArguments} {names : List String} {sink : FileTree.Sink}
    {filter : LogFilter} {time : String} {outcome : Outcome} {path : String}
    (ho : openOutput tree arguments.out = .ok (.file names, opened))
    (hname : Source.isCompressed (Utf8.encode (names.getLastD "")) = false)
    (h : perform tree filter time arguments = some outcome) (hcode : outcome.code = 0)
    (hkept : later.root.find? names = outcome.tree.root.find? names)
    (hv : again.settings.validate = .ok ()) (hl : again.settings.looping = false)
    (ho' : openOutput later again.out = .ok (sink, reopened))
    (hsink : sink ≠ .file names) (hroom : sink ≠ .device .full)
    (hpath : reopened.locate path = .ok names)
    (hm : MatchesOnly reopened again.input path) (filter' : LogFilter) (time' : String) :
    ∃ count bytes outcome', perform later filter' time' again = some outcome' ∧
      outcome'.code = 0 ∧ Wrote opened (.file names) count bytes outcome ∧
      Wrote reopened sink count bytes outcome' ∧
      (∀ replayed written, Reports outcome replayed written ↔ replayed = count ∧ written = count) ∧
      (∀ replayed written, Reports outcome' replayed written ↔ replayed = count ∧ written = count) ∧
      (Framing.split bytes).length = count ∧ outcome.on (.file names) = some bytes ∧
      (Shows sink = true → outcome'.on sink = some bytes) := by
  obtain ⟨prepared, playback, -, -, -, hframable, hwrote⟩ := exists_wrote ho h hcode
  have hon := hwrote.on ho rfl
  -- the file is still there when the second program looks for it, and it is read as it is
  have hthere : reopened.root.find? names = some (.file (framed playback.records)) :=
    (openOutput_keeps ho').other (hkept.trans (Outcome.find?_of_on hon)) rfl hsink
  have hplain : Source.isCompressed (Utf8.encode path) = false :=
    (FileTree.isCompressed_of_locate hpath hthere rfl).trans hname
  have hcaptures := hm.captures
    (Source.readable_of_plain (FileTree.lookup_of_locate hpath hthere) hplain)
  obtain ⟨items, outcome', hdrained, hperform, hwrote'⟩ :=
    exists_wrote_of_captures ho' hv hl hcaptures hroom filter' time'
  have hitems := hdrained.interleaves.map_snd
  have hlength := congrArg List.length hitems
  rw [List.length_map, length_ofCapture_framed hframable] at hlength
  rw [hitems, framed_ofCapture_framed hframable, hlength] at hwrote'
  refine ⟨_, _, outcome', hperform, hwrote'.code, hwrote, hwrote', hwrote.reports.iff,
    hwrote'.reports.iff, ?_, hon, hwrote'.on ho'⟩
  rw [split_framed hframable, List.length_map]

/-- Two captures are played back to a file, and this to the standard output. -/
theorem replay_of_replay_two :
    ∃ outcome outcome' bytes,
      perform twoCaptures (.ofVariable none) "" ⟨"*", {}, some "d/c"⟩ = some outcome ∧
      outcome.code = 0 ∧ outcome.on (.file ["d", "c"]) = some bytes ∧
      perform (capturesBeside firstCapture secondCapture bytes) (.ofVariable none) ""
        ⟨"d/*", {}, none⟩ = some outcome' ∧
      outcome'.code = 0 ∧ Reports outcome 6 6 ∧ Reports outcome' 6 6 ∧ outcome'.output = bytes := by
  have ho := openOutput_beside firstCapture secondCapture
  obtain ⟨items, outcome, hdrained, hperform, hwrote⟩ :=
    @exists_wrote_of_captures twoCaptures _ ⟨"*", {}, some "d/c"⟩ _ _ ho rfl rfl
      (captures_beside firstCapture secondCapture []) (fun h => nomatch h) (.ofVariable none) ""
  have hlength : items.length = 6 := by
    rw [hdrained.length, List.map_cons, List.map_cons, List.map_cons, List.map_cons,
      length_firstCapture, length_secondCapture]
    rfl
  rw [hlength] at hwrote
  have hon := @Wrote.on _ _ ⟨"*", {}, some "d/c"⟩ _ _ _ _ hwrote ho rfl
  generalize framed (items.map (·.2)) = bytes at hon
  obtain ⟨honly, hlocate⟩ := matchesOnly_beside firstCapture secondCapture bytes
  obtain ⟨count, bytes', outcome', hagain, hcode', -, -, hreports, hreports', -, hon', hsame⟩ :=
    @replay_of_replay twoCaptures _ (capturesBeside firstCapture secondCapture bytes) _
      ⟨"*", {}, some "d/c"⟩ ⟨"d/*", {}, none⟩ _ _ _ _ _ _ ho rfl hperform
      hwrote.code (Outcome.find?_of_on hon).symm rfl rfl rfl (fun h => nomatch h)
      (fun h => nomatch h) hlocate honly (.ofVariable none) ""
  rw [hon] at hon'
  cases hon'
  obtain ⟨rfl, -⟩ := (hreports _ _).mp hwrote.reports
  exact ⟨outcome, outcome', bytes, hperform, hwrote.code, hon, hagain, hcode', hwrote.reports,
    (hreports' _ _).mpr ⟨rfl, rfl⟩, Option.some.inj (hsame rfl)⟩

end Playback

end CommandLine

end TrafficReplay
