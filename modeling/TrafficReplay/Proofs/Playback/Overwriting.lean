/-
# An output among the captures

The output is opened, and with that emptied, before the captures are. So if it is one of the files
that the pattern matches, what this file held is gone before it could be read, and the program comes
to a good end without it (`Playback.not_all_that_was_held`). What is written then is the merge of
what the other files held (`Playback.writes_what_remains`); that is the merge of what all of them
held only if nothing was to be lost. An output that was not there before may be matched once it is
open (`Playback.isAdded`); there is nothing in it, and the merge is the same without it
(`Playback.exists_drained_before`).
-/
import TrafficReplay.Proofs.Merge.Winner
import TrafficReplay.Proofs.Playback.Merged
import TrafficReplay.Proofs.Source.Alike
import TrafficReplay.Proofs.Source.Refusals

namespace TrafficReplay

namespace Framing

theorem Yields.not_mem {deliveries : List Delivery} {raws : List Bytes} {fault : Option Fault}
    (h : Yields deliveries raws fault) : ∀ raw ∈ raws, separator ∉ payloadLines raw := by
  induction h with
  | ended _ => exact fun _ hmem => nomatch hmem
  | failed _ => exact fun _ hmem => nomatch hmem
  | record hr _ ih => exact List.forall_mem_cons.mpr ⟨not_mem_of_readRecord hr, ih⟩

end Framing

namespace Source

/-- The capture at `path` holds these records, and possibly a fault behind them. -/
def Gives (tree : FileTree) (path : String) (records : List Record) : Prop :=
  ∃ deliveries raws fault, openStream tree path = .ok deliveries ∧
    Framing.Yields deliveries raws fault ∧ records = raws.map Record.ofBytes

variable {tree later : FileTree} {path : String} {records : List Record}
  {deliveries : List Delivery}

theorem Gives.framable (h : Gives tree path records) : ∀ record ∈ records, record.Framable := by
  obtain ⟨deliveries, raws, fault, -, hy, rfl⟩ := h
  intro record hmem
  obtain ⟨raw, hraw, rfl⟩ := List.mem_map.mp hmem
  exact hy.not_mem raw hraw

theorem Readable.gives {capture : Bytes} (h : Readable tree path capture) :
    Gives tree path (Record.ofCapture capture) := by
  obtain ⟨deliveries, ho, hf, rfl⟩ := h
  exact ⟨deliveries, _, none, ho, Framing.yields_of_faultFree hf, rfl⟩

theorem exists_lookup_of_openStream (h : openStream tree path = .ok deliveries) :
    ∃ node, tree.lookup path = .ok node := by
  unfold openStream at h
  cases hl : tree.lookup path with
  | error fault =>
    rw [hl] at h
    cases h
  | ok node => exact ⟨node, rfl⟩

theorem openStream_congr (h : tree.lookup path = later.lookup path) :
    openStream tree path = openStream later path := by
  unfold openStream
  rw [h]

/-- An empty file holds no records, and with the name of a compressed capture it cannot be opened.
-/
theorem Stocks.records_of_empty {source : Source} {content : Content}
    (hl : tree.lookup path = .ok (.file [])) (hs : (openAt tree path).value = .ok source)
    (hc : source.Stocks content) : content.records = [] := by
  cases hcompressed : isCompressed (Utf8.encode path) with
  | true =>
    have hempty : unpackNode? (.file []) = none := rfl
    have hrefused := openStream_headless hl (fun _ h => nomatch h) hcompressed hempty
    rw [openAt_of_error hrefused] at hs
    cases hs
  | false =>
    have ho : openStream tree path = .ok [.portion []] := by
      simp only [openStream, hl, hcompressed]
      rfl
    exact congrArg Content.records
      (hc.unique (stocks_of_openAt ho (.ended Framing.readRecord_empty) hs))

/-- A source was opened on the path, and it has this content. -/
def Brings (tree : FileTree) (path : String) (content : Content) : Prop :=
  ∃ source, (openAt tree path).value = .ok source ∧ source.Stocks content

theorem Brings.path_eq {content : Content} (h : Brings tree path content) :
    content.path = path := by
  obtain ⟨source, hs, hc⟩ := h
  cases ho : openStream tree path with
  | error error =>
    rw [openAt_of_error ho] at hs
    cases hs
  | ok deliveries =>
    obtain ⟨raws, fault, hy⟩ := Framing.exists_yields deliveries
    exact congrArg Content.path (hc.unique (stocks_of_openAt ho hy hs))

end Source

theorem brings_of_stocked {tree : FileTree} {paths : List String} {sources : List Source}
    {contents : List Content}
    (hs : List.Forall₂ (fun path source => (Source.openAt tree path).value = .ok source)
      paths sources) (hc : Stocked sources contents) :
    List.Forall₂ (Source.Brings tree) paths contents := by
  induction hs generalizing contents with
  | nil =>
    cases hc
    exact .nil
  | cons hopen _ ih =>
    cases hc with
    | cons hstocks hstocked => exact .cons ⟨_, hopen, hstocks⟩ (ih hstocked)

/-- The files that the pattern matches, directories apart, and the records that they hold. -/
def Held (tree : FileTree) (pattern : String) (paths : List String) (queues : List (List Record)) :
    Prop :=
  ∃ found : List String, Glob.search tree pattern = .ok (found.map .path) ∧
    paths = found.filter (fun path => !tree.isDirectory path) ∧
    List.Forall₂ (Source.Gives tree) paths queues

namespace CommandLine.Playback

open FileTree

def isOutput (tree : FileTree) (sink : Sink) (path : String) : Bool :=
  match tree.locate path with
  | .ok names => sink = .file names
  | .error _ => false

/-- Whether the path leads to the output, and led to nothing before that was opened. -/
def isAdded (tree opened : FileTree) (sink : Sink) (path : String) : Bool :=
  isOutput opened sink path && !(tree.lookup path).isOk

/-- What remains of the records of a capture when the output is open. -/
def remaining (tree : FileTree) (sink : Sink) (path : String) (records : List Record) :
    List Record :=
  if isOutput tree sink path then [] else records

variable {tree opened : FileTree} {arguments : PlaybackArguments} {sink : Sink} {filter : LogFilter}
  {time : String} {outcome : Outcome} {path : String} {paths : List String}
  {queues : List (List Record)}

/-! ## Captures when the output is open -/

/-- What a path leads to when the output is open: what was there, unless that is the output. -/
theorem lookup_of_openOutput (ho : openOutput tree arguments.out = .ok (sink, opened)) {node : Node}
    (hl : tree.lookup path = .ok node) (hn : node.isDirectory = false) :
    opened.lookup path = .ok (if isOutput tree sink path then .file [] else node) := by
  have hkeeps := openOutput_keeps ho
  obtain ⟨names, hlocate, hnode⟩ := exists_locate_of_lookup hl
  have hopened := hkeeps.locate hlocate
  rw [isOutput, hlocate]
  by_cases hsink : sink = .file names
  · subst hsink
    rw [if_pos (decide_eq_true rfl)]
    exact lookup_of_locate hopened (find?_of_openOutput ho)
  · rw [if_neg (by simpa using hsink)]
    exact lookup_of_locate hopened (hkeeps.other hnode hn hsink)

theorem isDirectory_of_openOutput (ho : openOutput tree arguments.out = .ok (sink, opened))
    {node : Node} (hl : tree.lookup path = .ok node) :
    opened.isDirectory path = tree.isDirectory path := by
  cases hn : node.isDirectory with
  | false =>
    rw [isDirectory, isDirectory, hl, lookup_of_openOutput ho hl hn]
    dsimp only
    split
    · exact hn.symm
    · rfl
  | true =>
    obtain ⟨names, hlocate, hnode⟩ := exists_locate_of_lookup hl
    obtain ⟨later, hlater, hd⟩ := (openOutput_keeps ho).directory ⟨node, hnode, hn⟩
    rw [isDirectory, isDirectory, hl,
      lookup_of_locate ((openOutput_keeps ho).locate hlocate) hlater]
    exact hd.trans hn.symm

theorem records_of_brings (ho : openOutput tree arguments.out = .ok (sink, opened))
    {content : Content} {records : List Record} (hg : Source.Gives tree path records)
    (hd : tree.isDirectory path = false) (hbrings : Source.Brings opened path content) :
    content.records = remaining tree sink path records := by
  obtain ⟨source, hs, hc⟩ := hbrings
  obtain ⟨deliveries, raws, fault, hstream, hy, rfl⟩ := hg
  obtain ⟨node, hl⟩ := Source.exists_lookup_of_openStream hstream
  have hn : node.isDirectory = false := by
    rwa [isDirectory, hl] at hd
  have hopened := lookup_of_openOutput ho hl hn
  rw [remaining]
  cases hout : isOutput tree sink path with
  | true =>
    rw [hout, if_pos rfl] at hopened
    exact hc.records_of_empty hopened hs
  | false =>
    rw [hout, if_neg Bool.false_ne_true] at hopened
    have hstream' := (Source.openStream_congr (hl.trans hopened.symm)).symm.trans hstream
    exact congrArg Content.records (hc.unique (Source.stocks_of_openAt hstream' hy hs))

theorem map_records_of_brings (ho : openOutput tree arguments.out = .ok (sink, opened))
    {contents : List Content} (hg : List.Forall₂ (Source.Gives tree) paths queues)
    (hd : ∀ path ∈ paths, tree.isDirectory path = false)
    (hbrings : List.Forall₂ (Source.Brings opened) paths contents) :
    contents.map Content.records = List.zipWith (remaining tree sink) paths queues := by
  induction hg generalizing contents with
  | nil =>
    cases hbrings
    rfl
  | cons hgives _ ih =>
    cases hbrings with
    | cons hopen hbrings =>
      obtain ⟨hpath, hpaths⟩ := List.forall_mem_cons.mp hd
      rw [List.map_cons, List.zipWith_cons_cons, ih hpaths hbrings,
        records_of_brings ho hgives hpath hopen]

theorem records_of_isAdded (ho : openOutput tree arguments.out = .ok (sink, opened))
    {content : Content} (hadded : isAdded tree opened sink path = true)
    (hbrings : Source.Brings opened path content) : content.records = [] := by
  obtain ⟨source, hs, hc⟩ := hbrings
  have hout := (Bool.and_eq_true_iff.mp hadded).1
  rw [isOutput] at hout
  cases hlocate : opened.locate path with
  | error fault =>
    rw [hlocate] at hout
    cases hout
  | ok names =>
    rw [hlocate] at hout
    obtain rfl := of_decide_eq_true hout
    exact hc.records_of_empty (lookup_of_locate hlocate (find?_of_openOutput ho)) hs

/-- What the sources have besides is nothing, if the output is the only match that opening it added:
the merge is that of the sources on what was found before. -/
theorem exists_drained_before (ho : openOutput tree arguments.out = .ok (sink, opened))
    {contents : List Content} {items : List (Nat × Record)}
    (hbrings : List.Forall₂ (Source.Brings opened) paths contents)
    (hd : Merge.Drained Merge.Wins (contents.map Content.records) items) :
    ∃ before others,
      List.Forall₂ (Source.Brings opened)
        (paths.filter fun path => !isAdded tree opened sink path) before ∧
      Merge.Drained Merge.Wins (before.map Content.records) others ∧
      others.map (·.2) = items.map (·.2) := by
  have hkept := List.rel_filter (p := fun path => !isAdded tree opened sink path)
    (q := fun content => !isAdded tree opened sink content.path)
    (fun path content h => by dsimp only; rw [h.path_eq]) hbrings
  have hempty : ∀ content ∈ contents, (!isAdded tree opened sink content.path) = false →
      content.records = [] := by
    intro content hmem hkeeps
    obtain ⟨path, -, hopen⟩ := forall₂_exists_of_mem_right hbrings hmem
    rw [hopen.path_eq] at hkeeps
    exact records_of_isAdded ho (by simpa using hkeeps) hopen
  obtain ⟨others, hothers, heq⟩ := hd.exists_without_empty hempty
  exact ⟨_, others, hkept, hothers, heq⟩

theorem filter_of_openOutput (ho : openOutput tree arguments.out = .ok (sink, opened))
    {found : List String}
    (hg : List.Forall₂ (Source.Gives tree)
      (found.filter fun path => !tree.isDirectory path) queues) :
    (found.filter fun path => !opened.isDirectory path)
      = found.filter fun path => !tree.isDirectory path := by
  refine List.filter_congr fun path hmem => congrArg not ?_
  cases hd : tree.isDirectory path with
  | true =>
    cases hl : tree.lookup path with
    | error fault =>
      rw [isDirectory, hl] at hd
      cases hd
    | ok node => rw [isDirectory_of_openOutput ho hl, hd]
  | false =>
    obtain ⟨records, -, deliveries, raws, fault, hstream, -⟩ :=
      forall₂_exists_of_mem_right hg.flip (List.mem_filter.mpr ⟨hmem, by rw [hd]; rfl⟩)
    obtain ⟨node, hl⟩ := Source.exists_lookup_of_openStream hstream
    rw [isDirectory_of_openOutput ho hl, hd]

/-! ## What is lost -/

theorem length_remaining_le (tree : FileTree) (sink : Sink) (path : String)
    (records : List Record) : (remaining tree sink path records).length ≤ records.length := by
  rw [remaining]
  split
  · exact Nat.zero_le _
  · exact Nat.le_refl _

theorem sum_remaining_le (tree : FileTree) (sink : Sink) (paths : List String)
    (queues : List (List Record)) :
    ((List.zipWith (remaining tree sink) paths queues).map List.length).sum
      ≤ (queues.map List.length).sum := by
  induction paths generalizing queues with
  | nil => exact Nat.zero_le _
  | cons path paths ih =>
    cases queues with
    | nil => exact Nat.le_refl _
    | cons records queues =>
      rw [List.zipWith_cons_cons, List.map_cons, List.map_cons, List.sum_cons, List.sum_cons]
      exact Nat.add_le_add (length_remaining_le tree sink path records) (ih queues)

theorem nil_of_sum_remaining (hlen : paths.length = queues.length)
    (h : ((List.zipWith (remaining tree sink) paths queues).map List.length).sum
      = (queues.map List.length).sum) :
    ∀ entry ∈ paths.zip queues, isOutput tree sink entry.1 = true → entry.2 = [] := by
  induction paths generalizing queues with
  | nil => exact fun _ hmem => nomatch hmem
  | cons path paths ih =>
    cases queues with
    | nil => cases hlen
    | cons records queues =>
      rw [List.zipWith_cons_cons, List.map_cons, List.map_cons, List.sum_cons, List.sum_cons] at h
      have hhere := length_remaining_le tree sink path records
      have hthere := sum_remaining_le tree sink paths queues
      refine List.forall_mem_cons.mpr ⟨fun hout => ?_, ih (Nat.succ.inj hlen) (by omega)⟩
      rw [remaining, hout, if_pos rfl, List.length_nil] at h
      have hzero : records.length = 0 := by omega
      exact List.length_eq_zero_iff.mp hzero

theorem zipWith_remaining_eq (hlen : paths.length = queues.length)
    (h : ∀ entry ∈ paths.zip queues, isOutput tree sink entry.1 = true → entry.2 = []) :
    List.zipWith (remaining tree sink) paths queues = queues := by
  induction paths generalizing queues with
  | nil =>
    cases queues with
    | nil => rfl
    | cons records queues => cases hlen
  | cons path paths ih =>
    cases queues with
    | nil => cases hlen
    | cons records queues =>
      obtain ⟨hhere, hthere⟩ := List.forall_mem_cons.mp h
      rw [List.zipWith_cons_cons, ih (Nat.succ.inj hlen) hthere, remaining]
      split
      · next hout =>
        have hempty : records = [] := hhere hout
        rw [hempty]
      · rfl

theorem framable_of_drained {items : List (Nat × Record)}
    (h : Merge.Drained Merge.Wins queues items)
    (hg : List.Forall₂ (Source.Gives tree) paths queues) :
    ∀ record ∈ items.map (·.2), record.Framable := by
  intro record hmem
  obtain ⟨entry, hentry, rfl⟩ := List.mem_map.mp hmem
  obtain ⟨queue, hqueue, hrecord⟩ := List.mem_flatten.mp (h.interleaves.mem_flatten hentry)
  obtain ⟨path, -, hgives⟩ := forall₂_exists_of_mem_right hg hqueue
  exact hgives.framable entry.2 hrecord

theorem length_eq_of_framed_eq {items others : List (Nat × Record)}
    (h : ∀ record ∈ items.map (·.2), record.Framable)
    (h' : ∀ record ∈ others.map (·.2), record.Framable)
    (heq : framed (items.map (·.2)) = framed (others.map (·.2))) :
    items.length = others.length := by
  have hsplit := congrArg (fun bytes => (Framing.split bytes).length) heq
  simpa only [split_framed h, split_framed h', List.length_map] using hsplit

/-! ## Two captures, one of them the output -/

theorem ofCapture_nil : Record.ofCapture [] = [] := by
  decide +kernel

def twoFiles (first second : Bytes) : FileTree :=
  ⟨.directory [("a", .file first), ("b", .file second)], []⟩

theorem openOutput_twoFiles (first second : Bytes) :
    openOutput (twoFiles first second) (some "b") = .ok (.file ["b"], twoFiles first []) := by
  cbv

theorem lookup_twoFiles (first second : Bytes) :
    (twoFiles first second).lookup "a" = .ok (.file first) ∧
      (twoFiles first second).lookup "b" = .ok (.file second) :=
  ⟨by cbv, by cbv⟩

theorem search_twoFiles (first second : Bytes) :
    Glob.search (twoFiles first second) "*" = .ok (["a", "b"].map .path) := by
  cbv

theorem eq_filter_isAdded_twoFiles (first second : Bytes) (found later : List String)
    (hfound : Glob.search (twoFiles first second) "*" = .ok (found.map .path))
    (hlater : Glob.search (twoFiles first []) "*" = .ok (later.map .path)) :
    found = later.filter fun path =>
      !isAdded (twoFiles first second) (twoFiles first []) (.file ["b"]) path := by
  have hinjective : Function.Injective (List.map Glob.Finding.path) :=
    List.map_injective_iff.mpr fun _ _ h => Glob.Finding.path.inj h
  obtain ⟨ha, hb⟩ := lookup_twoFiles first second
  rw [search_twoFiles] at hfound hlater
  obtain rfl := hinjective (Except.ok.inj hfound)
  obtain rfl := hinjective (Except.ok.inj hlater)
  rw [List.filter_cons_of_pos (by simp [isAdded, ha, Except.isOk, Except.toBool]),
    List.filter_cons_of_pos (by simp [isAdded, hb, Except.isOk, Except.toBool]), List.filter_nil]

theorem captures_twoFiles (first second : Bytes) :
    (["a", "b"].filter fun path => !(twoFiles first second).isDirectory path) = ["a", "b"] ∧
      List.Forall₂ (Source.Readable (twoFiles first second)) ["a", "b"] [first, second] := by
  obtain ⟨ha, hb⟩ := lookup_twoFiles first second
  constructor
  · rw [List.filter_cons_of_pos (by simp [isDirectory, ha, Node.isDirectory]),
      List.filter_cons_of_pos (by simp [isDirectory, hb, Node.isDirectory]), List.filter_nil]
  · exact .cons (Source.readable_of_plain ha rfl) (.cons (Source.readable_of_plain hb rfl) .nil)

theorem held_twoFiles (first second : Bytes) :
    Held (twoFiles first second) "*" ["a", "b"]
      [Record.ofCapture first, Record.ofCapture second] := by
  obtain ⟨hfilter, hreadable⟩ := captures_twoFiles first second
  refine ⟨_, search_twoFiles first second, hfilter.symm, ?_⟩
  cases hreadable with
  | cons ha hrest =>
    cases hrest with
    | cons hb _ => exact .cons ha.gives (.cons hb.gives .nil)

theorem exists_wrote_twoFiles (first second : Bytes) :
    ∃ items outcome,
      Merge.Drained Merge.Wins [Record.ofCapture first, Record.ofCapture []] items ∧
      perform (twoFiles first second) (.ofVariable none) "" ⟨"*", {}, some "b"⟩ = some outcome ∧
      Wrote (twoFiles first []) (.file ["b"]) items.length (framed (items.map (·.2))) outcome := by
  obtain ⟨hfilter, hreadable⟩ := captures_twoFiles first []
  have hcaptures : Captures (twoFiles first []) "*" [first, []] :=
    ⟨_, search_twoFiles first [], List.cons_ne_nil _ _, hfilter.symm ▸ hreadable⟩
  exact @exists_wrote_of_captures (twoFiles first second) _ ⟨"*", {}, some "b"⟩ _ _
    (openOutput_twoFiles first second) rfl rfl hcaptures (fun h => nomatch h) (.ofVariable none) ""

/-! ## What is written -/

/-- **What is written is the merge of what remains.** A program that does not loop and comes to a
good end has written what the files that the pattern matches held when it was started, merged,
except that a file that is the output counts as empty. So it has written the merge of all that they
held if and only if the output held no records, or is none of them. The output may be a match that
was not there before, but opening it must not add others: the directory that is made for `d/c` gives
the pattern `d/../a` its match. -/
theorem writes_what_remains (ho : openOutput tree arguments.out = .ok (sink, opened))
    (hl : arguments.settings.looping = false) (hheld : Held tree arguments.input paths queues)
    (hadded : ∀ found later : List String,
      Glob.search tree arguments.input = .ok (found.map .path) →
      Glob.search opened arguments.input = .ok (later.map .path) →
      found = later.filter fun path => !isAdded tree opened sink path)
    (h : perform tree filter time arguments = some outcome) (hcode : outcome.code = 0) :
    ∃ items, Merge.Drained Merge.Wins (List.zipWith (remaining tree sink) paths queues) items ∧
      Wrote opened sink items.length (framed (items.map (·.2))) outcome ∧
      (Shows sink = true → outcome.on sink = some (framed (items.map (·.2)))) ∧
      ∀ held, Merge.Drained Merge.Wins queues held →
        (framed (items.map (·.2)) = framed (held.map (·.2)) ↔
          ∀ entry ∈ paths.zip queues, isOutput tree sink entry.1 = true → entry.2 = []) := by
  obtain ⟨found, hfound, rfl, hg⟩ := hheld
  obtain ⟨prepared, playback, hp, hplayback, herror, hframable, hwrote⟩ := exists_wrote ho h hcode
  obtain ⟨sources, contents, all, hs, hstocked, -, hall, hrecords⟩ :=
    exists_drained_of_error_none hl hp hplayback herror
  obtain ⟨later, hlater, hopen, -⟩ := openSources_of_resolveSources hs
  -- the sources on what was found before the output was opened, and what they have
  obtain ⟨before, items, hbefore, hdrained, heq⟩ := exists_drained_before ho
    (brings_of_stocked (opened_of_openSources hopen) hstocked) hall
  rw [List.filter_comm, ← hadded found later hfound hlater, filter_of_openOutput ho hg] at hbefore
  rw [map_records_of_brings ho hg (fun path hmem => by
    simpa using (List.mem_filter.mp hmem).2) hbefore] at hdrained
  rw [hrecords, ← heq] at hframable
  rw [hrecords, ← heq, List.length_map] at hwrote
  have hlen := hg.length_eq
  refine ⟨items, hdrained, hwrote, hwrote.on ho,
    fun held hheld => ⟨fun hequal => ?_, fun hnil => ?_⟩⟩
  · have hlength := length_eq_of_framed_eq hframable (framable_of_drained hheld hg) hequal
    rw [hdrained.length, hheld.length] at hlength
    exact nil_of_sum_remaining hlen hlength
  · rw [zipWith_remaining_eq hlen hnil] at hdrained
    rw [hdrained.unique hheld]

/-- Of the six records that two captures held, the three of the output are lost. -/
theorem writes_what_remains_two :
    ∃ (outcome : Outcome) (items : List (Nat × Record)),
      perform (twoFiles firstCapture secondCapture) (.ofVariable none) "" ⟨"*", {}, some "b"⟩
        = some outcome ∧
      outcome.code = 0 ∧ items.length = 3 ∧
      outcome.on (.file ["b"]) = some (framed (items.map (·.2))) ∧
      ∀ held,
        Merge.Drained Merge.Wins [Record.ofCapture firstCapture, Record.ofCapture secondCapture]
        held → framed (items.map (·.2)) ≠ framed (held.map (·.2)) := by
  obtain ⟨_, outcome, -, hperform, hwrote⟩ := exists_wrote_twoFiles firstCapture secondCapture
  have ho := openOutput_twoFiles firstCapture secondCapture
  obtain ⟨items, hdrained, -, hon, hall⟩ := @writes_what_remains _ _ ⟨"*", {}, some "b"⟩ _
    (.ofVariable none) "" outcome _ _ ho rfl (held_twoFiles firstCapture secondCapture)
    (eq_filter_isAdded_twoFiles firstCapture secondCapture)
    hperform hwrote.code
  have ha : isOutput (twoFiles firstCapture secondCapture) (.file ["b"]) "a" = false := by cbv
  have hb : isOutput (twoFiles firstCapture secondCapture) (.file ["b"]) "b" = true := by cbv
  refine ⟨outcome, items, hperform, hwrote.code, ?_, hon rfl, fun held hheld hequal => ?_⟩
  · rw [hdrained.length, List.zipWith_cons_cons, List.zipWith_cons_cons, remaining, remaining, ha,
      hb, List.zipWith_nil_left, List.map_cons, List.map_cons, List.map_nil,
      if_neg Bool.false_ne_true, if_pos rfl, length_firstCapture]
    rfl
  · have hnil := (hall held hheld).mp hequal ("b", Record.ofCapture secondCapture)
      (List.mem_cons_of_mem _ List.mem_cons_self) hb
    have hlength := congrArg List.length hnil
    rw [length_secondCapture] at hlength
    cases hlength

/-- **A program may come to a good end without all that its captures held.** -/
theorem not_all_that_was_held :
    ¬ ∀ (tree opened : FileTree) (arguments : PlaybackArguments) (sink : Sink) (filter : LogFilter)
        (time : String) (outcome : Outcome) (paths : List String) (queues : List (List Record))
        (held : List (Nat × Record)),
      openOutput tree arguments.out = .ok (sink, opened) → arguments.settings.looping = false →
      Held tree arguments.input paths queues → Merge.Drained Merge.Wins queues held →
      perform tree filter time arguments = some outcome → outcome.code = 0 → Shows sink = true →
      outcome.on sink = some (framed (held.map (·.2))) := by
  intro hall
  obtain ⟨items, outcome, hitems, hperform, hwrote⟩ :=
    exists_wrote_twoFiles firstCapture secondCapture
  have ho := openOutput_twoFiles firstCapture secondCapture
  obtain ⟨held, hheld⟩ := Merge.exists_drained
    [Record.ofCapture firstCapture, Record.ofCapture secondCapture]
  have hon := @Wrote.on _ _ ⟨"*", {}, some "b"⟩ _ _ _ _ hwrote ho rfl
  rw [hall _ _ ⟨"*", {}, some "b"⟩ _ _ _ outcome _ _ held ho rfl
    (held_twoFiles firstCapture secondCapture) hheld hperform hwrote.code rfl] at hon
  -- three records and six records would make the same bytes
  obtain ⟨_, _, _, hthree⟩ := held_twoFiles firstCapture []
  obtain ⟨_, _, _, hsix⟩ := held_twoFiles firstCapture secondCapture
  have hlength := length_eq_of_framed_eq (framable_of_drained hheld hsix)
    (framable_of_drained hitems hthree) (Option.some.inj hon)
  rw [hheld.length, hitems.length, List.map_cons, List.map_cons, List.map_cons, List.map_cons,
    length_firstCapture, length_secondCapture, ofCapture_nil] at hlength
  cases hlength

end CommandLine.Playback

end TrafficReplay
