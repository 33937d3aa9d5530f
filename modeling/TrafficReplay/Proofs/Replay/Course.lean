/-
# Replays from their start to their end

A replay as a whole cannot be started, or it is started and gives results one by one until its
summary is due (`Session.Replays`). Either way it is determined: there is one list of results and
one summary (`Session.Replays.unique`). The replay of one capture gives the records of that capture
in their order, whatever their kinds and times, and then the error of the fault behind them if there
is one (`Session.replays_single`).
-/
import TrafficReplay.Proofs.Replay.Faults
import TrafficReplay.Proofs.Source.Alike

namespace TrafficReplay

/-- What reading a replay of that content alone gives: its records, and then the error of its fault.
-/
def Content.results (content : Content) : List ReadResult :=
  content.records.map (fun record => .ok (some record)) ++
    (content.fault.map fun fault => .error (.cannotRead content.path fault)).toList

def recordOf? : ReadResult → Option Record
  | .ok record => record
  | .error _ => none

def faultOf? : ReadResult → Option Fault
  | .error (.cannotRead _ fault) => some fault
  | _ => none

namespace Content

theorem filterMap_recordOf?_results (content : Content) :
    content.results.filterMap recordOf? = content.records := by
  have hfault : ((content.fault.map fun fault =>
      (.error (.cannotRead content.path fault) : ReadResult)).toList).filterMap recordOf? = [] := by
    cases content.fault with
    | none => rfl
    | some fault => rfl
  rw [results, List.filterMap_append, hfault, List.append_nil, List.filterMap_map]
  exact List.filterMap_some

theorem filterMap_faultOf?_results (content : Content) :
    content.results.filterMap faultOf? = content.fault.toList := by
  have hrecords : (content.records.map fun record =>
      (.ok (some record) : ReadResult)).filterMap faultOf? = [] := by
    rw [List.filterMap_eq_nil_iff]
    intro result h
    obtain ⟨record, -, rfl⟩ := List.mem_map.mp h
    rfl
  rw [results, List.filterMap_append, hrecords, List.nil_append]
  cases content.fault with
  | none => rfl
  | some fault => rfl

theorem results_inj {content other : Content} (h : content.results = other.results) :
    content.records = other.records ∧ content.fault = other.fault := by
  constructor
  · rw [← filterMap_recordOf?_results, h, filterMap_recordOf?_results]
  · have hfault := congrArg List.head? (filterMap_faultOf?_results content)
    rw [h, filterMap_faultOf?_results, Option.head?_toList, Option.head?_toList] at hfault
    exact hfault.symm

theorem ok_none_notMem_results (content : Content) : .ok none ∉ content.results := by
  rw [results, List.mem_append, not_or]
  constructor
  · intro h
    obtain ⟨record, -, hrecord⟩ := List.mem_map.mp h
    cases hrecord
  · cases content.fault with
    | none => exact List.not_mem_nil
    | some fault => simp

end Content

namespace Merge

theorem Cut.eq_of_single {content : Content} {items first : List (Nat × Record)} {path : String}
    {fault : Fault} (hd : Drained Wins [content.records] items)
    (h : Cut [content] items first path fault) :
    first = items ∧ path = content.path ∧ content.fault = some fault := by
  obtain ⟨hfront, ⟨i, other, hc, hpath, hfault, hitems⟩, -⟩ := h
  obtain ⟨rfl, rfl⟩ : i = 0 ∧ content = other := by
    cases i with
    | zero => exact ⟨rfl, Option.some.inj hc⟩
    | succ i => cases hc
  refine ⟨hfront.eq_of_length_le ?_, hpath.symm, hfault⟩
  -- the records are as many as the items of the whole merge
  have hlength := congrArg List.length hd.interleaves.map_snd
  rw [List.length_map] at hlength
  rw [hlength, ← hitems, itemsOf, List.length_map]
  exact List.length_filter_le _ _

end Merge

namespace Session

variable {session : Session} {results others : List ReadResult} {summary summary' : Summary}

theorem Concludes.result_eq (h : session.Concludes results summary)
    (h' : session.Concludes others summary') (n : Nat) :
    results[n]?.getD (.ok none) = others[n]?.getD (.ok none) := by
  have hreads := (h (List.replicate (n + 1) ⟨.directory [], []⟩)).1
  rw [(h' _).1, List.length_replicate] at hreads
  have hn := List.map_inj_left.mp hreads n (List.mem_range.mpr (Nat.lt_succ_self n))
  exact hn.symm

theorem Concludes.summary_eq (h : session.Concludes results summary)
    (h' : session.Concludes others summary') : summary = summary' := by
  have hwait := (h (List.replicate (results.length + others.length) ⟨.directory [], []⟩)).2
  rw [(h' _).2] at hwait
  · exact (Option.some.inj (hwait (by simp))).symm
  · simp

theorem Concludes.unique (h : session.Concludes results summary)
    (h' : session.Concludes others summary') (hr : .ok none ∉ results)
    (ho : .ok none ∉ others) : results = others := by
  refine List.ext_getElem? fun n => ?_
  have hn := h.result_eq h' n
  cases hresult : results[n]? with
  | none =>
    cases hother : others[n]? with
    | none => rfl
    | some other =>
      have hlast : .ok none = other := by rwa [hresult, hother] at hn
      exact absurd (hlast ▸ List.mem_of_getElem? hother) ho
  | some result =>
    cases hother : others[n]? with
    | none =>
      have hlast : result = .ok none := by rwa [hresult, hother] at hn
      exact absurd (hlast ▸ List.mem_of_getElem? hresult) hr
    | some other =>
      rw [hresult, hother] at hn
      exact congrArg some hn

/-- The replay is started, and it gives these results and then this summary. -/
def Replays (tree : FileTree) (pattern : String) (settings : Settings) (results : List ReadResult)
    (summary : Summary) : Prop :=
  ∃ session, (start tree pattern settings).value = .ok session ∧ session.Concludes results summary

variable {tree : FileTree} {pattern : String} {settings : Settings}

theorem Replays.unique (h : Replays tree pattern settings results summary)
    (h' : Replays tree pattern settings others summary') (hr : .ok none ∉ results)
    (ho : .ok none ∉ others) : results = others := by
  obtain ⟨session, hs, hc⟩ := h
  obtain ⟨session', hs', hc'⟩ := h'
  rw [hs] at hs'
  cases hs'
  exact hc.unique hc' hr ho

theorem start_of_resolve_error (hv : settings.validate = .ok ()) {e : ReplayError}
    (hs : (resolveSources tree pattern).value = .error e) :
    (start tree pattern settings).value = .error e := by
  simp only [start, prepare, Pump.start, hv, Logged.value_bind, hs]
  rfl

theorem replays_of_faultFree {sources : List Source} {contents : List Content}
    {items : List (Nat × Record)} (hv : settings.validate = .ok ())
    (hl : settings.looping = false) (hs : (resolveSources tree pattern).value = .ok sources)
    (hstocked : Stocked sources contents) (hf : ∀ content ∈ contents, content.fault = none)
    (hd : Merge.Drained Merge.Wins (contents.map Content.records) items) :
    Replays tree pattern settings (items.map fun item => .ok (some item.2))
      ⟨items.length, 0, .exhausted, 0⟩ := by
  exact ⟨_, (start_of_resolve hv hs rfl).2, begun_of_faultFree hl hstocked hf hd tree⟩

theorem replays_of_cut {sources : List Source} {contents : List Content}
    {items first : List (Nat × Record)} {path : String} {fault : Fault}
    (hv : settings.validate = .ok ()) (hs : (resolveSources tree pattern).value = .ok sources)
    (hstocked : Stocked sources contents)
    (hd : Merge.Drained Merge.Wins (contents.map Content.records) items)
    (hcut : Merge.Cut contents items first path fault) :
    Replays tree pattern settings
      (first.map (fun item => .ok (some item.2)) ++ [.error (.cannotRead path fault)])
      ⟨first.length, 0, .failed (ReplayError.cannotRead path fault).message, 0⟩ := by
  exact ⟨_, (start_of_resolve hv hs rfl).2, begun_of_cut hstocked hd hcut tree⟩

/-- **One capture is replayed as it is**, and all its records are counted. -/
theorem replays_single {source : Source} {content : Content} (hv : settings.validate = .ok ())
    (hl : settings.looping = false) (hs : (resolveSources tree pattern).value = .ok [source])
    (hstocks : source.Stocks content) : ∃ summary,
      Replays tree pattern settings content.results summary ∧
      summary.emitted = content.records.length := by
  have hstocked : Stocked [source] [content] := .cons hstocks .nil
  obtain ⟨items, hd⟩ := Merge.exists_drained ([content].map Content.records)
  have hitems : items.map (·.2) = content.records := hd.interleaves.map_snd
  have hlength : items.length = content.records.length := by rw [← hitems, List.length_map]
  have hrecords : items.map (fun item => (.ok (some item.2) : ReadResult))
      = content.records.map fun record => .ok (some record) := by
    rw [← hitems, List.map_map]
    rfl
  cases hf : content.fault with
  | none =>
    have hall := replays_of_faultFree hv hl hs hstocked (by simpa using hf) hd
    have hresults : content.results = items.map fun item => .ok (some item.2) := by
      rw [Content.results, hf, ← hrecords]
      exact List.append_nil _
    exact ⟨_, hresults ▸ hall, hlength⟩
  | some fault =>
    obtain ⟨first, path, fault', hcut⟩ :=
      Merge.exists_cut hd ⟨content, List.mem_singleton_self content, by simp [hf]⟩
    obtain ⟨rfl, rfl, hf'⟩ := hcut.eq_of_single hd
    rw [hf] at hf'
    cases hf'
    have hfirst := replays_of_cut hv hs hstocked hd hcut
    have hresults : content.results = first.map (fun item => .ok (some item.2)) ++
        [.error (.cannotRead content.path fault)] := by
      rw [Content.results, hf, ← hrecords]
      rfl
    exact ⟨_, hresults ▸ hfirst, hlength⟩

end Session

end TrafficReplay
