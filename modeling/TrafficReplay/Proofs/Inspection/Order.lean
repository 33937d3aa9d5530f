/-
# What the count of disorder certifies

An inspection compares each record with the one right before it only. It counts none that is older
just when the whole capture is in order (`Inspection.disorder_eq_zero_iff`), and captures in order
are what a merge needs to bring no older record behind one that is no response
(`Merge.Drained.pairwise_of_sorted`). So the counts of inspections certify a replay
(`Inspection.disorder_certifies`).
-/
import TrafficReplay.Proofs.Inspection.Agreement

namespace TrafficReplay

namespace CommandLine.Inspection

/-- The places of the records that are older than the one right before them. -/
def outOfOrder (records : List Record) : Set Nat :=
  {n | 0 < n ∧ ∃ before here, records[n - 1]? = some before ∧ records[n]? = some here ∧
    here.timestamp < before.timestamp}

theorem outOfOrder_nil : outOfOrder [] = ∅ := by
  refine Set.eq_empty_of_forall_notMem fun n => ?_
  rintro ⟨-, before, here, -, hhere, -⟩
  cases hhere

theorem outOfOrder_singleton (record : Record) : outOfOrder [record] = ∅ := by
  refine Set.eq_empty_of_forall_notMem fun n => ?_
  rintro ⟨hpos, before, here, -, hhere, -⟩
  rw [List.getElem?_eq_none hpos] at hhere
  cases hhere

/-- Whether the second record is older is up to the first two; all others move by one place. -/
theorem mem_outOfOrder_cons_cons {first second : Record} {rest : List Record} {n : Nat} :
    n ∈ outOfOrder (first :: second :: rest) ↔
      n = 1 ∧ second.timestamp < first.timestamp ∨ n ∈ Nat.succ '' outOfOrder (second :: rest) := by
  constructor
  · rintro ⟨hpos, before, here, hbefore, hhere, hlt⟩
    obtain ⟨n, rfl⟩ : ∃ m, n = m + 1 := ⟨n - 1, by omega⟩
    cases n with
    | zero =>
      cases hbefore
      cases hhere
      exact .inl ⟨rfl, hlt⟩
    | succ n => exact .inr ⟨n + 1, ⟨Nat.succ_pos n, before, here, hbefore, hhere, hlt⟩, rfl⟩
  · rintro (⟨rfl, hlt⟩ | ⟨m, ⟨hpos, before, here, hbefore, hhere, hlt⟩, rfl⟩)
    · exact ⟨Nat.one_pos, first, second, rfl, rfl, hlt⟩
    · obtain ⟨m, rfl⟩ : ∃ k, m = k + 1 := ⟨m - 1, by omega⟩
      exact ⟨Nat.succ_pos _, before, here, hbefore, hhere, hlt⟩

theorem finite_outOfOrder (records : List Record) : (outOfOrder records).Finite := by
  refine (Set.finite_lt_nat records.length).subset ?_
  rintro n ⟨-, before, here, -, hhere, -⟩
  exact (List.getElem?_eq_some_iff.mp hhere).1

theorem disorder_cons_cons (first second : Record) (rest : List Record) :
    disorder (first :: second :: rest)
      = disorder (second :: rest) + if second.timestamp < first.timestamp then 1 else 0 := by
  rw [disorder, List.tail_cons, List.zip_cons_cons, List.countP_cons]
  simp only [decide_eq_true_eq]
  rfl

/-- The count is that of the places at which a record is older than the one right before it. -/
theorem disorder_eq_ncard (records : List Record) :
    disorder records = (outOfOrder records).ncard := by
  match records with
  | [] => rw [outOfOrder_nil, Set.ncard_empty]; rfl
  | [record] => rw [outOfOrder_singleton, Set.ncard_empty]; rfl
  | first :: second :: rest =>
    have hmoved : (Nat.succ '' outOfOrder (second :: rest)).ncard = disorder (second :: rest) := by
      rw [Set.ncard_image_of_injective _ Nat.succ_injective, disorder_eq_ncard]
    rw [disorder_cons_cons]
    by_cases hlt : second.timestamp < first.timestamp
    · have hplaces : outOfOrder (first :: second :: rest)
          = insert 1 (Nat.succ '' outOfOrder (second :: rest)) := by
        refine Set.ext fun n => mem_outOfOrder_cons_cons.trans ?_
        rw [Set.mem_insert_iff, and_iff_left hlt]
      have hone : 1 ∉ Nat.succ '' outOfOrder (second :: rest) := by
        rintro ⟨m, ⟨hpos, -⟩, hm⟩
        exact Nat.ne_of_gt hpos (Nat.succ.inj hm)
      rw [if_pos hlt, hplaces,
        Set.ncard_insert_of_notMem hone ((finite_outOfOrder _).image Nat.succ), hmoved]
    · have hplaces : outOfOrder (first :: second :: rest)
          = Nat.succ '' outOfOrder (second :: rest) := by
        refine Set.ext fun n => mem_outOfOrder_cons_cons.trans (or_iff_right ?_)
        exact fun h => hlt h.2
      rw [if_neg hlt, hplaces, hmoved, Nat.add_zero]

theorem disorder_eq_zero_iff_isChain {records : List Record} :
    disorder records = 0 ↔ records.IsChain (·.timestamp ≤ ·.timestamp) := by
  match records with
  | [] => simp [disorder]
  | [record] => simp [disorder]
  | first :: second :: rest =>
    rw [disorder_cons_cons, Nat.add_eq_zero_iff, disorder_eq_zero_iff_isChain,
      List.isChain_cons_cons, and_comm]
    refine and_congr_left fun _ => ?_
    simp only [← Int.not_lt, ite_eq_right_iff, Nat.one_ne_zero, imp_false]

/-- **Neighbours in order are enough for all to be in order.** -/
theorem disorder_eq_zero_iff {records : List Record} :
    disorder records = 0 ↔ records.Pairwise (·.timestamp ≤ ·.timestamp) := by
  have htrans : IsTrans Record (·.timestamp ≤ ·.timestamp) := ⟨fun _ _ _ => Int.le_trans⟩
  rw [disorder_eq_zero_iff_isChain, List.isChain_iff_pairwise]

/-! ## What inspections say of a replay -/

section Replay

variable {library : TimeLibrary} {tree : FileTree} {filter : LogFilter} {time : String}
  {dump : Bool}
  {path : String}

/-- Of a capture that can be read, an inspection reports all records and how many are out of order.
-/
theorem reports_of_readable {capture : Bytes} (h : Source.Readable tree path capture)
    {count disordered : Nat} :
    Reports (list library tree filter time ⟨path, dump⟩) count disordered ↔
      count = (Record.ofCapture capture).length ∧
        disordered = disorder (Record.ofCapture capture) := by
  obtain ⟨deliveries, ho, hf, rfl⟩ := h
  have hending := ending_of_yields ho (Framing.yields_of_faultFree hf)
  rw [reports_list_iff, hending]
  constructor
  · rintro ⟨records, hrecords, hcount, hdisordered⟩
    cases hrecords
    exact ⟨hcount, hdisordered⟩
  · rintro ⟨hcount, hdisordered⟩
    exact ⟨_, rfl, hcount, hdisordered⟩

/-- A capture of which no disorder is reported is opened as a source of records in order. -/
theorem exists_stocks_of_reports {count : Nat}
    (h : Reports (list library tree filter time ⟨path, dump⟩) count 0) :
    ∃ source records, (Source.openAt tree path).value = .ok source ∧
      source.Stocks ⟨path, records, none⟩ ∧ records.Pairwise (·.timestamp ≤ ·.timestamp) := by
  obtain ⟨records, hending, -, hdisorder⟩ := reports_list_iff.mp h
  rcases ending_cases tree path with ⟨e, he, -⟩ | ⟨fault, hf, -⟩ |
    ⟨source, others, fault, hs, hstocks, hsource⟩
  · cases hending.symm.trans he
  · cases hending.symm.trans hf
  · cases fault with
    | some fault => cases hending.symm.trans hsource
    | none =>
      cases hending.symm.trans hsource
      exact ⟨source, records, hs, hstocks, disorder_eq_zero_iff.mp hdisorder.symm⟩

/-- Captures of which no disorder is reported are opened as sources of records in order. -/
theorem exists_stocked_of_reports {paths : List String}
    (h : ∀ path ∈ paths, ∃ count, Reports (list library tree filter time ⟨path, dump⟩) count 0) :
    ∃ sources contents,
      List.Forall₂ (fun path source => (Source.openAt tree path).value = .ok source) paths sources ∧
      Stocked sources contents ∧ ∀ content ∈ contents,
        content.fault = none ∧ content.records.Pairwise (·.timestamp ≤ ·.timestamp) := by
  induction paths with
  | nil => exact ⟨[], [], .nil, .nil, fun _ hmem => absurd hmem List.not_mem_nil⟩
  | cons path paths ih =>
    obtain ⟨sources, contents, hopened, hstocked, hsound⟩ :=
      ih fun other hother => h other (List.mem_cons_of_mem path hother)
    obtain ⟨count, hcount⟩ := h path List.mem_cons_self
    obtain ⟨source, records, hs, hstocks, hsorted⟩ := exists_stocks_of_reports hcount
    refine ⟨source :: sources, ⟨path, records, none⟩ :: contents, .cons hs hopened,
      .cons hstocks hstocked, fun content hmem => ?_⟩
    rcases List.mem_cons.mp hmem with rfl | hmem
    · exact ⟨rfl, hsorted⟩
    · exact hsound content hmem

theorem pairwise_filter_of_pairwise {records : List Record}
    (h : records.Pairwise fun first later =>
      first.kind ≠ .response → first.timestamp ≤ later.timestamp) :
    (records.filter (·.kind ≠ .response)).Pairwise (·.timestamp ≤ ·.timestamp) := by
  refine List.Pairwise.imp_of_mem (fun hfirst _ hle => hle ?_) (h.filter _)
  simpa using (List.mem_filter.mp hfirst).2

/-- **What is reported of disorder certifies a replay**: no reports of disorder in any of the
captures, and all that comes in their replay behind a record that is no response is as new as this
one. -/
theorem disorder_certifies (library : TimeLibrary) (tree : FileTree) (filter : LogFilter)
    (time : String)
    (dump : Bool) :
    (∀ path capture, Source.Readable tree path capture →
      (∀ count disordered, Reports (list library tree filter time ⟨path, dump⟩) count disordered ↔
        count = (Record.ofCapture capture).length ∧
          disordered = (outOfOrder (Record.ofCapture capture)).ncard) ∧
      ((∃ count, Reports (list library tree filter time ⟨path, dump⟩) count 0) ↔
        (Record.ofCapture capture).Pairwise (·.timestamp ≤ ·.timestamp))) ∧
    ∀ (pattern : String) (settings : Settings) (paths : List String),
      settings.validate = .ok () → settings.looping = false →
      Glob.search tree pattern = .ok (paths.map .path) →
      (paths.filter fun path => !tree.isDirectory path) ≠ [] →
      (∀ path ∈ paths.filter fun path => !tree.isDirectory path,
        ∃ count, Reports (list library tree filter time ⟨path, dump⟩) count 0) →
      ∃ records : List Record, Session.Replays tree pattern settings
          (records.map fun record => .ok (some record)) ⟨records.length, 0, .exhausted, 0⟩ ∧
        records.Pairwise (fun first later =>
          first.kind ≠ .response → first.timestamp ≤ later.timestamp) ∧
        (records.filter (·.kind ≠ .response)).Pairwise (·.timestamp ≤ ·.timestamp) := by
  constructor
  · intro path capture hr
    refine ⟨fun count disordered => ?_, ?_⟩
    · rw [reports_of_readable hr, disorder_eq_ncard]
    · rw [← disorder_eq_zero_iff]
      constructor
      · rintro ⟨count, hcount⟩
        exact ((reports_of_readable hr).mp hcount).2.symm
      · intro hzero
        exact ⟨_, (reports_of_readable hr).mpr ⟨rfl, hzero.symm⟩⟩
  · intro pattern settings paths hv hl hp hne hreports
    obtain ⟨sources, contents, hopened, hstocked, hsound⟩ := exists_stocked_of_reports hreports
    have hs : (resolveSources tree pattern).value = .ok sources := by
      refine resolveSources_of_openSources hp (openSources_of_opened hopened) ?_
      rintro rfl
      exact hne (List.forall₂_nil_right_iff.mp hopened)
    obtain ⟨items, hd⟩ := Merge.exists_drained (contents.map Content.records)
    have hpairwise := hd.pairwise_of_sorted fun queue hqueue => by
      obtain ⟨content, hmem, rfl⟩ := List.mem_map.mp hqueue
      exact (hsound content hmem).2
    refine ⟨items.map (·.2), ?_, hpairwise, pairwise_filter_of_pairwise hpairwise⟩
    have hreplays := Session.replays_of_faultFree hv hl hs hstocked
      (fun content hmem => (hsound content hmem).1) hd
    rw [List.map_map, List.length_map]
    exact hreplays

def orderedCaptures : FileTree :=
  ⟨.directory [("a", .file (captureOf ["1 a 5\n", "2 a 8\n"])),
    ("b", .file (captureOf ["2 z 1\n", "1 b 7\n"]))], []⟩

/-- No disorder is reported of either, so the requests of both come in the order of their times. -/
theorem disorder_certifies_two :
    Reports (list .gregorian orderedCaptures .standard "" ⟨"a", false⟩) 2 0 ∧
    Reports (list .gregorian orderedCaptures .standard "" ⟨"b", false⟩) 2 0 ∧
    ∃ records : List Record, Session.Replays orderedCaptures "*" {}
        (records.map fun record => .ok (some record)) ⟨records.length, 0, .exhausted, 0⟩ ∧
      (records.filter (·.kind ≠ .response)).Pairwise (·.timestamp ≤ ·.timestamp) := by
  have ha : Source.Readable orderedCaptures "a" (captureOf ["1 a 5\n", "2 a 8\n"]) :=
    ⟨_, by cbv, by decide, rfl⟩
  have hb : Source.Readable orderedCaptures "b" (captureOf ["2 z 1\n", "1 b 7\n"]) :=
    ⟨_, by cbv, by decide, rfl⟩
  obtain ⟨hcounts, hreplay⟩ := disorder_certifies .gregorian orderedCaptures .standard "" false
  have hfirst : Reports (list .gregorian orderedCaptures .standard "" ⟨"a", false⟩) 2 0 := by
    obtain ⟨count, hcount⟩ := (hcounts "a" _ ha).2.mpr (by decide +kernel)
    obtain rfl : count = 2 := (((hcounts "a" _ ha).1 count 0).mp hcount).1.trans (by decide +kernel)
    exact hcount
  have hsecond : Reports (list .gregorian orderedCaptures .standard "" ⟨"b", false⟩) 2 0 := by
    obtain ⟨count, hcount⟩ := (hcounts "b" _ hb).2.mpr (by decide +kernel)
    obtain rfl : count = 2 := (((hcounts "b" _ hb).1 count 0).mp hcount).1.trans (by decide +kernel)
    exact hcount
  have hpaths : (["a", "b"].filter fun path => !orderedCaptures.isDirectory path) = ["a", "b"] := by
    have hisA : orderedCaptures.isDirectory "a" = false := by cbv
    have hisB : orderedCaptures.isDirectory "b" = false := by cbv
    rw [List.filter_cons_of_pos (by rw [hisA]; rfl), List.filter_cons_of_pos (by rw [hisB]; rfl)]
    rfl
  refine ⟨hfirst, hsecond, ?_⟩
  obtain ⟨records, hreplays, -, hsorted⟩ := hreplay "*" {} ["a", "b"] rfl rfl (by cbv)
    (by rw [hpaths]; exact List.cons_ne_nil _ _) fun path hpath => by
      rw [hpaths] at hpath
      rcases List.mem_pair.mp hpath with rfl | rfl
      · exact ⟨2, hfirst⟩
      · exact ⟨2, hsecond⟩
  exact ⟨records, hreplays, hsorted⟩

end Replay

end CommandLine.Inspection

end TrafficReplay
