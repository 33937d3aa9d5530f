/-
# Sources and the captures behind them

`Framing.Yields` is a stream seen from its records, `Source.Holds` a source seen from the records
that it still has to give. Between two moves of a replay a source holds the next of its records in
hand for as long as there is one; taking it and advancing goes on to the rest
(`Source.Holds.advance_take`). A capture that can be read to its end is opened as a source that
holds exactly the records of its bytes (`Source.Opened.holds`), and a pattern whose captures can all
be read is resolved to such sources, one for each file and in order (`resolveSources_of_captures`).
-/
import Mathlib
import TrafficReplay.Proofs.Record.Readings
import TrafficReplay.Resolve

namespace TrafficReplay

namespace Framing

/-- The stream gives these records one after the other, and then its end, or a fault. -/
inductive Yields : List Delivery → List Bytes → Option Fault → Prop
  | ended {deliveries rest : List Delivery} {discarded : Nat} :
      readRecord deliveries = (.ended discarded, rest) → Yields deliveries [] none
  | failed {deliveries rest : List Delivery} {fault : Fault} :
      readRecord deliveries = (.fault fault, rest) → Yields deliveries [] (some fault)
  | record {deliveries rest : List Delivery} {raw : Bytes} {raws : List Bytes}
      {fault : Option Fault} :
      readRecord deliveries = (.record raw, rest) → Yields rest raws fault →
      Yields deliveries (raw :: raws) fault

theorem yields_of_faultFree {deliveries : List Delivery} (h : Delivery.FaultFree deliveries) :
    Yields deliveries (split (Delivery.contents deliveries)) none := by
  obtain ⟨reading, rest, hr, hf, hcut⟩ := readRecordAfter_faultFree h []
  rw [← filterMap_readings h, readings_faultFree h]
  rcases hcut with ⟨raw, rfl, hcut⟩ | ⟨discarded, rfl, hcut⟩
  · have ih := yields_of_faultFree hf
    rw [← filterMap_readings hf, readings_faultFree hf] at ih
    rw [List.reverse_nil] at hcut
    rw [hcut]
    exact .record hr ih
  · rw [List.reverse_nil] at hcut
    rw [hcut]
    exact .ended hr
termination_by Delivery.remaining deliveries
decreasing_by exact remaining_readRecord hr (fun _ h => nomatch h)

end Framing

def Record.ofCapture (capture : Bytes) : List Record :=
  (Framing.split capture).map Record.ofBytes

namespace Source

/-- What a source still has to give between two moves of a replay: the record in hand first, those
of its stream after it, and then the end or a fault. A source that has nothing left is closed. -/
inductive Holds : Source → List Record → Option Fault → Prop
  | closed (path : String) : Holds ⟨path, none, none⟩ [] none
  | inHand (path : String) {deliveries : List Delivery} (record : Record) {raws : List Bytes}
      {fault : Option Fault} : Framing.Yields deliveries raws fault →
      Holds ⟨path, some deliveries, some record⟩ (record :: raws.map Record.ofBytes) fault

theorem Holds.lookahead {source : Source} {records : List Record} {fault : Option Fault}
    (h : Holds source records fault) : source.lookahead = records.head? := by
  cases h with
  | closed path => rfl
  | inHand path record hy => rfl

theorem advance_of_ended {path : String} {deliveries rest : List Delivery}
    {lookahead : Option Record}
    {discarded : Nat} (h : Framing.readRecord deliveries = (.ended discarded, rest)) :
    (advance ⟨path, some deliveries, lookahead⟩).value = (.ok (), ⟨path, none, none⟩) := by
  simp only [advance, h]
  rfl

theorem advance_of_record {path : String} {deliveries rest : List Delivery}
    {lookahead : Option Record}
    {raw : Bytes} (h : Framing.readRecord deliveries = (.record raw, rest)) :
    (advance ⟨path, some deliveries, lookahead⟩).value
      = (.ok (), ⟨path, some rest, some (Record.ofBytes raw)⟩) := by
  simp only [advance, h]
  rfl

theorem advance_of_fault {path : String} {deliveries rest : List Delivery}
    {lookahead : Option Record}
    {fault : Fault} (h : Framing.readRecord deliveries = (.fault fault, rest)) :
    (advance ⟨path, some deliveries, lookahead⟩).value
      = (.error (.cannotRead path fault), ⟨path, none, none⟩) := by
  simp only [advance, h]
  rfl

/-- Advancing puts the first record of the stream in hand, or none at its end; the fault is met only
when no record is left. -/
theorem advance_cases (path : String) {deliveries : List Delivery} (lookahead : Option Record)
    {raws : List Bytes} {fault : Option Fault} (h : Framing.Yields deliveries raws fault) :
    (∃ next, (advance ⟨path, some deliveries, lookahead⟩).value = (.ok (), next) ∧
      next.path = path ∧ Holds next (raws.map Record.ofBytes) fault) ∨
    ∃ f, raws = [] ∧ fault = some f ∧ (advance ⟨path, some deliveries, lookahead⟩).value
      = (.error (.cannotRead path f), ⟨path, none, none⟩) := by
  cases h with
  | ended hr => exact .inl ⟨_, advance_of_ended hr, rfl, .closed path⟩
  | failed hr => exact .inr ⟨_, rfl, rfl, advance_of_fault hr⟩
  | record hr hy => exact .inl ⟨_, advance_of_record hr, rfl, .inHand path _ hy⟩

/-- Advancing over a stream that ends without a fault puts the first of its records in hand. -/
theorem advance_of_yields (path : String) {deliveries : List Delivery} (lookahead : Option Record)
    {raws : List Bytes} (h : Framing.Yields deliveries raws none) :
    ∃ next, (advance ⟨path, some deliveries, lookahead⟩).value = (.ok (), next) ∧
      Holds next (raws.map Record.ofBytes) none := by
  rcases advance_cases path lookahead h with ⟨next, ha, -, hh⟩ | ⟨f, -, hf, -⟩
  · exact ⟨next, ha, hh⟩
  · cases hf

theorem Holds.advance_take {source : Source} {record : Record} {records : List Record}
    (h : Holds source (record :: records) none) :
    source.take.1 = some record ∧
      ∃ next, source.take.2.advance.value = (.ok (), next) ∧ Holds next records none := by
  cases h with
  | inHand path record hy => exact ⟨rfl, advance_of_yields path none hy⟩

/-- The capture at `path` can be opened, no read of it fails, and it holds these bytes, decompressed
where its name says so. -/
def Readable (tree : FileTree) (path : String) (capture : Bytes) : Prop :=
  ∃ deliveries, openStream tree path = .ok deliveries ∧ Delivery.FaultFree deliveries ∧
    Delivery.contents deliveries = capture

/-- The source was opened on a capture that holds these bytes and has not moved since. -/
def Opened (source : Source) (capture : Bytes) : Prop :=
  ∃ tree path, Readable tree path capture ∧ (openAt tree path).value = .ok source

theorem openAt_eq {tree : FileTree} {path : String} {deliveries : List Delivery}
    (ho : openStream tree path = .ok deliveries) : openAt tree path = onStream path deliveries := by
  rw [openAt, ho]

theorem onStream_of_ok {path : String} {deliveries : List Delivery} {source : Source}
    (ha : (advance ⟨path, some deliveries, none⟩).value = (.ok (), source)) :
    (onStream path deliveries).value = .ok source := by
  simp only [onStream, Logged.value_bind, ha]
  rfl

theorem onStream_of_error {path : String} {deliveries : List Delivery} {source : Source}
    {error : ReplayError}
    (ha : (advance ⟨path, some deliveries, none⟩).value = (.error error, source)) :
    (onStream path deliveries).value = .error error := by
  simp only [onStream, Logged.value_bind, ha]
  rfl

theorem Readable.openAt {tree : FileTree} {path : String} {capture : Bytes}
    (h : Readable tree path capture) :
    ∃ source, (openAt tree path).value = .ok source ∧
      Holds source (Record.ofCapture capture) none := by
  obtain ⟨deliveries, ho, hf, rfl⟩ := h
  obtain ⟨source, ha, hh⟩ := advance_of_yields path none (Framing.yields_of_faultFree hf)
  rw [openAt_eq ho]
  exact ⟨source, onStream_of_ok ha, hh⟩

theorem Opened.holds {source : Source} {capture : Bytes} (h : Opened source capture) :
    Holds source (Record.ofCapture capture) none := by
  obtain ⟨tree, path, hr, ho⟩ := h
  obtain ⟨source', ho', hh⟩ := hr.openAt
  rw [ho] at ho'
  cases ho'
  exact hh

end Source

theorem exists_paths_of_openSources {tree : FileTree} {findings : List Glob.Finding}
    {sources : List Source} (h : (openSources tree findings).value = .ok sources) :
    ∃ paths : List String, findings = paths.map Glob.Finding.path := by
  induction findings generalizing sources with
  | nil => exact ⟨[], rfl⟩
  | cons finding findings ih =>
    cases finding with
    | unlisted path fault => cases h
    | path path =>
      have hrest : ∃ others, (openSources tree findings).value = .ok others := by
        rw [openSources] at h
        split at h
        · exact ⟨sources, h⟩
        · cases ho : (openSources tree findings).value with
          | ok others => exact ⟨others, rfl⟩
          | error e =>
            cases hs : (Source.openAt tree path).value with
            | error e =>
              simp only [Logged.value_bind, hs] at h
              cases h
            | ok source =>
              simp only [Logged.value_bind, hs, ho] at h
              cases h
      obtain ⟨others, ho⟩ := hrest
      obtain ⟨paths, rfl⟩ := ih ho
      exact ⟨path :: paths, rfl⟩

/-- Each of the opened sources was opened on a path of its own; directories are passed over. -/
theorem opened_of_openSources {tree : FileTree} {paths : List String} {sources : List Source}
    (h : (openSources tree (paths.map .path)).value = .ok sources) :
    List.Forall₂ (fun path source => (Source.openAt tree path).value = .ok source)
      (paths.filter fun path => !tree.isDirectory path) sources := by
  induction paths generalizing sources with
  | nil =>
    cases h
    exact .nil
  | cons path paths ih =>
    rw [List.map_cons, openSources] at h
    by_cases hd : tree.isDirectory path = true
    · rw [if_pos hd] at h
      rw [List.filter_cons_of_neg (by simp [hd])]
      exact ih h
    · rw [if_neg hd] at h
      rw [List.filter_cons_of_pos (by simp [hd])]
      cases hs : (Source.openAt tree path).value with
      | error e =>
        simp only [Logged.value_bind, hs] at h
        cases h
      | ok source =>
        cases hp : (openSources tree (paths.map .path)).value with
        | error e =>
          simp only [Logged.value_bind, hs, hp] at h
          cases h
        | ok others =>
          simp only [Logged.value_bind, hs, hp] at h
          cases h
          exact .cons hs (ih hp)

theorem openSources_of_resolveSources {tree : FileTree} {pattern : String} {sources : List Source}
    (h : (resolveSources tree pattern).value = .ok sources) :
    ∃ paths : List String, Glob.search tree pattern = .ok (paths.map .path) ∧
      (openSources tree (paths.map .path)).value = .ok sources ∧ sources ≠ [] := by
  rw [resolveSources] at h
  cases hp : Glob.search tree pattern with
  | error e =>
    rw [hp] at h
    cases h
  | ok findings =>
    cases ho : (openSources tree findings).value with
    | error e =>
      simp only [hp, openFound, Logged.value_bind, ho] at h
      cases h
    | ok others =>
      cases others with
      | nil =>
        simp only [hp, openFound, Logged.value_bind, ho] at h
        cases h
      | cons source others =>
        simp only [hp, openFound, Logged.value_bind, ho] at h
        cases h
        obtain ⟨paths, rfl⟩ := exists_paths_of_openSources ho
        exact ⟨paths, rfl, ho, List.cons_ne_nil _ _⟩

theorem value_openSources_filter (tree : FileTree) (paths : List String) :
    (openSources tree ((paths.filter fun path => !tree.isDirectory path).map .path)).value
      = (openSources tree (paths.map .path)).value := by
  induction paths with
  | nil => rfl
  | cons path paths ih =>
    rw [List.map_cons]
    by_cases hd : tree.isDirectory path = true
    · rw [List.filter_cons_of_neg (by simp [hd]), ih, openSources, if_pos hd]
      rfl
    · rw [List.filter_cons_of_pos (by simp [hd]), List.map_cons, openSources, openSources,
        if_neg hd, if_neg hd]
      cases hs : (Source.openAt tree path).value with
      | error e => simp only [Logged.value_bind, hs]
      | ok source => simp only [Logged.value_bind, hs, ih]

/-- The pattern stands for captures that can all be read, and these are their contents in order.
Directories do not count. -/
def Captures (tree : FileTree) (pattern : String) (captures : List Bytes) : Prop :=
  ∃ paths : List String, Glob.search tree pattern = .ok (paths.map .path) ∧ captures ≠ [] ∧
    List.Forall₂ (Source.Readable tree) (paths.filter fun path => !tree.isDirectory path) captures

theorem openSources_cons {tree : FileTree} {path : String} {findings : List Glob.Finding}
    {source : Source} {sources : List Source} (hd : ¬ tree.isDirectory path = true)
    (hs : (Source.openAt tree path).value = .ok source)
    (ho : (openSources tree findings).value = .ok sources) :
    (openSources tree (.path path :: findings)).value = .ok (source :: sources) := by
  rw [openSources, if_neg hd]
  simp only [Logged.value_bind, hs, ho]
  rfl

theorem openFound_of_openSources {tree : FileTree} {pattern : String}
    {findings : List Glob.Finding} {sources : List Source}
    (ho : (openSources tree findings).value = .ok sources) (hne : sources ≠ []) :
    (openFound tree pattern (.ok findings)).value = .ok sources := by
  cases sources with
  | nil => exact absurd rfl hne
  | cons source sources =>
    simp only [openFound, Logged.value_bind, ho]
    rfl

theorem resolveSources_of_openSources {tree : FileTree} {pattern : String}
    {findings : List Glob.Finding} {sources : List Source}
    (hp : Glob.search tree pattern = .ok findings)
    (ho : (openSources tree findings).value = .ok sources) (hne : sources ≠ []) :
    (resolveSources tree pattern).value = .ok sources := by
  rw [resolveSources, hp]
  exact openFound_of_openSources ho hne

theorem openSources_of_opened {tree : FileTree} {paths : List String} {sources : List Source}
    (h : List.Forall₂ (fun path source => (Source.openAt tree path).value = .ok source)
      (paths.filter fun path => !tree.isDirectory path) sources) :
    (openSources tree (paths.map .path)).value = .ok sources := by
  rw [← value_openSources_filter]
  have hfiles : ∀ path ∈ paths.filter fun path => !tree.isDirectory path,
      ¬tree.isDirectory path = true := by
    intro path hpath
    simpa using (List.mem_filter.mp hpath).2
  generalize paths.filter (fun path => !tree.isDirectory path) = files at h hfiles ⊢
  induction h with
  | nil => rfl
  | @cons path source files sources hs _ ih =>
    exact openSources_cons (hfiles path List.mem_cons_self) hs
      (ih fun other hother => hfiles other (List.mem_cons_of_mem path hother))

theorem openSources_of_readable {tree : FileTree} {paths : List String} {captures : List Bytes}
    (h : List.Forall₂ (Source.Readable tree)
      (paths.filter fun path => !tree.isDirectory path) captures) :
    ∃ sources, (openSources tree (paths.map .path)).value = .ok sources ∧
      List.Forall₂ Source.Opened sources captures := by
  suffices hopened : ∃ sources, List.Forall₂
      (fun path source => (Source.openAt tree path).value = .ok source)
      (paths.filter fun path => !tree.isDirectory path) sources ∧
      List.Forall₂ Source.Opened sources captures by
    obtain ⟨sources, hs, ho⟩ := hopened
    exact ⟨sources, openSources_of_opened hs, ho⟩
  generalize paths.filter (fun path => !tree.isDirectory path) = files at h ⊢
  induction h with
  | nil => exact ⟨[], .nil, .nil⟩
  | @cons path capture files captures hr _ ih =>
    obtain ⟨sources, hs, ho⟩ := ih
    obtain ⟨source, hsource, -⟩ := hr.openAt
    exact ⟨source :: sources, .cons hsource hs, .cons ⟨tree, path, hr, hsource⟩ ho⟩

theorem resolveSources_of_captures {tree : FileTree} {pattern : String} {captures : List Bytes}
    (h : Captures tree pattern captures) :
    ∃ sources, (resolveSources tree pattern).value = .ok sources ∧
      List.Forall₂ Source.Opened sources captures := by
  obtain ⟨paths, hp, hne, hr⟩ := h
  obtain ⟨sources, ho, hs⟩ := openSources_of_readable hr
  refine ⟨sources, resolveSources_of_openSources hp ho fun hnil => hne ?_, hs⟩
  rw [hnil] at hs
  cases hs
  rfl

end TrafficReplay
