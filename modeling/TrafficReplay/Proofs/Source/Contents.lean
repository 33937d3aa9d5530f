/-
# What a source has in stock

Whatever the file behind a source is like, the source has a definite list of records to give, and
its stream ends behind them, well or with a fault (`Source.exists_content`, `Source.Stocks.unique`).
A source that was opened and will meet a fault has a record to give before it
(`Source.Stocks.records_ne_nil`): had its stream failed at once, it would not have been opened. When
a source is stocked with `record :: rest`, the fault is met in the same move that takes the last of
them (`Source.Stocks.advance_take`).
-/
import TrafficReplay.Proofs.Merge.Loop

namespace TrafficReplay

namespace Framing

theorem exists_yields (deliveries : List Delivery) :
    ∃ raws fault, Yields deliveries raws fault := by
  rcases hr : readRecord deliveries with ⟨reading, rest⟩
  cases reading with
  | ended discarded => exact ⟨_, _, .ended hr⟩
  | fault fault => exact ⟨_, _, .failed hr⟩
  | record raw =>
    obtain ⟨raws, fault, hy⟩ := exists_yields rest
    exact ⟨_, _, .record hr hy⟩
termination_by Delivery.remaining deliveries
decreasing_by exact remaining_readRecord hr (fun _ h => nomatch h)

theorem Yields.unique {deliveries : List Delivery} {raws raws' : List Bytes}
    {fault fault' : Option Fault} (h : Yields deliveries raws fault)
    (h' : Yields deliveries raws' fault') : raws = raws' ∧ fault = fault' := by
  induction h generalizing raws' fault' with
  | ended hr =>
    cases h' with
    | ended _ => exact ⟨rfl, rfl⟩
    | failed hr' => rw [hr] at hr'; cases hr'
    | record hr' _ => rw [hr] at hr'; cases hr'
  | failed hr =>
    cases h' with
    | ended hr' => rw [hr] at hr'; cases hr'
    | failed hr' => rw [hr] at hr'; cases hr'; exact ⟨rfl, rfl⟩
    | record hr' _ => rw [hr] at hr'; cases hr'
  | record hr _ ih =>
    cases h' with
    | ended hr' => rw [hr] at hr'; cases hr'
    | failed hr' => rw [hr] at hr'; cases hr'
    | record hr' hy' =>
      rw [hr] at hr'
      cases hr'
      obtain ⟨rfl, rfl⟩ := ih hy'
      exact ⟨rfl, rfl⟩

end Framing

/-- What a source has to give: its records, and the fault behind them if there is one. -/
structure Content where
  path : String
  records : List Record
  fault : Option Fault
  deriving DecidableEq

namespace Source

/-- The source has this content still to give. -/
def Stocks (source : Source) (content : Content) : Prop :=
  source.path = content.path ∧ Holds source content.records content.fault

variable {source : Source} {content : Content}

theorem Holds.unique {records records' : List Record} {fault fault' : Option Fault}
    (h : Holds source records fault) (h' : Holds source records' fault') :
    records = records' ∧ fault = fault' := by
  cases h with
  | closed path =>
    cases h' with
    | closed _ => exact ⟨rfl, rfl⟩
  | inHand path record hy =>
    cases h' with
    | inHand _ _ hy' =>
      obtain ⟨rfl, rfl⟩ := hy.unique hy'
      exact ⟨rfl, rfl⟩

theorem Stocks.unique {other : Content} (h : source.Stocks content) (h' : source.Stocks other) :
    content = other := by
  obtain ⟨path, records, fault⟩ := content
  obtain ⟨path', records', fault'⟩ := other
  obtain ⟨rfl, hh⟩ := h
  obtain ⟨rfl, hh'⟩ := h'
  obtain ⟨rfl, rfl⟩ := hh.unique hh'
  rfl

theorem Stocks.records_ne_nil (h : source.Stocks content) (hf : content.fault ≠ none) :
    content.records ≠ [] := by
  obtain ⟨path, records, fault⟩ := content
  obtain ⟨-, hh⟩ := h
  cases hh with
  | closed _ => exact absurd rfl hf
  | inHand _ _ _ => exact List.cons_ne_nil _ _

/-- Taking the record in hand and advancing goes on to the rest, or meets the fault behind the last
record. -/
theorem Stocks.advance_take {record : Record} {rest : List Record} (h : source.Stocks content)
    (hr : content.records = record :: rest) :
    source.take.1 = some record ∧
      ((∃ next, source.take.2.advance.value = (.ok (), next) ∧
          next.Stocks { content with records := rest }) ∨
        ∃ fault closed, rest = [] ∧ content.fault = some fault ∧ source.take.2.advance.value
          = (.error (.cannotRead content.path fault), closed)) := by
  obtain ⟨path, records, fault⟩ := content
  obtain ⟨rfl, hh⟩ := h
  subst hr
  cases hh with
  | @inHand path _ _ raws _ hy =>
    refine ⟨rfl, ?_⟩
    rcases advance_cases path none hy with ⟨next, ha, hpath, hnext⟩ | ⟨f, rfl, rfl, ha⟩
    · exact .inl ⟨next, ha, hpath, hnext⟩
    · exact .inr ⟨f, _, rfl, rfl, ha⟩

/-- A source on a stream has its first record in hand, or meets the fault at its beginning. -/
theorem onStream_cases (path : String) {deliveries : List Delivery} {raws : List Bytes}
    {fault : Option Fault} (hy : Framing.Yields deliveries raws fault) :
    (∃ source, (onStream path deliveries).value = .ok source ∧
      source.Stocks ⟨path, raws.map Record.ofBytes, fault⟩) ∨
    ∃ f, raws = [] ∧ fault = some f ∧
      (onStream path deliveries).value = .error (.cannotRead path f) := by
  rcases advance_cases path none hy with ⟨source, ha, hpath, hh⟩ | ⟨f, hraws, hf, ha⟩
  · exact .inl ⟨source, onStream_of_ok ha, hpath, hh⟩
  · exact .inr ⟨f, hraws, hf, onStream_of_error ha⟩

theorem openAt_cases {tree : FileTree} {path : String} {deliveries : List Delivery}
    {raws : List Bytes} {fault : Option Fault} (ho : openStream tree path = .ok deliveries)
    (hy : Framing.Yields deliveries raws fault) :
    (∃ source, (openAt tree path).value = .ok source ∧
      source.Stocks ⟨path, raws.map Record.ofBytes, fault⟩) ∨
    ∃ f, raws = [] ∧ fault = some f ∧ (openAt tree path).value = .error (.cannotRead path f) := by
  rw [openAt_eq ho]
  exact onStream_cases path hy

theorem stocks_of_onStream {path : String} {deliveries : List Delivery} {raws : List Bytes}
    {fault : Option Fault} (hy : Framing.Yields deliveries raws fault)
    (h : (onStream path deliveries).value = .ok source) :
    source.Stocks ⟨path, raws.map Record.ofBytes, fault⟩ := by
  rcases onStream_cases path hy with ⟨source', hs, hstocks⟩ | ⟨f, -, -, he⟩
  · rw [h] at hs
    cases hs
    exact hstocks
  · rw [h] at he
    cases he

theorem stocks_of_openAt {tree : FileTree} {path : String} {deliveries : List Delivery}
    {raws : List Bytes} {fault : Option Fault} (ho : openStream tree path = .ok deliveries)
    (hy : Framing.Yields deliveries raws fault) (h : (openAt tree path).value = .ok source) :
    source.Stocks ⟨path, raws.map Record.ofBytes, fault⟩ := by
  rw [openAt_eq ho] at h
  exact stocks_of_onStream hy h

theorem onStream_error_iff (path : String) {deliveries : List Delivery} {raws : List Bytes}
    {fault : Option Fault} {e : ReplayError} (hy : Framing.Yields deliveries raws fault) :
    (onStream path deliveries).value = .error e ↔
      raws = [] ∧ ∃ f, fault = some f ∧ e = .cannotRead path f := by
  rcases onStream_cases path hy with ⟨source, hs, hstocks⟩ | ⟨f, hraws, hf, he⟩
  · rw [hs]
    refine iff_of_false (fun h => nomatch h) ?_
    rintro ⟨rfl, f, rfl, -⟩
    exact hstocks.records_ne_nil (Option.some_ne_none f) rfl
  · rw [he, hf]
    constructor
    · intro h
      cases h
      exact ⟨hraws, f, rfl, rfl⟩
    · rintro ⟨-, f', hf', rfl⟩
      cases hf'
      rfl

theorem exists_content {tree : FileTree} {path : String}
    (h : (openAt tree path).value = .ok source) : ∃ content, source.Stocks content := by
  cases ho : openStream tree path with
  | error e =>
    simp only [openAt, ho] at h
    cases h
  | ok deliveries =>
    obtain ⟨raws, fault, hy⟩ := Framing.exists_yields deliveries
    exact ⟨_, stocks_of_openAt ho hy h⟩

end Source

/-- The content is that of a stream: what can be read of it as records before it ends, and the fault
in the place of its end if there is one. -/
def Content.IsOf (content : Content) (stream : String × List Delivery) : Prop :=
  content.path = stream.1 ∧ ∃ raws, Framing.Yields stream.2 raws content.fault ∧
    content.records = raws.map Record.ofBytes

theorem Content.IsOf.unique {content other : Content} {stream : String × List Delivery}
    (h : content.IsOf stream) (h' : other.IsOf stream) : content = other := by
  obtain ⟨path, records, fault⟩ := content
  obtain ⟨path', records', fault'⟩ := other
  obtain ⟨rfl, raws, hy, rfl⟩ := h
  obtain ⟨rfl, raws', hy', rfl⟩ := h'
  obtain ⟨rfl, rfl⟩ := hy.unique hy'
  rfl

/-- The sources were opened on these streams, each on its own, and have not moved since. -/
def OpenedOn (streams : List (String × List Delivery)) (sources : List Source) : Prop :=
  List.Forall₂ (fun stream source => (Source.onStream stream.1 stream.2).value = .ok source)
    streams sources

/-- The sources have these contents, each source its own. -/
def Stocked (sources : List Source) (contents : List Content) : Prop :=
  List.Forall₂ Source.Stocks sources contents

theorem OpenedOn.exists_contents {streams : List (String × List Delivery)} {sources : List Source}
    (h : OpenedOn streams sources) :
    ∃ contents, List.Forall₂ Content.IsOf contents streams ∧ Stocked sources contents := by
  induction h with
  | nil => exact ⟨[], .nil, .nil⟩
  | @cons stream source _ _ hs _ ih =>
    obtain ⟨raws, fault, hy⟩ := Framing.exists_yields stream.2
    obtain ⟨contents, hcontents, hstocked⟩ := ih
    exact ⟨⟨stream.1, raws.map Record.ofBytes, fault⟩ :: contents,
      .cons ⟨rfl, raws, hy, rfl⟩ hcontents, .cons (Source.stocks_of_onStream hy hs) hstocked⟩

theorem stocked_of_opened {tree : FileTree} {paths : List String} {sources : List Source}
    (h : List.Forall₂ (fun path source => (Source.openAt tree path).value = .ok source)
      paths sources) : ∃ contents, Stocked sources contents := by
  induction h with
  | nil => exact ⟨[], .nil⟩
  | cons hs _ ih =>
    obtain ⟨content, hc⟩ := Source.exists_content hs
    obtain ⟨contents, hcs⟩ := ih
    exact ⟨content :: contents, .cons hc hcs⟩

/-- **Sources that could all be opened have definite contents.** -/
theorem stocked_of_resolveSources {tree : FileTree} {pattern : String} {sources : List Source}
    (h : (resolveSources tree pattern).value = .ok sources) :
    ∃ contents, Stocked sources contents := by
  obtain ⟨paths, -, ho, -⟩ := openSources_of_resolveSources h
  exact stocked_of_opened (opened_of_openSources ho)

end TrafficReplay
