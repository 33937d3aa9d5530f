/-
# Sources that cannot be told apart

A source is asked to advance, for its record in hand, and to close, and between these requests it
shows whether it is open and what it has in hand (`Source.story`). Two sources are alike when they
have the same in hand and their streams still give the same records (`Source.Alike`); every request
is answered alike by both and leaves them alike, so they tell the same story whatever they are
asked. Captures that hold the same bytes are opened as such sources: where a portion of one of them
ends, and whether it had to be decompressed, can be seen nowhere (`Source.Opened.alike`).
-/
import TrafficReplay.Proofs.Merge.Loop

namespace TrafficReplay

namespace Source

/-- What a source can be asked for. -/
inductive Request
  | advance
  | take
  | close

/-- What a source answers. -/
inductive Answer
  /-- Whether it has advanced. -/
  | advanced (result : Except ReplayError Unit)
  /-- What it had in hand. -/
  | taken (record : Option Record)
  /-- That it is closed. -/
  | closed

/-- What a source shows of itself. -/
structure View where
  isOpen : Bool
  lookahead : Option Record

def view (source : Source) : View :=
  ⟨source.isOpen, source.lookahead⟩

def respond (source : Source) : Request → Answer × Source
  | .advance => (.advanced source.advance.value.1, source.advance.value.2)
  | .take => (.taken source.take.1, source.take.2)
  | .close => (.closed, source.close)

/-- The answers to a row of requests, each with what the source shows after it. -/
def story (source : Source) : List Request → List (Answer × View)
  | [] => []
  | request :: requests =>
    let (answer, next) := source.respond request
    (answer, next.view) :: next.story requests

/-- Both sources have the same in hand, and both are closed or still get the same records from their
streams, which end without a fault. -/
inductive Alike : Source → Source → Prop
  | closed (path path' : String) (lookahead : Option Record) :
      Alike ⟨path, none, lookahead⟩ ⟨path', none, lookahead⟩
  | opened (path path' : String) (lookahead : Option Record)
      {deliveries deliveries' : List Delivery}
      {raws : List Bytes} : Framing.Yields deliveries raws none →
      Framing.Yields deliveries' raws none →
      Alike ⟨path, some deliveries, lookahead⟩ ⟨path', some deliveries', lookahead⟩

variable {source other : Source}

theorem Alike.view_eq (h : source.Alike other) : source.view = other.view := by
  cases h with
  | closed path path' lookahead => rfl
  | opened path path' lookahead hy hy' => rfl

theorem Alike.lookahead_eq (h : source.Alike other) : source.lookahead = other.lookahead :=
  congrArg View.lookahead h.view_eq

theorem Alike.close (h : source.Alike other) : source.close.Alike other.close := by
  cases h with
  | closed path path' lookahead => exact .closed path path' none
  | opened path path' lookahead hy hy' => exact .closed path path' none

theorem Alike.take (h : source.Alike other) :
    source.take.1 = other.take.1 ∧ source.take.2.Alike other.take.2 := by
  cases h with
  | closed path path' lookahead => exact ⟨rfl, .closed path path' none⟩
  | opened path path' lookahead hy hy' => exact ⟨rfl, .opened path path' none hy hy'⟩

theorem Alike.advance (h : source.Alike other) :
    ∃ next next', source.advance.value = (.ok (), next) ∧ other.advance.value = (.ok (), next') ∧
      next.Alike next' := by
  cases h with
  | closed path path' lookahead => exact ⟨_, _, rfl, rfl, .closed path path' none⟩
  | opened path path' lookahead hy hy' =>
    cases hy with
    | ended hr =>
      cases hy' with
      | ended hr' =>
        exact ⟨_, _, advance_of_ended hr, advance_of_ended hr', .closed path path' none⟩
    | record hr hrest =>
      cases hy' with
      | record hr' hrest' =>
        exact ⟨_, _, advance_of_record hr, advance_of_record hr',
          .opened path path' (some (Record.ofBytes _)) hrest hrest'⟩

theorem Alike.respond (h : source.Alike other) (request : Request) :
    (source.respond request).1 = (other.respond request).1 ∧
      (source.respond request).2.Alike (other.respond request).2 := by
  cases request with
  | advance =>
    obtain ⟨next, next', ha, ha', hn⟩ := h.advance
    simp only [Source.respond, ha, ha']
    exact ⟨trivial, hn⟩
  | take =>
    obtain ⟨ht, hn⟩ := h.take
    exact ⟨congrArg Answer.taken ht, hn⟩
  | close => exact ⟨rfl, h.close⟩

/-- **Sources that are alike tell the same story**, whatever they are asked. -/
theorem Alike.story_eq (h : source.Alike other) (requests : List Request) :
    source.story requests = other.story requests := by
  induction requests generalizing source other with
  | nil => rfl
  | cons request requests ih =>
    obtain ⟨hanswer, hnext⟩ := h.respond request
    simp only [story, hanswer, hnext.view_eq, ih hnext]

/-! ## Captures that hold the same bytes -/

/-- Streams that give the same bytes without a fault make no difference, wherever their portions end
and however often a read has to be tried again. -/
theorem alike_of_contents {deliveries deliveries' : List Delivery}
    (hf : Delivery.FaultFree deliveries) (hf' : Delivery.FaultFree deliveries')
    (hc : Delivery.contents deliveries = Delivery.contents deliveries') (path path' : String)
    (lookahead : Option Record) :
    Alike ⟨path, some deliveries, lookahead⟩ ⟨path', some deliveries', lookahead⟩ := by
  have hy := Framing.yields_of_faultFree hf
  have hy' := Framing.yields_of_faultFree hf'
  rw [← hc] at hy'
  exact .opened path path' lookahead hy hy'

theorem advance_of_onStream {path : String} {deliveries : List Delivery}
    (hs : (onStream path deliveries).value = .ok source) :
    (Source.advance ⟨path, some deliveries, none⟩).value = (.ok (), source) := by
  simp only [onStream, Logged.value_bind] at hs
  rcases ha : (Source.advance ⟨path, some deliveries, none⟩).value with ⟨result, next⟩
  rw [ha] at hs
  cases result with
  | error e => cases hs
  | ok u =>
    cases hs
    rfl

/-- A source opened on a capture is like one that has advanced once over any stream that gives the
bytes of the capture. -/
theorem Opened.alike_advance {capture : Bytes} {deliveries : List Delivery}
    (h : source.Opened capture) (hf : Delivery.FaultFree deliveries)
    (hc : Delivery.contents deliveries = capture) (path : String) :
    ∃ next, (Source.advance ⟨path, some deliveries, none⟩).value = (.ok (), next) ∧
      source.Alike next := by
  obtain ⟨tree, path', ⟨deliveries', ho, hf', hc'⟩, hs⟩ := h
  have hstart := alike_of_contents hf' hf (hc'.trans hc.symm) path' path none
  obtain ⟨source', next, ha', ha, hn⟩ := hstart.advance
  rw [openAt_eq ho] at hs
  rw [advance_of_onStream hs] at ha'
  cases ha'
  exact ⟨next, ha, hn⟩

/-- **Sources opened on captures that hold the same bytes are alike.** -/
theorem Opened.alike {capture : Bytes} (h : source.Opened capture) (h' : other.Opened capture) :
    source.Alike other := by
  obtain ⟨tree, path, ⟨deliveries, ho, hf, hc⟩, hs⟩ := h'
  obtain ⟨next, ha, hn⟩ := h.alike_advance hf hc path
  rw [openAt_eq ho] at hs
  rw [advance_of_onStream hs] at ha
  cases ha
  exact hn

theorem readable_of_plain {tree : FileTree} {path : String} {contents : Bytes}
    (hl : tree.lookup path = .ok (.file contents)) (hc : isCompressed (Utf8.encode path) = false) :
    Readable tree path contents := by
  refine ⟨[.portion contents], ?_, Delivery.faultFree_portion contents, ?_⟩
  · simp only [openStream, hl, hc]
    rfl
  · simp [Delivery.contents]

/-- A compressed file can be read if it is decompressed without a fault, and it holds what was
compressed. -/
theorem readable_of_compressed {tree : FileTree} {path : String} {file contents : Bytes}
    (hl : tree.lookup path = .ok (.file file)) (hc : isCompressed (Utf8.encode path) = true)
    (hu : Gzip.unpack? file = some ⟨contents, none⟩) : Readable tree path contents := by
  refine ⟨[.portion contents], ?_, Delivery.faultFree_portion contents, ?_⟩
  · simp only [openStream, hl, hc, if_true, unpackNode?, hu]
    rfl
  · simp [Delivery.contents]

end Source

theorem forall₂_alike {sources others : List Source} {captures : List Bytes}
    (h : List.Forall₂ Source.Opened sources captures)
    (h' : List.Forall₂ Source.Opened others captures) :
    List.Forall₂ Source.Alike sources others := by
  induction h generalizing others with
  | nil =>
    cases h'
    exact .nil
  | cons ho _ ih =>
    cases h' with
    | cons ho' hs' => exact .cons (ho.alike ho') (ih hs')

/-- The pattern matches this file and no other; directories do not count. -/
def MatchesOnly (tree : FileTree) (pattern path : String) : Prop :=
  ∃ paths : List String, Glob.search tree pattern = .ok (paths.map .path) ∧
    (paths.filter fun path => !tree.isDirectory path) = [path]

theorem MatchesOnly.captures {tree : FileTree} {pattern path : String} {capture : Bytes}
    (h : MatchesOnly tree pattern path) (hr : Source.Readable tree path capture) :
    Captures tree pattern [capture] := by
  obtain ⟨paths, hp, hfilter⟩ := h
  refine ⟨paths, hp, List.cons_ne_nil _ _, ?_⟩
  rw [hfilter]
  exact .cons hr .nil

theorem MatchesOnly.resolveSources {tree : FileTree} {pattern path : String}
    (h : MatchesOnly tree pattern path) :
    (resolveSources tree pattern).value
      = (Source.openAt tree path).value.map fun source => [source] := by
  obtain ⟨paths, hp, hfilter⟩ := h
  have hd : ¬tree.isDirectory path = true := by
    have hmem : path ∈ paths.filter fun path => !tree.isDirectory path := by
      rw [hfilter]
      exact List.mem_singleton_self path
    simpa using (List.mem_filter.mp hmem).2
  have hopen := value_openSources_filter tree paths
  rw [hfilter, List.map_singleton, openSources, if_neg hd] at hopen
  simp only [TrafficReplay.resolveSources, hp, openFound, Logged.value_bind, ← hopen]
  cases (Source.openAt tree path).value with
  | error e => rfl
  | ok source => rfl

end TrafficReplay
