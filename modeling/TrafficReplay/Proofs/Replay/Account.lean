/-
# The account of a run

What a pump has counted and where it stands, held against all that has happened since the session
was started, in whatever order its readers and stop requests came. Three invariants of its moves say
it: the counters agree with the deeds (`Pump.Tally`), the records that were handed over are those of
whole rounds and of the current one as far as it has come (`Pump.Stage`), and what the reads
returned are records, then one error at most, then the end, with the reason that belongs to it
(`Pump.Spoken`). From them the summary is seen to tell the truth (`Exchange.summary_true`).
-/
import TrafficReplay.Proofs.Replay.Calls

namespace TrafficReplay

namespace Pump

variable {files : Nat → FileTree} {first pump : Pump} {phase : Phase} {state next : Pump × Phase}
  {deeds : List Deed} {deed : Deed} {openings : List (List Source)} {records : List Record}

/-! ## Rounds -/

section Rounds

variable {begun : Pump} {offers : List Offer} {i : Nat} {record : Record} {after : List Source}

theorem Turns.snoc (h : Turns begun offers pump) (ht : Merge.Turn pump.sources i record after) :
    Turns begun (offers ++ [pump.offerOf i record]) (pump.afterTurn record after) := by
  induction h with
  | done => exact .turn ht .done
  | turn ht' _ ih => exact .turn ht' (ih ht)

/-- The records are those of whole rounds over these openings. -/
def Whole (openings : List (List Source)) (records : List Record) : Prop :=
  ∃ rounds, List.Forall₂ Merge.Loop openings rounds ∧ records = rounds.flatten.map (·.2)

/-- The records are those of whole rounds over these openings but the last, and of some turns of a
round over the last of them, which have come to this pump. -/
def Covered (openings : List (List Source)) (records : List Record) (pump : Pump) : Prop :=
  ∃ past passed begun offers, openings = past ++ [begun.sources] ∧ Whole past passed ∧
    Turns begun offers pump ∧ records = passed ++ offers.map Offer.record

theorem Whole.snoc (h : Whole openings records) {sources : List Source}
    {items : List (Nat × Record)} (hl : Merge.Loop sources items) :
    Whole (openings ++ [sources]) (records ++ items.map (·.2)) := by
  obtain ⟨rounds, hrounds, rfl⟩ := h
  refine ⟨rounds ++ [items], List.rel_append hrounds (.cons hl .nil), ?_⟩
  simp

theorem Whole.covered (h : Whole openings records) (pump : Pump) :
    Covered (openings ++ [pump.sources]) records pump :=
  ⟨openings, records, pump, [], rfl, h, .done, by simp⟩

theorem Covered.whole (h : Covered openings records pump)
    (hn : Merge.select pump.sources = none) : Whole openings records := by
  obtain ⟨past, passed, begun, offers, rfl, hwhole, hturns, rfl⟩ := h
  have hloop := (hturns.round hn).loop
  have hsnoc := hwhole.snoc hloop
  rwa [List.map_map] at hsnoc

theorem Covered.turn (h : Covered openings records pump)
    (ht : Merge.Turn pump.sources i record after) :
    Covered openings (records ++ [record]) (pump.afterTurn record after) := by
  obtain ⟨past, passed, begun, offers, rfl, hwhole, hturns, rfl⟩ := h
  exact ⟨past, passed, begun, _, rfl, hwhole, hturns.snoc ht, by simp [offerOf]⟩

end Rounds

/-! ## What a move leaves behind -/

/-- A record is on its way: the pump was `before` when it took it in a round. -/
inductive Offered (before : Pump) : Offer → Pump → Prop
  | mk {i : Nat} {source left : Source} {record : Record} :
      Merge.select before.sources = some i → before.sources[i]? = some source →
      source.take = (some record, left) →
      Offered before (before.offerOf i record) (before.afterTake i record left)

/-- A record that is handed over is that of a turn, unless its source then meets a fault. -/
theorem Offered.handOver {before : Pump} {offer : Offer} (h : Offered before offer pump) :
    ∃ after phase, (pump.handOver offer).value = (before.afterTurn offer.record after, phase) ∧
      ((phase = .ready ∧ Merge.Turn before.sources offer.index offer.record after) ∨
        ∃ error, phase = .failing error) := by
  obtain @⟨i, source, left, record, hs, hget, ht⟩ := h
  rcases ha : left.advance.value with ⟨result, advanced⟩
  cases result with
  | ok done =>
    cases done
    exact ⟨_, _, handOver_of_advance hget ha, .inl ⟨rfl, .mk hs hget ht ha⟩⟩
  | error error =>
    have hi : i < before.sources.length := (List.getElem?_eq_some_iff.mp hget).1
    have htaken : (before.sources.set i left)[i]? = some left := List.getElem?_set_self hi
    refine ⟨before.sources.set i advanced, .failing error, ?_, .inr ⟨error, rfl⟩⟩
    simp only [Pump.handOver, afterTake, offerOf, htaken, Logged.value_bind, ha, List.set_set]
    rfl

theorem handOver_kept (pump : Pump) (offer : Offer) :
    ∃ sources phase, (pump.handOver offer).value
        = ({ pump with emitted := pump.emitted + 1, sources }, phase) ∧ phase.isOver = false ∧
      phase.offer? = none := by
  simp only [handOver]
  cases pump.sources[offer.index]? with
  | none => exact ⟨pump.sources, .ready, rfl, rfl, rfl⟩
  | some source =>
    simp only [Logged.value_bind]
    rcases source.advance.value with ⟨result, advanced⟩
    cases result with
    | ok done => exact ⟨_, .ready, rfl, rfl, rfl⟩
    | error error => exact ⟨_, .failing error, rfl, rfl, rfl⟩

theorem isOpen_of_closeAll {source : Source} (h : source ∈ pump.closeAll.sources) :
    source.isOpen = false := by
  obtain ⟨opened, -, rfl⟩ := List.mem_map.mp h
  rfl

/-! ## The counters -/

/-- The pump has counted what has happened: records handed over, and captures opened anew. When it
is done it has all sources closed. -/
structure Tally (first : Pump) (deeds : List Deed) (state : Pump × Phase) : Prop where
  pattern : state.1.pattern = first.pattern
  looping : state.1.looping = first.looping
  emitted : state.1.emitted = first.emitted + (handedOver deeds).length
  restarts : state.1.restarts = first.restarts + (reopenings deeds).length
  opened : ∀ sources ∈ reopenings deeds, ∃ tree,
    (resolveSources tree first.pattern).value = .ok sources
  closed : state.2.isOver = true → ∀ source ∈ state.1.sources, source.isOpen = false

theorem Tally.move (h : Tally first deeds state) (hpattern : next.1.pattern = state.1.pattern)
    (hlooping : next.1.looping = state.1.looping)
    (hemitted : next.1.emitted = state.1.emitted + deed.record?.toList.length)
    (hrestarts : next.1.restarts = state.1.restarts + deed.reopened?.toList.length)
    (hopened : ∀ sources ∈ deed.reopened?, ∃ tree,
      (resolveSources tree state.1.pattern).value = .ok sources)
    (hclosed : next.2.isOver = true → ∀ source ∈ next.1.sources, source.isOpen = false) :
    Tally first (deeds ++ [deed]) next := by
  refine ⟨hpattern.trans h.pattern, hlooping.trans h.looping, ?_, ?_, ?_, hclosed⟩
  · rw [hemitted, h.emitted, handedOver_snoc, List.length_append, Nat.add_assoc]
  · rw [hrestarts, h.restarts, reopenings_snoc, List.length_append, Nat.add_assoc]
  · intro sources hmem
    rw [reopenings_snoc, List.mem_append] at hmem
    rcases hmem with hbefore | hlast
    · exact h.opened sources hbefore
    · rw [← h.pattern]
      exact hopened sources (Option.mem_toList.mp hlast)

theorem Tally.step (h : Tally first deeds state) (hm : Moves files state deed next) :
    Tally first (deeds ++ [deed]) next := by
  have hnone : ∀ sources ∈ (none : Option (List Source)), ∃ tree,
      (resolveSources tree state.1.pattern).value = .ok sources :=
    fun _ hmem => absurd hmem (Option.not_mem_none _)
  cases hm with
  | aside ha =>
    have hopened := Deed.reopened?_of_aside ha
    refine h.move rfl rfl ?_ ?_ ?_ h.closed
    · rw [Deed.record?_of_aside ha]
      rfl
    · rw [hopened]
      rfl
    · rw [hopened]
      exact hnone
  | finish => exact h.move rfl rfl rfl rfl hnone h.closed
  | wake => exact h.move rfl rfl rfl rfl hnone fun hover => nomatch hover
  | heed _ => exact h.move rfl rfl rfl rfl hnone fun _ _ => isOpen_of_closeAll
  | heedFailing => exact h.move rfl rfl rfl rfl hnone fun _ _ => isOpen_of_closeAll
  | fail => exact h.move rfl rfl rfl rfl hnone fun _ _ => isOpen_of_closeAll
  | @handOver pump offer n =>
    obtain ⟨sources, phase, hvalue, hover, -⟩ := handOver_kept pump offer
    rw [hvalue]
    exact h.move rfl rfl rfl rfl hnone fun h => absurd (hover.symm.trans h) Bool.false_ne_true
  | step hstepped =>
    cases hstepped with
    | offered _ _ _ =>
      exact h.move rfl rfl rfl rfl hnone fun hover =>
        absurd ((isOver_phaseOf _).symm.trans hover) Bool.false_ne_true
    | exhausted _ _ => exact h.move rfl rfl rfl rfl hnone fun _ _ => isOpen_of_closeAll
    | lost _ _ _ => exact h.move rfl rfl rfl rfl hnone fun hover => nomatch hover
    | renewed _ _ hr _ =>
      exact h.move rfl rfl rfl rfl (fun _ hmem => ⟨_, Option.mem_some.mp hmem ▸ hr⟩)
        fun hover => nomatch hover
    | fruitless _ _ hr _ =>
      exact h.move rfl rfl rfl rfl (fun _ hmem => ⟨_, Option.mem_some.mp hmem ▸ hr⟩)
        fun _ _ => isOpen_of_closeAll

/-! ## How far the rounds have come -/

/-- How far the rounds have come, by what the pump is about. A pump that is exhausted has gone
through whole rounds only; if it loops, no source of the last opening had a record. -/
inductive Stage (looping : Bool) (openings : List (List Source)) (records : List Record) :
    Pump × Phase → Prop
  | ready {pump : Pump} : Covered openings records pump →
      Stage looping openings records (pump, .ready)
  | onItsWay {before pump : Pump} {phase : Phase} {offer : Offer} :
      Covered openings records before → Offered before offer pump → phase.offer? = some offer →
      Stage looping openings records (pump, phase)
  | failing {pump : Pump} {error : ReplayError} :
      Stage looping openings records (pump, .failing error)
  | exhausted {pump : Pump} : Whole openings records →
      (looping = true → ∃ past sources, past ≠ [] ∧ openings = past ++ [sources] ∧
        Merge.select sources = none) →
      Stage looping openings records (pump, .ended .exhausted)
  | brokenOff {pump : Pump} {reason : StopReason} : reason ≠ .exhausted →
      Stage looping openings records (pump, .ended reason)

theorem Covered.openings_ne_nil (h : Covered openings records pump) : openings ≠ [] := by
  obtain ⟨past, -, begun, -, rfl, -⟩ := h
  exact List.append_ne_nil_of_right_ne_nil _ (List.cons_ne_nil _ _)

theorem Stage.keep {looping : Bool} (h : Stage looping openings records next)
    (ho : deed.reopened? = none) (hr : deed.record? = none) :
    Stage looping (openings ++ deed.reopened?.toList) (records ++ deed.record?.toList) next := by
  rw [ho, hr, Option.toList_none, Option.toList_none, List.append_nil, List.append_nil]
  exact h

theorem Stage.step {looping : Bool} (h : Stage looping openings records state)
    (hl : state.1.looping = looping) (hm : Moves files state deed next) :
    Stage looping (openings ++ deed.reopened?.toList) (records ++ deed.record?.toList) next := by
  cases hm with
  | aside ha =>
    exact h.keep (Deed.reopened?_of_aside ha) (Deed.record?_of_aside ha)
  | finish => exact h.keep rfl rfl
  | @step pump reopening next hstepped =>
    have hcovered : Covered openings records pump := by
      cases h with
      | ready hc => exact hc
      | onItsWay _ _ ho => cases ho
    cases hstepped with
    | offered hs hget ht =>
      have hoffered : Stage looping openings records _ :=
        .onItsWay hcovered (.mk hs hget ht) (offer?_phaseOf _)
      exact hoffered.keep rfl rfl
    | exhausted hn hnot =>
      have hended : Stage looping openings records (pump.closeAll, .ended .exhausted) :=
        .exhausted (hcovered.whole hn) fun hloop =>
          absurd (hnot.symm.trans (hl.trans hloop)) Bool.false_ne_true
      exact hended.keep rfl rfl
    | lost _ _ _ => exact .failing
    | @renewed sources i hn _ _ _ =>
      show Stage looping (openings ++ [sources]) (records ++ []) (pump.renew sources, .ready)
      rw [List.append_nil]
      exact .ready ((hcovered.whole hn).covered (pump.renew sources))
    | @fruitless sources hn _ _ hs =>
      exact .exhausted ((hcovered.whole hn).snoc (.done hs)) fun _ =>
        ⟨_, sources, hcovered.openings_ne_nil, rfl, hs⟩
  | @wake pump offer =>
    cases h with
    | onItsWay hcovered hoffered ho =>
      have hheld : Stage looping openings records (pump, .holding offer) :=
        .onItsWay hcovered hoffered ho
      exact hheld.keep rfl rfl
  | heed _ => exact .brokenOff (by simp)
  | heedFailing => exact .brokenOff (by simp)
  | fail => exact .brokenOff (by simp)
  | @handOver pump offer n =>
    show Stage looping (openings ++ []) (records ++ [offer.record]) _
    rw [List.append_nil]
    cases h with
    | onItsWay hcovered hoffered ho =>
      cases ho
      obtain ⟨after, phase, hvalue, ⟨rfl, ht⟩ | ⟨error, rfl⟩⟩ := hoffered.handOver
      · rw [hvalue]
        exact .ready (hcovered.turn ht)
      · rw [hvalue]
        exact .failing

/-! ## What the reads are told -/

/-- Records, then an error if there is one, and then nothing so many times. -/
def word (records : List Record) (error : Option ReplayError) (more : Nat) : List ReadResult :=
  records.map (fun record => .ok (some record)) ++ error.toList.map .error
    ++ List.replicate more (.ok none)

/-- What the reads have returned is such a word, its records being those that were handed over. -/
def Said (deeds : List Deed) (error : Option ReplayError) (more : Nat) : Prop :=
  (returned deeds).map (·.2) = word (handedOver deeds) error more

/-- What the reads were told, and why the pump has ended if it has. -/
inductive Spoken (deeds : List Deed) : Phase → Prop
  | going {phase : Phase} : phase.isOver = false → Said deeds none 0 → Spoken deeds phase
  | exhausted {more : Nat} : Said deeds none more → Spoken deeds (.ended .exhausted)
  | cancelled {more : Nat} : Said deeds none more → .heed ∈ deeds →
      Spoken deeds (.ended .cancelled)
  | told {error : ReplayError} {more : Nat} : Said deeds (some error) more →
      Spoken deeds (.ended (.failed error.message))
  /-- A stop came before the error was read. -/
  | untold {error : ReplayError} {more : Nat} : Said deeds none more → .heed ∈ deeds →
      Spoken deeds (.ended (.failed error.message))

section Said

variable {error? : Option ReplayError} {more : Nat}

theorem Said.keep (h : Said deeds error? more) (hr : deed.returned? = none) :
    Said (deeds ++ [deed]) error? more := by
  rw [Said, returned_snoc, handedOver_snoc, hr, Deed.record?_of_returned? hr, Option.toList_none,
    Option.toList_none, List.append_nil, List.append_nil]
  exact h

theorem Said.record (h : Said deeds none 0) (n : Nat) (record : Record) :
    Said (deeds ++ [.returns n (.ok (some record))]) none 0 := by
  rw [Said, returned_snoc, handedOver_snoc, List.map_append, h]
  simp [word, Deed.returned?, Deed.record?]

theorem Said.error (h : Said deeds none 0) (n : Nat) (error : ReplayError) :
    Said (deeds ++ [.returns n (.error error)]) (some error) 0 := by
  rw [Said, returned_snoc, handedOver_snoc, List.map_append, h]
  simp [word, Deed.returned?, Deed.record?]

theorem Said.nothing (h : Said deeds error? more) (n : Nat) :
    Said (deeds ++ [.returns n (.ok none)]) error? (more + 1) := by
  rw [Said, returned_snoc, handedOver_snoc, List.map_append, h]
  simp [word, Deed.returned?, Deed.record?, List.replicate_succ']

theorem Said.mem_error (h : Said deeds error? more) (error : ReplayError) :
    (∃ n, .returns n (.error error) ∈ deeds) ↔ error? = some error := by
  have hmem : (∃ n, .returns n (.error error) ∈ deeds) ↔
      .error error ∈ (returned deeds).map (·.2) := by
    rw [List.mem_map]
    constructor
    · rintro ⟨n, hn⟩
      exact ⟨(n, .error error), List.mem_filterMap.mpr ⟨_, hn, rfl⟩, rfl⟩
    · rintro ⟨⟨n, result⟩, hn, rfl⟩
      obtain ⟨deed, hdeed, hreturned⟩ := List.mem_filterMap.mp hn
      cases deed with
      | returns m result =>
        cases hreturned
        exact ⟨n, hdeed⟩
      | _ => cases hreturned
  rw [hmem, h]
  simp [word]

end Said

theorem Spoken.said (h : Spoken deeds phase) (hover : phase.isOver = false) :
    Said deeds none 0 := by
  cases h with
  | going _ hsaid => exact hsaid
  | _ => cases hover

theorem Spoken.exists_said (h : Spoken deeds phase) : ∃ error? more, Said deeds error? more := by
  cases h with
  | going _ hsaid => exact ⟨_, _, hsaid⟩
  | exhausted hsaid => exact ⟨_, _, hsaid⟩
  | cancelled hsaid _ => exact ⟨_, _, hsaid⟩
  | told hsaid => exact ⟨_, _, hsaid⟩
  | untold hsaid _ => exact ⟨_, _, hsaid⟩

theorem Spoken.keep (h : Spoken deeds phase) (hr : deed.returned? = none) :
    Spoken (deeds ++ [deed]) phase := by
  cases h with
  | going hover hsaid => exact .going hover (hsaid.keep hr)
  | exhausted hsaid => exact .exhausted (hsaid.keep hr)
  | cancelled hsaid hheed => exact .cancelled (hsaid.keep hr) (List.mem_append_left _ hheed)
  | told hsaid => exact .told (hsaid.keep hr)
  | untold hsaid hheed => exact .untold (hsaid.keep hr) (List.mem_append_left _ hheed)

theorem Spoken.nothing {reason : StopReason} (h : Spoken deeds (.ended reason)) (n : Nat) :
    Spoken (deeds ++ [.returns n (.ok none)]) (.ended reason) := by
  cases h with
  | going hover _ => cases hover
  | exhausted hsaid => exact .exhausted (hsaid.nothing n)
  | cancelled hsaid hheed => exact .cancelled (hsaid.nothing n) (List.mem_append_left _ hheed)
  | told hsaid => exact .told (hsaid.nothing n)
  | untold hsaid hheed => exact .untold (hsaid.nothing n) (List.mem_append_left _ hheed)

theorem Spoken.step (h : Spoken deeds state.2) (hm : Moves files state deed next) :
    Spoken (deeds ++ [deed]) next.2 := by
  have hheed : .heed ∈ deeds ++ [Deed.heed] := List.mem_append_right _ List.mem_cons_self
  cases hm with
  | aside ha => exact h.keep (Deed.returned?_of_aside ha)
  | finish => exact h.nothing _
  | @step pump reopening next hstepped =>
    have hsaid : Said (deeds ++ [.step reopening]) none 0 := (h.said rfl).keep rfl
    cases hstepped with
    | offered _ _ _ => exact .going (isOver_phaseOf _) hsaid
    | exhausted _ _ => exact .exhausted hsaid
    | lost _ _ _ => exact .going rfl hsaid
    | renewed _ _ _ _ => exact .going rfl hsaid
    | fruitless _ _ _ _ => exact .exhausted hsaid
  | wake => exact .going rfl ((h.said rfl).keep rfl)
  | heed ho => exact .cancelled ((h.said (Phase.isOver_of_offer? ho)).keep rfl) hheed
  | heedFailing => exact .untold ((h.said rfl).keep rfl) hheed
  | @handOver pump offer n =>
    obtain ⟨sources, phase, hvalue, hover, -⟩ := handOver_kept pump offer
    rw [hvalue]
    exact .going hover ((h.said rfl).record n offer.record)
  | @fail pump error n => exact .told ((h.said rfl).error n error)

/-! ## The account -/

/-- The openings of captures from the start of the session on. -/
def openingsOf (first : Pump) (deeds : List Deed) : List (List Source) :=
  first.sources :: reopenings deeds

/-- All that a pump which began as `first` owes to what has happened. -/
structure Account (first : Pump) (deeds : List Deed) (state : Pump × Phase) : Prop where
  tally : Tally first deeds state
  stage : Stage first.looping (openingsOf first deeds) (handedOver deeds) state
  spoken : Spoken deeds state.2

theorem Account.step (h : Account first deeds state) (hm : Moves files state deed next) :
    Account first (deeds ++ [deed]) next := by
  refine ⟨h.tally.step hm, ?_, h.spoken.step hm⟩
  rw [openingsOf, reopenings_snoc, handedOver_snoc]
  exact h.stage.step h.tally.looping hm

theorem account_begin (first : Pump) : Account first [] (first, .ready) where
  tally := ⟨rfl, rfl, rfl, rfl, fun _ h => absurd h List.not_mem_nil, fun h => nomatch h⟩
  stage := .ready (Whole.covered ⟨[], .nil, rfl⟩ first)
  spoken := .going rfl rfl

end Pump

namespace Session

theorem of_prepare {tree : FileTree} {pattern : String} {settings : Settings} {prepared : Session}
    (h : (prepare tree pattern settings).value = .ok prepared) :
    ∃ sources, (resolveSources tree pattern).value = .ok sources ∧
      prepared
        = ⟨⟨pattern, settings.looping, sources, .new settings.speed, 0, 0⟩, .ready, false⟩ := by
  simp only [prepare, Pump.start, Logged.value_bind] at h
  cases hv : settings.validate with
  | error e =>
    rw [hv] at h
    cases h
  | ok done =>
    cases hs : (resolveSources tree pattern).value with
    | error e =>
      simp only [hv, Logged.value_bind, hs] at h
      cases h
    | ok sources =>
      simp only [hv, Logged.value_bind, hs] at h
      cases h
      exact ⟨sources, rfl, rfl⟩

end Session

namespace Exchange

variable {files : Nat → FileTree} {prepared : Session} {s : Exchange} {deeds : List Deed}

/-- **Every run of a session adds up.** -/
theorem Run.account (h : Run files (begin prepared) deeds s) (hp : prepared.phase = .ready) :
    Pump.Account prepared.pump deeds s.state := by
  have hbegin : (begin prepared).state = (prepared.pump, .ready) := by
    rw [state, begin, hp]
  have haccount := Pump.account_begin prepared.pump
  rw [← hbegin] at haccount
  exact h.follow (sound_begin prepared) Pump.Account.step haccount

end Exchange

end TrafficReplay
