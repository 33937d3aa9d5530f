/-
# Rounds of the pump

A round is all that the pump does from one opening of its captures until no source has a record in
hand: it offers a record, hands it over, offers the next one (`Pump.Round`). The moves of a turn are
those of the loop of the merge, so a round is a row of turns (`Pump.Turns`), and only the wait of an
offer depends on the pacing: every run of the loop is a round (`Pump.round_of_loop`), and every
round is a run of the loop (`Pump.Round.loop`).
-/
import TrafficReplay.Proofs.Merge.Loop
import TrafficReplay.Replay.Pump

namespace TrafficReplay

/-- What an offer is made from: the place of the source, and its record. -/
def Offer.entry (offer : Offer) : Nat × Record :=
  (offer.index, offer.record)

/-- The offers of these records, one after the other, each with its wait. -/
def Pacing.offers (pacing : Pacing) : List (Nat × Record) → List Offer
  | [] => []
  | (i, record) :: items =>
    ⟨i, record, pacing.wait? record.kind record.timestamp⟩ ::
      (pacing.next record.timestamp).offers items

theorem Pacing.wait?_new (speed : Float) (kind : Kind) (timestamp : Int) :
    (Pacing.new speed).wait? kind timestamp = none := by
  cases kind with
  | request => rfl
  | response => rfl
  | other tag => rfl

theorem Pacing.map_entry_offers (pacing : Pacing) (items : List (Nat × Record)) :
    (pacing.offers items).map Offer.entry = items := by
  induction items generalizing pacing with
  | nil => rfl
  | cons item items ih => exact congrArg (item :: ·) (ih _)

theorem Pacing.length_offers (pacing : Pacing) (items : List (Nat × Record)) :
    (pacing.offers items).length = items.length := by
  rw [← List.length_map (f := Offer.entry), map_entry_offers]

theorem Pacing.map_record_offers (pacing : Pacing) (items : List (Nat × Record)) :
    (pacing.offers items).map Offer.record = items.map (·.2) := by
  conv =>
    rhs
    rw [← map_entry_offers pacing items, List.map_map]
  rfl

def Phase.offer? : Phase → Option Offer
  | waiting offer | holding offer => some offer
  | ready | failing _ | ended _ => none

namespace Pump

/-- A run of the pump until no source has a record in hand: what it offers and hands over on the
way, and the pump in the end. Files may change at any time. -/
inductive Round : Pump → List Offer → Pump → Prop
  | done {pump : Pump} : Merge.select pump.sources = none → Round pump [] pump
  | handOver {pump taken next final : Pump} {offer : Offer} {offers : List Offer}
      (tree : FileTree) :
      (pump.step tree).value = (taken, phaseOf offer) →
        (taken.handOver offer).value = (next, .ready) →
      Round next offers final → Round pump (offer :: offers) final

theorem summary_closeAll (pump : Pump) (reason : StopReason) :
    pump.closeAll.summary reason = ⟨pump.emitted, pump.restarts, reason, 0⟩ := by
  have hopen : pump.closeAll.sources.filter Source.isOpen = [] := by
    refine List.filter_eq_nil_iff.mpr fun source hmem => ?_
    obtain ⟨opened, -, rfl⟩ := List.mem_map.mp hmem
    exact Bool.false_ne_true
  rw [summary, hopen]
  rfl

theorem offer?_phaseOf (offer : Offer) : (phaseOf offer).offer? = some offer := by
  rw [phaseOf]
  cases offer.wait with
  | none => rfl
  | some wait => rfl

variable {pump : Pump}

theorem offer?_restart (pump : Pump) (tree : FileTree) :
    (pump.restart tree).value.2.offer? = none := by
  simp only [restart, Logged.value_bind]
  cases (resolveSources tree pump.pattern).value with
  | error e => rfl
  | ok sources =>
    simp only [Logged.value_bind]
    cases (Merge.select sources).isSome with
    | true => rfl
    | false => rfl

/-- The pump once it has taken this record, the source without it being `taken`. -/
def afterTake (pump : Pump) (i : Nat) (record : Record) (taken : Source) : Pump :=
  { pump with sources := pump.sources.set i taken, pacing := pump.pacing.next record.timestamp }

/-- The pump once it has handed over this record, the sources then being `after`. -/
def afterTurn (pump : Pump) (record : Record) (after : List Source) : Pump :=
  { pump with
      sources := after
      pacing := pump.pacing.next record.timestamp
      emitted := pump.emitted + 1 }

def offerOf (pump : Pump) (i : Nat) (record : Record) : Offer :=
  ⟨i, record, pump.pacing.wait? record.kind record.timestamp⟩

theorem step_of_select {i : Nat} (h : Merge.select pump.sources = some i) (tree : FileTree) :
    pump.step tree = pure (pump.take i) := by
  rw [step, h]

theorem take_of_take {i : Nat} {source taken : Source} {record : Record}
    (hs : pump.sources[i]? = some source)
    (ht : source.take = (some record, taken)) :
    pump.take i = (pump.afterTake i record taken, phaseOf (pump.offerOf i record)) := by
  simp only [take, hs, ht]
  rfl

theorem handOver_of_advance {i : Nat} {source taken advanced : Source} {record : Record}
    (hs : pump.sources[i]? = some source) (ha : taken.advance.value = (.ok (), advanced)) :
    ((pump.afterTake i record taken).handOver (pump.offerOf i record)).value
      = (pump.afterTurn record (pump.sources.set i advanced), .ready) := by
  have hi : i < pump.sources.length := (List.getElem?_eq_some_iff.mp hs).1
  have hget : (pump.sources.set i taken)[i]? = some taken := List.getElem?_set_self hi
  simp only [handOver, afterTake, offerOf, hget, Logged.value_bind, ha, List.set_set]
  rfl

/-- The moves of the pump in a turn, from the step that offers the record to the end of its handing
over. -/
theorem moves_of_turn {i : Nat} {record : Record} {after : List Source}
    (h : Merge.Turn pump.sources i record after) :
    ∃ taken, (∀ tree, (pump.step tree).value = (taken, phaseOf (pump.offerOf i record))) ∧
      (taken.handOver (pump.offerOf i record)).value = (pump.afterTurn record after, .ready) := by
  obtain ⟨hs, hget, ht, ha⟩ := h
  refine ⟨_, fun tree => ?_, handOver_of_advance hget ha⟩
  rw [step_of_select hs, take_of_take hget ht]
  rfl

theorem taken_of_step {taken : Pump} {offer : Offer} {tree : FileTree}
    (h : (pump.step tree).value = (taken, phaseOf offer)) :
    ∃ i source left record, Merge.select pump.sources = some i ∧ pump.sources[i]? = some source ∧
      source.take = (some record, left) ∧ offer = pump.offerOf i record ∧
      taken = pump.afterTake i record left := by
  have hphase : (pump.step tree).value.2.offer? = some offer := by
    rw [h]
    exact offer?_phaseOf offer
  cases hs : Merge.select pump.sources with
  | none =>
    simp only [step, hs] at hphase
    cases hl : pump.looping with
    | true =>
      rw [hl, if_pos rfl, offer?_restart] at hphase
      cases hphase
    | false =>
      rw [hl] at hphase
      cases hphase
  | some i =>
    rw [step_of_select hs, Logged.value_pure] at h hphase
    cases hget : pump.sources[i]? with
    | none =>
      simp only [take, hget] at hphase
      cases hphase
    | some source =>
      rcases ht : source.take with ⟨record?, left⟩
      cases record? with
      | none =>
        simp only [take, hget, ht] at hphase
        cases hphase
      | some record =>
        rw [take_of_take hget ht] at h hphase
        rw [offer?_phaseOf] at hphase
        cases hphase
        exact ⟨i, source, left, record, rfl, hget, ht, rfl, (congrArg Prod.fst h).symm⟩

theorem advance_of_handOver {i : Nat} {source left : Source} {record : Record} {next : Pump}
    (hs : pump.sources[i]? = some source)
    (h : ((pump.afterTake i record left).handOver (pump.offerOf i record)).value = (next, .ready)) :
    ∃ advanced, left.advance.value = (.ok (), advanced) ∧
      next = pump.afterTurn record (pump.sources.set i advanced) := by
  rcases ha : left.advance.value with ⟨result, advanced⟩
  cases result with
  | ok done =>
    cases done
    rw [handOver_of_advance hs ha] at h
    exact ⟨advanced, rfl, (congrArg Prod.fst h).symm⟩
  | error e =>
    have hi : i < pump.sources.length := (List.getElem?_eq_some_iff.mp hs).1
    have hget : (pump.sources.set i left)[i]? = some left := List.getElem?_set_self hi
    simp only [handOver, afterTake, offerOf, hget, Logged.value_bind, ha] at h
    cases congrArg Prod.snd h

/-- **A record is offered and handed over in a turn of the merge**, and in no other way. -/
theorem turn_of_moves {taken next : Pump} {offer : Offer} {tree : FileTree}
    (hstep : (pump.step tree).value = (taken, phaseOf offer))
    (hhand : (taken.handOver offer).value = (next, .ready)) :
    ∃ i record after, Merge.Turn pump.sources i record after ∧ offer = pump.offerOf i record ∧
      next = pump.afterTurn record after := by
  obtain ⟨i, source, left, record, hs, hget, ht, rfl, rfl⟩ := taken_of_step hstep
  obtain ⟨advanced, ha, rfl⟩ := advance_of_handOver hget hhand
  exact ⟨i, record, _, .mk hs hget ht ha, rfl, rfl⟩

/-! ## Turns -/

/-- Some turns of the merge: what the pump offers on the way, and the pump behind them. -/
inductive Turns : Pump → List Offer → Pump → Prop
  | done {pump : Pump} : Turns pump [] pump
  | turn {pump final : Pump} {i : Nat} {record : Record} {after : List Source}
      {offers : List Offer} : Merge.Turn pump.sources i record after →
      Turns (pump.afterTurn record after) offers final →
      Turns pump (pump.offerOf i record :: offers) final

/-- What turns leave behind: so many more records read, and all else but the sources as it was. -/
structure Advanced (pump : Pump) (count : Nat) (final : Pump) : Prop where
  emitted : final.emitted = pump.emitted + count
  restarts : final.restarts = pump.restarts
  looping : final.looping = pump.looping
  pattern : final.pattern = pump.pattern
  speed : final.pacing.speed = pump.pacing.speed

section Turns

variable {final : Pump} {offers : List Offer}

theorem Turns.advanced (h : Turns pump offers final) : Advanced pump offers.length final := by
  induction h with
  | done => exact ⟨rfl, rfl, rfl, rfl, rfl⟩
  | @turn pump final i record after offers _ _ ih =>
    have hcount : final.emitted = pump.emitted + 1 + offers.length := ih.emitted
    refine ⟨?_, ih.restarts, ih.looping, ih.pattern, ih.speed⟩
    rw [hcount, List.length_cons]
    omega

theorem turns_of_loop {items : List (Nat × Record)} (h : Merge.Loop pump.sources items) :
    ∃ final, Turns pump (pump.pacing.offers items) final ∧ Merge.select final.sources = none := by
  generalize hsources : pump.sources = sources at h
  induction h generalizing pump with
  | done hs =>
    rw [← hsources] at hs
    exact ⟨pump, .done, hs⟩
  | @next sources after i record items ht _ ih =>
    subst hsources
    obtain ⟨final, hturns, hnone⟩ := @ih (pump.afterTurn record after) rfl
    exact ⟨final, .turn ht hturns, hnone⟩

theorem Turns.round (h : Turns pump offers final) (hn : Merge.select final.sources = none) :
    Round pump offers final := by
  induction h with
  | done => exact .done hn
  | turn ht _ ih =>
    obtain ⟨taken, hstep, hhand⟩ := moves_of_turn ht
    exact .handOver ⟨.directory [], []⟩ (hstep _) hhand (ih hn)

theorem Round.turns (h : Round pump offers final) :
    Turns pump offers final ∧ Merge.select final.sources = none := by
  induction h with
  | done hs => exact ⟨.done, hs⟩
  | handOver tree hstep hhand _ ih =>
    obtain ⟨i, record, after, ht, rfl, rfl⟩ := turn_of_moves hstep hhand
    exact ⟨.turn ht ih.1, ih.2⟩

end Turns

/-- **Every run of the loop is a round**, whatever the pacing makes of the waits. -/
theorem round_of_loop {items : List (Nat × Record)} (h : Merge.Loop pump.sources items) :
    ∃ final, Round pump (pump.pacing.offers items) final := by
  obtain ⟨final, hturns, hnone⟩ := turns_of_loop h
  exact ⟨final, hturns.round hnone⟩

section Round

variable {offers : List Offer} {final : Pump}

/-- **Every round is a run of the loop.** -/
theorem Round.loop (h : Round pump offers final) :
    Merge.Loop pump.sources (offers.map Offer.entry) := by
  induction h with
  | done hs => exact .done hs
  | handOver tree hstep hhand _ ih =>
    obtain ⟨i, record, after, ht, rfl, rfl⟩ := turn_of_moves hstep hhand
    exact .next ht ih

/-- What a round leaves behind: no record in hand, as many more records read as were offered, and
all else as it was. -/
structure Passed (pump : Pump) (offers : List Offer) (final : Pump) : Prop where
  select : Merge.select final.sources = none
  emitted : final.emitted = pump.emitted + offers.length
  restarts : final.restarts = pump.restarts
  looping : final.looping = pump.looping
  pattern : final.pattern = pump.pattern

theorem Round.passed (h : Round pump offers final) : Passed pump offers final := by
  obtain ⟨hturns, hnone⟩ := h.turns
  have hadvanced := hturns.advanced
  exact ⟨hnone, hadvanced.emitted, hadvanced.restarts, hadvanced.looping, hadvanced.pattern⟩

theorem Round.finish (h : Round pump offers final) (hl : pump.looping = false) (tree : FileTree) :
    (final.step tree).value = (final.closeAll, .ended .exhausted) := by
  have hlooping : final.looping = false := h.passed.looping.trans hl
  rw [step, h.passed.select]
  simp only [hlooping]
  rfl

end Round

end Pump

end TrafficReplay
