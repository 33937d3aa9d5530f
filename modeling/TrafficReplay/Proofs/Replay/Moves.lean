/-
# The moves of the pump

`Pump.Stepped` says all that `Pump.step` can do, and `Pump.Moves` all that a step of an `Exchange`
can do to its pump. A pump is forsaken in none of them: the ends of its channels go only when it is
done (`Exchange.Sound`). So each step is a move or leaves the pump alone (`Exchange.Step.moves`),
and an invariant of the moves is one of the runs (`Exchange.Run.follow`).
-/
import TrafficReplay.Proofs.Replay.Exchange

namespace TrafficReplay

namespace Pump

variable {files : Nat → FileTree} {tree : FileTree} {pump : Pump}

/-- What a step can do. -/
inductive Stepped (tree : FileTree) (pump : Pump) :
    Option (Except ReplayError (List Source)) → Pump × Phase → Prop
  | offered {i : Nat} {source taken : Source} {record : Record} :
      Merge.select pump.sources = some i → pump.sources[i]? = some source →
      source.take = (some record, taken) →
      Stepped tree pump none (pump.afterTake i record taken, phaseOf (pump.offerOf i record))
  | exhausted : Merge.select pump.sources = none → pump.looping = false →
      Stepped tree pump none (pump.closeAll, .ended .exhausted)
  | lost {error : ReplayError} : Merge.select pump.sources = none → pump.looping = true →
      (resolveSources tree pump.pattern).value = .error error →
      Stepped tree pump (some (.error error)) (pump.closeAll, .failing error)
  | renewed {sources : List Source} {i : Nat} : Merge.select pump.sources = none →
      pump.looping = true → (resolveSources tree pump.pattern).value = .ok sources →
      Merge.select sources = some i →
      Stepped tree pump (some (.ok sources)) (pump.renew sources, .ready)
  | fruitless {sources : List Source} : Merge.select pump.sources = none →
      pump.looping = true → (resolveSources tree pump.pattern).value = .ok sources →
      Merge.select sources = none →
      Stepped tree pump (some (.ok sources)) ((pump.renew sources).closeAll, .ended .exhausted)

theorem heeds_phaseOf (offer : Offer) : (phaseOf offer).heeds = true := by
  rw [phaseOf]
  cases offer.wait with
  | none => rfl
  | some wait => rfl

theorem isOver_phaseOf (offer : Offer) : (phaseOf offer).isOver = false :=
  Phase.isOver_of_offer? (offer?_phaseOf offer)

theorem reopening_of_select {i : Nat} (h : Merge.select pump.sources = some i) :
    pump.reopening tree = none :=
  if_neg fun hnone => nomatch hnone.1.symm.trans h

theorem reopening_of_loop (hn : Merge.select pump.sources = none) (hl : pump.looping = true) :
    pump.reopening tree = some (resolveSources tree pump.pattern).value :=
  if_pos ⟨hn, hl⟩

theorem reopening_of_not_loop (hl : pump.looping = false) : pump.reopening tree = none :=
  if_neg fun h => nomatch h.2.symm.trans hl

theorem exists_take {i : Nat} (h : Merge.select pump.sources = some i) :
    ∃ source record left, pump.sources[i]? = some source ∧ source.take = (some record, left) := by
  obtain ⟨record, hw⟩ := Merge.wins_of_select h
  obtain ⟨source, hget, hhand⟩ := Option.bind_eq_some_iff.mp hw.here
  refine ⟨source, record, { source with lookahead := none }, hget, ?_⟩
  rw [Source.take, hhand]

/-- **A step does one of these things.** -/
theorem stepped (tree : FileTree) (pump : Pump) :
    Stepped tree pump (pump.reopening tree) (pump.step tree).value := by
  cases hs : Merge.select pump.sources with
  | some i =>
    obtain ⟨source, record, left, hget, ht⟩ := exists_take hs
    rw [reopening_of_select hs, step_of_select hs, Logged.value_pure, take_of_take hget ht]
    exact .offered hs hget ht
  | none =>
    cases hl : pump.looping with
    | false =>
      have hstep : (pump.step tree).value = (pump.closeAll, .ended .exhausted) :=
        (Round.done hs).finish hl tree
      rw [reopening_of_not_loop hl, hstep]
      exact .exhausted hs hl
    | true =>
      rw [reopening_of_loop hs hl, step_of_loop hs hl]
      cases hr : (resolveSources tree pump.pattern).value with
      | error error =>
        rw [restart_of_error hr]
        exact .lost hs hl hr
      | ok sources =>
        cases hsome : Merge.select sources with
        | some i =>
          rw [restart_of_select hr hsome]
          exact .renewed hs hl hr hsome
        | none =>
          rw [restart_of_none hr hsome]
          exact .fruitless hs hl hr hsome

theorem Stepped.value {reopening : Option (Except ReplayError (List Source))}
    {next : Pump × Phase} (h : Stepped tree pump reopening next) :
    (pump.step tree).value = next := by
  cases h with
  | offered hs hget ht => rw [step_of_select hs, Logged.value_pure, take_of_take hget ht]
  | exhausted hn hl => exact (Round.done hn).finish hl tree
  | lost hn hl hr => rw [step_of_loop hn hl, restart_of_error hr]
  | renewed hn hl hr hs => rw [step_of_loop hn hl, restart_of_select hr hs]
  | fruitless hn hl hr hs => rw [step_of_loop hn hl, restart_of_none hr hs]

theorem Stepped.reopening {reopening : Option (Except ReplayError (List Source))}
    {next : Pump × Phase} (h : Stepped tree pump reopening next) :
    pump.reopening tree = reopening := by
  cases h with
  | offered hs _ _ => exact reopening_of_select hs
  | exhausted _ hl => exact reopening_of_not_loop hl
  | lost hn hl hr => rw [reopening_of_loop hn hl, hr]
  | renewed hn hl hr _ => rw [reopening_of_loop hn hl, hr]
  | fruitless hn hl hr _ => rw [reopening_of_loop hn hl, hr]

/-- What a step of the exchange is for its pump: nothing, or a move. -/
inductive Moves (files : Nat → FileTree) : Pump × Phase → Deed → Pump × Phase → Prop
  | aside {state : Pump × Phase} {deed : Deed} : deed.aside = true → Moves files state deed state
  | finish {pump : Pump} {reason : StopReason} {n : Nat} :
      Moves files (pump, .ended reason) (.returns n (.ok none)) (pump, .ended reason)
  | step {pump : Pump} {reopening : Option (Except ReplayError (List Source))}
      {next : Pump × Phase} : Stepped (files pump.restarts) pump reopening next →
      Moves files (pump, .ready) (.step reopening) next
  | wake {pump : Pump} {offer : Offer} :
      Moves files (pump, .waiting offer) .wake (pump, .holding offer)
  | heed {pump : Pump} {phase : Phase} {offer : Offer} : phase.offer? = some offer →
      Moves files (pump, phase) .heed (pump.closeAll, .ended .cancelled)
  | heedFailing {pump : Pump} {error : ReplayError} :
      Moves files (pump, .failing error) .heed (pump.closeAll, .ended (.failed error.message))
  | handOver {pump : Pump} {offer : Offer} {n : Nat} :
      Moves files (pump, .holding offer) (.returns n (.ok (some offer.record)))
        (pump.handOver offer).value
  | fail {pump : Pump} {error : ReplayError} {n : Nat} :
      Moves files (pump, .failing error) (.returns n (.error error))
        (pump.closeAll, .ended (.failed error.message))

theorem Moves.of_ended {reason : StopReason} {deed : Deed} {next : Pump × Phase}
    (h : Moves files (pump, .ended reason) deed next) :
    next = (pump, .ended reason) ∧ (deed.aside = true ∨ ∃ n, deed = .returns n (.ok none)) := by
  cases h with
  | aside ha => exact ⟨rfl, .inl ha⟩
  | finish => exact ⟨rfl, .inr ⟨_, rfl⟩⟩
  | heed ho => cases ho

end Pump

namespace Exchange

variable {files : Nat → FileTree} {s t : Exchange} {deed : Deed} {deeds later : List Deed}

theorem Step.ofStepped {pump : Pump} {reopening : Option (Except ReplayError (List Source))}
    {next : Pump × Phase} (hs : s.state = (pump, .ready))
    (hstepped : Pump.Stepped (files pump.restarts) pump reopening next) :
    Step files s (.step reopening) (s.moved next) := by
  obtain ⟨rfl, hphase⟩ := Prod.mk.inj hs
  rw [← hstepped.reopening, ← hstepped.value]
  exact .step hphase

/-- The ends of the channels are gone only when the pump is done. -/
def Sound (s : Exchange) : Prop :=
  s.standing = .gone → s.session.phase.isOver = true

theorem state_wait (session : Session) :
    session.wait.2.pump = session.pump ∧ session.wait.2.phase = session.phase := by
  obtain ⟨pump, phase, collected⟩ := session
  cases phase with
  | ended reason =>
    cases collected with
    | true => exact ⟨rfl, rfl⟩
    | false => exact ⟨rfl, rfl⟩
  | ready => exact ⟨rfl, rfl⟩
  | waiting offer => exact ⟨rfl, rfl⟩
  | holding offer => exact ⟨rfl, rfl⟩
  | failing error => exact ⟨rfl, rfl⟩

theorem state_waited (s : Exchange) :
    Exchange.state { s with session := s.session.wait.2 } = s.state :=
  Prod.ext (state_wait s.session).1 (state_wait s.session).2

/-- **Each step is a move of the pump or leaves it alone.** As long as the channels have both their
ends, nobody is forsaken. -/
theorem Step.moves (h : Step files s deed t) (hs : s.Sound) :
    Pump.Moves files s.state deed t.state := by
  cases h with
  | call _ => exact .aside rfl
  | request _ => exact .aside rfl
  | step hphase =>
    rw [state, hphase]
    exact .step (Pump.stepped _ _)
  | wake hphase _ =>
    rw [state, hphase]
    exact .wake
  | heed hheeds _ =>
    simp only [state, Session.stop]
    cases hphase : s.session.phase with
    | waiting offer => exact .heed rfl
    | holding offer => exact .heed rfl
    | failing error => exact .heedFailing
    | ready => rw [hphase] at hheeds; cases hheeds
    | ended reason => rw [hphase] at hheeds; cases hheeds
  | handOver hphase _ =>
    rw [state, hphase]
    exact .handOver
  | fail hphase _ =>
    rw [state, hphase]
    exact .fail
  | finish hphase _ =>
    rw [state, state, answered, hphase]
    exact .finish
  | forsakeRecord hphase hgone =>
    have hover := hs hgone
    rw [hphase] at hover
    cases hover
  | forsakeError hphase hgone =>
    have hover := hs hgone
    rw [hphase] at hover
    cases hover
  | collect _ _ _ =>
    rw [state_waited]
    exact .aside rfl
  | release _ _ =>
    show Pump.Moves files s.state _ (Exchange.state { s with session := s.session.wait.2 })
    rw [state_waited]
    exact .aside rfl

theorem Step.ended_of_heed (h : Step files s .heed t) (hs : s.Sound) :
    ∃ reason, t.session.phase = .ended reason := by
  have hmoves := h.moves hs
  generalize s.state = before, hafter : t.state = after at hmoves
  have hphase : t.session.phase = after.2 := congrArg Prod.snd hafter
  cases hmoves with
  | aside ha => cases ha
  | heed _ => exact ⟨_, hphase⟩
  | heedFailing => exact ⟨_, hphase⟩

theorem Step.over_of_over (h : Step files s deed t) (hs : s.Sound)
    (hover : s.session.phase.isOver = true) : t.session.phase.isOver = true := by
  obtain ⟨reason, hphase⟩ := Phase.isOver_iff.mp hover
  have hmoves := h.moves hs
  rw [state, hphase] at hmoves
  have hphase' : t.session.phase = .ended reason := congrArg Prod.snd hmoves.of_ended.1
  exact Phase.isOver_iff.mpr ⟨reason, hphase'⟩

theorem Step.sound (h : Step files s deed t) (hs : s.Sound) : t.Sound := by
  intro hgone
  have hkept := h.over_of_over hs
  cases h with
  | release hphase _ =>
    rw [(state_wait s.session).2, hphase]
    rfl
  | @request who _ =>
    cases who with
    | drop => cases hgone
    | owner => exact hkept (hs hgone)
    | handle n => exact hkept (hs hgone)
  | _ => exact hkept (hs hgone)

theorem Run.sound (h : Run files s later t) (hs : s.Sound) : t.Sound := by
  induction h with
  | done => exact hs
  | next _ hstep ih => exact hstep.sound ih

theorem sound_begin (session : Session) : (begin session).Sound :=
  fun h => nomatch h

/-- **What the moves of the pump keep up holds along every run.** -/
theorem Run.follow {P : List Deed → Pump × Phase → Prop} (h : Run files s later t) (hs : s.Sound)
    (hstep : ∀ {deeds state deed next}, P deeds state → Pump.Moves files state deed next →
      P (deeds ++ [deed]) next)
    (hP : P deeds s.state) : P (deeds ++ later) t.state := by
  induction h with
  | done =>
    rw [List.append_nil]
    exact hP
  | next hrun hlast ih =>
    rw [← List.append_assoc]
    exact hstep ih (hlast.moves (hrun.sound hs))

theorem Run.keeps {P : List Deed → Pump × Phase → Prop} (h : Run files s later t) (hs : s.Sound)
    (hstep : ∀ {deeds state deed next}, P deeds state → Pump.Moves files state deed next →
      P (deeds ++ [deed]) next)
    (hP : P [] s.state) : P later t.state :=
  h.follow hs hstep hP

theorem Run.of_ended (h : Run files s later t) (hs : s.Sound) {reason : StopReason}
    (hphase : s.session.phase = .ended reason) :
    t.state = s.state ∧ ∀ deed ∈ later, deed.aside = true ∨ ∃ n, deed = .returns n (.ok none) := by
  have hstate : s.state = (s.session.pump, .ended reason) := by rw [state, hphase]
  have hall := h.follow (P := fun deeds state => state = s.state ∧
      ∀ deed ∈ deeds, deed.aside = true ∨ ∃ n, deed = .returns n (.ok none)) hs ?_
    ⟨rfl, fun _ hmem => absurd hmem List.not_mem_nil⟩
  · exact hall
  · rintro deeds _ deed next ⟨rfl, hdeeds⟩ hmoves
    rw [hstate] at hmoves ⊢
    obtain ⟨hsame, hdeed⟩ := hmoves.of_ended
    refine ⟨hsame, fun other hmem => ?_⟩
    rcases List.mem_append.mp hmem with hbefore | hlast
    · exact hdeeds other hbefore
    · rw [List.mem_singleton.mp hlast]
      exact hdeed

end Exchange

end TrafficReplay
