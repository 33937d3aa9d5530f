/-
# Steps from their beginning to their end

What comes of a step of the pump before the next one (`Pump.After`): a record is on its way, or it
was handed over and the turn is done, or captures were opened anew of which one has a record in
hand, or it was the pump's last step. So a step after which the pump is about to step again is a
turn of the merge or such an opening (`Exchange.WholeStep.cases`), whatever reads and stop requests
come in between.
-/
import TrafficReplay.Proofs.Replay.Stopping

namespace TrafficReplay

namespace Pump

variable {files : Nat → FileTree} {tree : FileTree} {before pump : Pump} {state next : Pump × Phase}
  {deed : Deed} {records : List Record} {openings : List (List Source)}

/-- What has come of a step since the pump was `before`: the records handed over, the openings, and
where the pump is. -/
inductive After (before : Pump) : List Record → List (List Source) → Pump × Phase → Prop
  | onItsWay {pump : Pump} {phase : Phase} {offer : Offer} : Offered before offer pump →
      phase.offer? = some offer → After before [] [] (pump, phase)
  | turned {i : Nat} {record : Record} {after : List Source} :
      Merge.Turn before.sources i record after →
      After before [record] [] (before.afterTurn record after, .ready)
  | renewed {sources : List Source} {i : Nat} : Merge.select sources = some i →
      After before [] [sources] (before.renew sources, .ready)
  /-- It was the pump's last step. -/
  | last {records : List Record} {openings : List (List Source)} {pump : Pump} {phase : Phase} :
      phase ≠ .ready → phase.offer? = none → After before records openings (pump, phase)

theorem Stepped.after {reopening : Option (Except ReplayError (List Source))}
    (h : Stepped tree before reopening next) :
    After before [] (Deed.step reopening).reopened?.toList next := by
  cases h with
  | offered hs hget ht => exact .onItsWay (.mk hs hget ht) (offer?_phaseOf _)
  | exhausted _ _ => exact .last (fun h => nomatch h) rfl
  | lost _ _ _ => exact .last (fun h => nomatch h) rfl
  | renewed _ _ _ hs => exact .renewed hs
  | fruitless _ _ _ _ => exact .last (fun h => nomatch h) rfl

theorem Moves.of_ready (h : Moves files (pump, .ready) deed next) (hd : deed.isStep = false) :
    deed.aside = true ∧ next = (pump, .ready) := by
  cases h with
  | aside ha => exact ⟨ha, rfl⟩
  | step _ => cases hd
  | heed ho => cases ho

theorem After.move (h : After before records openings state) (hm : Moves files state deed next)
    (hd : deed.isStep = false) :
    After before (records ++ deed.record?.toList) (openings ++ deed.reopened?.toList) next := by
  have haside : deed.aside = true →
      After before (records ++ deed.record?.toList) (openings ++ deed.reopened?.toList) state := by
    intro ha
    rw [Deed.record?_of_aside ha, Deed.reopened?_of_aside ha, Option.toList_none,
      Option.toList_none, List.append_nil, List.append_nil]
    exact h
  cases h with
  | turned _ =>
    obtain ⟨ha, rfl⟩ := hm.of_ready hd
    exact haside ha
  | renewed _ =>
    obtain ⟨ha, rfl⟩ := hm.of_ready hd
    exact haside ha
  | last hready hnone =>
    cases hm with
    | aside ha => exact haside ha
    | step _ => exact absurd rfl hready
    | heed ho => exact absurd (hnone.symm.trans ho) (by simp)
    | wake => cases hnone
    | handOver => cases hnone
    | finish => exact .last (fun h => nomatch h) rfl
    | heedFailing => exact .last (fun h => nomatch h) rfl
    | fail => exact .last (fun h => nomatch h) rfl
  | onItsWay hoffered ho =>
    cases hm with
    | aside ha => exact haside ha
    | step _ => cases hd
    | wake => exact .onItsWay hoffered ho
    | heed _ => exact .last (fun h => nomatch h) rfl
    | finish => cases ho
    | heedFailing => cases ho
    | fail => cases ho
    | handOver =>
      cases ho
      obtain ⟨after, phase, hvalue, ⟨rfl, ht⟩ | ⟨error, rfl⟩⟩ := hoffered.handOver
      · rw [hvalue]
        exact .turned ht
      · rw [hvalue]
        exact .last (fun h => nomatch h) rfl

end Pump

namespace Exchange

variable {files : Nat → FileTree} {s t : Exchange} {deed : Deed} {deeds later : List Deed}
  {before : Pump} {records : List Record} {openings : List (List Source)}

theorem countP_snoc_eq_zero (h : (deeds ++ [deed]).countP Deed.isStep = 0) :
    deeds.countP Deed.isStep = 0 ∧ deed.isStep = false := by
  rw [countP_isStep_snoc, Nat.add_eq_zero_iff] at h
  refine ⟨h.1, Bool.eq_false_of_not_eq_true fun hstep => ?_⟩
  rw [hstep] at h
  cases h.2

theorem Run.of_ready (h : Run files s later t) (hs : s.Sound) (hready : s.state = (before, .ready))
    (hnone : later.countP Deed.isStep = 0) :
    t.state = (before, .ready) ∧ handedOver later = [] ∧ reopenings later = [] := by
  refine h.keeps (P := fun deeds state => deeds.countP Deed.isStep = 0 →
    state = (before, .ready) ∧ handedOver deeds = [] ∧ reopenings deeds = []) hs ?_
    (fun _ => ⟨hready, rfl, rfl⟩) hnone
  intro deeds state deed next hP hm hnone
  obtain ⟨hbefore, hlast⟩ := countP_snoc_eq_zero hnone
  obtain ⟨rfl, hhanded, hopened⟩ := hP hbefore
  obtain ⟨ha, rfl⟩ := hm.of_ready hlast
  rw [handedOver_snoc, reopenings_snoc, Deed.record?_of_aside ha, Deed.reopened?_of_aside ha,
    hhanded, hopened]
  exact ⟨rfl, rfl, rfl⟩

theorem Run.after (h : Run files s later t) (hs : s.Sound)
    (hafter : Pump.After before records openings s.state)
    (hnone : later.countP Deed.isStep = 0) :
    Pump.After before (records ++ handedOver later) (openings ++ reopenings later) t.state := by
  have hbegin :
      Pump.After before (records ++ handedOver []) (openings ++ reopenings []) s.state := by
    rw [handedOver, reopenings, List.filterMap_nil, List.filterMap_nil, List.append_nil,
      List.append_nil]
    exact hafter
  refine h.keeps (P := fun deeds state => deeds.countP Deed.isStep = 0 →
    Pump.After before (records ++ handedOver deeds) (openings ++ reopenings deeds) state) hs ?_
    (fun _ => hbegin) hnone
  intro deeds state deed next hP hm hnone
  obtain ⟨hbefore, hlast⟩ := countP_snoc_eq_zero hnone
  rw [handedOver_snoc, reopenings_snoc, ← List.append_assoc, ← List.append_assoc]
  exact (hP hbefore).move hm hlast

/-- A step from its beginning to its end, with the pump about to step again. -/
structure WholeStep (files : Nat → FileTree) (s : Exchange) (call : List Deed) (t : Exchange) :
    Prop where
  run : Run files s call t
  first : s.session.phase = .ready
  last : t.session.phase = .ready
  once : call.countP Deed.isStep = 1

/-- **A step that is not the last is a turn of the merge, or an opening with a record to be taken.**
-/
theorem WholeStep.cases {call : List Deed} (h : WholeStep files s call t) (hs : s.Sound) :
    (∃ i record after, Merge.Turn s.session.pump.sources i record after ∧
        handedOver call = [record] ∧ reopenings call = [] ∧
        t.session.pump = s.session.pump.afterTurn record after) ∨
      ∃ sources i, Merge.select sources = some i ∧ handedOver call = [] ∧
        reopenings call = [sources] ∧ t.session.pump = s.session.pump.renew sources := by
  have hready : s.state = (s.session.pump, .ready) := by rw [state, h.first]
  -- the deeds fall apart at the one that is the step
  obtain ⟨deed, hmem, hdeed⟩ := List.countP_pos_iff.mp (h.once.symm ▸ Nat.one_pos)
  obtain ⟨reopening, rfl⟩ : ∃ reopening, deed = .step reopening := by
    cases deed with
    | step reopening => exact ⟨reopening, rfl⟩
    | _ => cases hdeed
  obtain ⟨early, late, rfl⟩ := List.append_of_mem hmem
  obtain ⟨mid, hearly, hrest⟩ := h.run.split
  obtain ⟨next, hstep, hlate⟩ := hrest.uncons
  have hcount : early.countP Deed.isStep + (late.countP Deed.isStep + 1) = 1 := by
    have hcount := h.once
    rwa [List.countP_append, List.countP_cons, hdeed] at hcount
  obtain ⟨hmid, hhanded, hopened⟩ := hearly.of_ready hs hready (by omega)
  have hsound := hearly.sound hs
  have hstepped :
      Pump.After s.session.pump [] (Deed.step reopening).reopened?.toList next.state := by
    have hmoves := hstep.moves hsound
    rw [hmid] at hmoves
    generalize next.state = after at hmoves
    cases hmoves with
    | aside ha => cases ha
    | step hstepped => exact hstepped.after
  have hrecords : handedOver (early ++ .step reopening :: late) = [] ++ handedOver late := by
    rw [handedOver, filterMap_split]
    exact congrArg (· ++ handedOver late) hhanded
  have hopenings : reopenings (early ++ .step reopening :: late)
      = (Deed.step reopening).reopened?.toList ++ reopenings late := by
    rw [reopenings, filterMap_split]
    exact congrArg (· ++ ((Deed.step reopening).reopened?.toList ++ reopenings late)) hopened
  have hafter := hlate.after (hstep.sound hsound) hstepped (by omega)
  rw [← hrecords, ← hopenings] at hafter
  generalize handedOver (early ++ .step reopening :: late) = records at hafter
  generalize reopenings (early ++ .step reopening :: late) = openings at hafter
  generalize hlast : t.state = final at hafter
  have hphase : t.session.phase = final.2 := congrArg Prod.snd hlast
  have hpump : t.session.pump = final.1 := congrArg Prod.fst hlast
  rw [h.last] at hphase
  rw [hpump]
  cases hafter with
  | onItsWay _ ho =>
    cases hphase
    cases ho
  | turned ht => exact .inl ⟨_, _, _, ht, rfl, rfl, rfl⟩
  | renewed hselect => exact .inr ⟨_, _, hselect, rfl, rfl, rfl⟩
  | last hready _ => exact absurd hphase.symm hready

end Exchange

end TrafficReplay
