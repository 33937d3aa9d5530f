/-
# Runs in which every offer is taken

In a turn of the merge the pump can make its offer, a read can be called, and the read can have the
record (`Exchange.serve_turn`); so whole rows of turns can be served one after the other
(`Exchange.serve_turns`). A stop that is pending does not prevent that, as long as there is no wait
in front of a record.
-/
import TrafficReplay.Proofs.Replay.Calls
import TrafficReplay.Proofs.Replay.Emission

namespace TrafficReplay.Exchange

def serving (offer : Offer) (n : Nat) : List Deed :=
  match offer.wait with
  | none => [.step none, .call n, .returns n (.ok (some offer.record))]
  | some _ => [.step none, .wake, .call n, .returns n (.ok (some offer.record))]

def servings : List Offer → Nat → List Deed
  | [], _ => []
  | offer :: offers, n => serving offer n ++ servings offers (n + 1)

/-- The exchange when so many calls have come and returned, and the pump is about to go on. -/
def served (s : Exchange) (count : Nat) (pump : Pump) : Exchange :=
  { s with session := s.session.moved (pump, .ready), calls := s.calls + count }

variable {files : Nat → FileTree} {s : Exchange} {pump final : Pump} {offers : List Offer}

theorem handedOver_servings (offers : List Offer) (n : Nat) :
    handedOver (servings offers n) = offers.map Offer.record := by
  induction offers generalizing n with
  | nil => rfl
  | cons offer offers ih =>
    have hone : handedOver (serving offer n) = [offer.record] := by
      rw [serving]
      cases offer.wait with
      | none => rfl
      | some wait => rfl
    rw [servings, handedOver, List.filterMap_append, List.map_cons]
    exact congr (congrArg (· ++ ·) hone) (ih (n + 1))

theorem of_mem_servings {n : Nat} {deed : Deed} (h : deed ∈ servings offers n) :
    deed.reopened? = none ∧ deed.collected? = none := by
  induction offers generalizing n with
  | nil => exact absurd h List.not_mem_nil
  | cons offer offers ih =>
    rcases List.mem_append.mp h with hone | hrest
    · rw [serving] at hone
      cases hw : offer.wait with
      | none =>
        rw [hw] at hone
        simp only [List.mem_cons, List.not_mem_nil, or_false] at hone
        rcases hone with rfl | rfl | rfl
        all_goals exact ⟨rfl, rfl⟩
      | some wait =>
        rw [hw] at hone
        simp only [List.mem_cons, List.not_mem_nil, or_false] at hone
        rcases hone with rfl | rfl | rfl | rfl
        all_goals exact ⟨rfl, rfl⟩
    · exact ih hrest

/-! ## A call to a pump that is at rest -/

section Call

variable {offer : Offer} {error : ReplayError} {reason : StopReason}

theorem call_holding (files : Nat → FileTree) (hs : s.state = (pump, .holding offer))
    (hu : s.standing = .inUse) :
    Run files s [.call s.calls, .returns s.calls (.ok (some offer.record))]
      { s with session := s.session.moved (pump.handOver offer).value, calls := s.calls + 1 } := by
  obtain ⟨rfl, hphase⟩ := Prod.mk.inj hs
  have hreturn := @Step.handOver files
    { s with calls := s.calls + 1, blocked := s.calls :: s.blocked } offer _ hphase
    List.mem_cons_self
  rw [answered, List.erase_cons_head] at hreturn
  exact .cons (.call hu) (.single hreturn)

theorem call_failing (files : Nat → FileTree) (hs : s.state = (pump, .failing error))
    (hu : s.standing = .inUse) :
    Run files s [.call s.calls, .returns s.calls (.error error)]
      { s with session := s.session.moved (pump.fail error).value, calls := s.calls + 1 } := by
  obtain ⟨rfl, hphase⟩ := Prod.mk.inj hs
  have hreturn := @Step.fail files
    { s with calls := s.calls + 1, blocked := s.calls :: s.blocked } error _ hphase
    List.mem_cons_self
  rw [answered, List.erase_cons_head] at hreturn
  exact .cons (.call hu) (.single hreturn)

theorem call_ended (hphase : s.session.phase = .ended reason) (hu : s.standing = .inUse) :
    Run files s [.call s.calls, .returns s.calls (.ok none)] { s with calls := s.calls + 1 } := by
  have hreturn := @Step.finish files
    { s with calls := s.calls + 1, blocked := s.calls :: s.blocked } reason _ hphase
    List.mem_cons_self
  rw [answered, List.erase_cons_head] at hreturn
  exact .cons (.call hu) (.single hreturn)

end Call

/-! ## Turns -/

theorem exists_offer (files : Nat → FileTree) {i : Nat} {record : Record} {after : List Source}
    (ht : Merge.Turn pump.sources i record after) (hs : s.state = (pump, .ready)) :
    ∃ taken, Step files s (.step none) (s.moved (taken, Pump.phaseOf (pump.offerOf i record))) ∧
      (taken.handOver (pump.offerOf i record)).value = (pump.afterTurn record after, .ready) := by
  cases ht with
  | mk hselect hget htake hadvance =>
    exact ⟨_, .ofStepped hs (.offered hselect hget htake), Pump.handOver_of_advance hget hadvance⟩

/-- A call that is blocked already can have the record of a turn that is not waited for. -/
theorem hand_turn {i n : Nat} {record : Record} {after : List Source}
    (ht : Merge.Turn pump.sources i record after) (hs : s.state = (pump, .ready))
    (hn : n ∈ s.blocked) (hw : (pump.offerOf i record).wait = none) :
    Run files s [.step none, .returns n (.ok (some record))]
      ((s.answered n).moved (pump.afterTurn record after, .ready)) := by
  obtain ⟨taken, hoffer, hhand⟩ := exists_offer files ht hs
  rw [Pump.phaseOf, hw] at hoffer
  rw [← hhand]
  have hreturn := @Step.handOver files (s.moved (taken, .holding (pump.offerOf i record)))
    (pump.offerOf i record) n rfl hn
  exact .cons hoffer (.single hreturn)

/-- **A turn can be served.** -/
theorem serve_turn (files : Nat → FileTree) {i : Nat} {record : Record} {after : List Source}
    (ht : Merge.Turn pump.sources i record after) (hs : s.state = (pump, .ready))
    (hu : s.standing = .inUse) (hw : (pump.offerOf i record).wait = none ∨ ¬ s.StopReady) :
    Run files s (serving (pump.offerOf i record) s.calls)
      (s.served 1 (pump.afterTurn record after)) := by
  obtain ⟨taken, hoffer, hhand⟩ := exists_offer files ht hs
  rw [serving, served, ← hhand]
  cases hwait : (pump.offerOf i record).wait with
  | none =>
    rw [Pump.phaseOf, hwait] at hoffer
    exact .cons hoffer (call_holding files rfl hu)
  | some wait =>
    rw [Pump.phaseOf, hwait] at hoffer
    have hready : ¬ s.StopReady :=
      hw.resolve_left fun hnone => Option.some_ne_none wait (hwait.symm.trans hnone)
    exact .cons hoffer (.cons (.wake rfl hready) (call_holding files rfl hu))

/-- **A row of turns can be served.** -/
theorem serve_turns (files : Nat → FileTree) (h : Pump.Turns pump offers final)
    (hs : s.state = (pump, .ready))
    (hu : s.standing = .inUse) (hw : (∀ offer ∈ offers, offer.wait = none) ∨ ¬ s.StopReady) :
    Run files s (servings offers s.calls) (s.served offers.length final) := by
  induction h generalizing s with
  | done =>
    obtain ⟨hpump, hphase⟩ := Prod.mk.inj hs
    subst hpump
    have hsame : s.served 0 s.session.pump = s := by
      rw [served, Session.moved, ← hphase]
      rfl
    rw [List.length_nil, hsame]
    exact .done
  | @turn pump final i record after offers ht _ ih =>
    have hfirst := serve_turn files ht hs hu
      (hw.imp_left fun hall => hall _ List.mem_cons_self)
    have hrest := @ih (s.served 1 (pump.afterTurn record after)) rfl hu
      (hw.imp_left fun hall offer hmem => hall offer (List.mem_cons_of_mem _ hmem))
    have hcount : (s.served 1 (pump.afterTurn record after)).served offers.length final
        = s.served (offers.length + 1) final := by
      simp only [served, Nat.add_assoc, Nat.add_comm 1]
      rfl
    rw [hcount] at hrest
    exact hfirst.append hrest

/-- **A replay of captures that can all be read can be read to its end**, and then nobody has asked
for anything yet. -/
theorem exists_whole_run {tree : FileTree} {pattern : String} {settings : Settings}
    {captures : List Bytes} (hv : settings.validate = .ok ()) (hl : settings.looping = false)
    (hc : Captures tree pattern captures) (files : Nat → FileTree) :
    ∃ prepared items pump count deeds,
      (Session.prepare tree pattern settings).value = .ok prepared ∧
      Merge.Interleaves items (captures.map Record.ofCapture) ∧
      items.length = ((captures.map Record.ofCapture).map List.length).sum ∧
      Run files (begin prepared) deeds
        ⟨⟨pump, .ended .exhausted, false⟩, false, count, [], .inUse⟩ ∧
      handedOver deeds = items.map (·.2) ∧ reopenings deeds = [] ∧ collections deeds = [] := by
  obtain ⟨sources, hs, hopened⟩ := resolveSources_of_captures hc
  obtain ⟨items, hm⟩ := Merge.exists_loop (Merge.holding_of_opened hopened)
  have hdrained := hm.drained_captures hopened
  have hprepared := Session.prepare_of_resolve hv hs
  generalize hpump : Pump.mk _ _ _ _ _ _ = pump at hprepared
  obtain rfl : pump.sources = sources := congrArg Pump.sources hpump.symm
  obtain ⟨final, hturns, hnone⟩ := Pump.turns_of_loop hm
  have hlooping : final.looping = false :=
    hturns.advanced.looping.trans ((congrArg Pump.looping hpump.symm).trans hl)
  have hserved := serve_turns files (s := begin ⟨pump, .ready, false⟩) hturns rfl rfl
    (.inr (by simp [StopReady, begin]))
  have hlast :
      Step files ((begin ⟨pump, .ready, false⟩).served items.length final) (.step none) _ :=
    .ofStepped rfl (.exhausted hnone hlooping)
  have hdeeds : ∀ deed ∈ servings (pump.pacing.offers items) 0 ++ [.step none],
      deed.reopened? = none ∧ deed.collected? = none := by
    intro deed hmem
    rcases List.mem_append.mp hmem with hserving | hlast
    · exact of_mem_servings hserving
    · rw [List.mem_singleton.mp hlast]
      exact ⟨rfl, rfl⟩
  rw [Pacing.length_offers] at hserved
  refine ⟨_, items, _, _, _, hprepared, hdrained.interleaves, hdrained.length,
    hserved.append (.single hlast), ?_, ?_, ?_⟩
  · rw [handedOver_snoc, handedOver_servings, Pacing.map_record_offers]
    exact List.append_nil _
  · exact List.filterMap_eq_nil_iff.mpr fun deed hmem => (hdeeds deed hmem).1
  · exact List.filterMap_eq_nil_iff.mpr fun deed hmem => (hdeeds deed hmem).2

end TrafficReplay.Exchange
