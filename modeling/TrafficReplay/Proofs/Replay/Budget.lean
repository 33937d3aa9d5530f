/-
# Replays that come to an end

Each record that a source gives uses up bytes of its stream, so what a source can still give is
bounded by what it has ahead (`Source.budget`). A replay that does not loop opens no source anew,
and each record that is read lowers what all sources can give (`Bounded.handOver`); so it comes to
an end after a number of reads that is known beforehand (`Session.Underway.read_bounded`).
-/
import TrafficReplay.Proofs.Replay.Counting

namespace TrafficReplay

namespace Source

/-- The most records that the source can give: the one in hand, and one for each thing that is left
of its stream. -/
def budget (source : Source) : Nat :=
  source.stream.elim 0 Delivery.remaining + source.lookahead.toList.length

variable {source taken : Source} {record : Record}

theorem budget_close (source : Source) : source.close.budget = 0 := rfl

theorem budget_of_take (h : source.take = (some record, taken)) :
    taken.budget + 1 = source.budget := by
  obtain ⟨path, stream, lookahead⟩ := source
  cases h
  rfl

theorem budget_le (source : Source) :
    source.budget ≤ source.stream.elim 0 Delivery.remaining + 1 := by
  rw [budget]
  cases source.lookahead with
  | none => simp
  | some record => simp

theorem budget_advance_le (source : Source) :
    source.advance.value.2.budget ≤ source.stream.elim 0 Delivery.remaining := by
  obtain ⟨path, stream, lookahead⟩ := source
  cases stream with
  | none => exact Nat.le_refl 0
  | some deliveries =>
    rcases hr : Framing.readRecord deliveries with ⟨reading, rest⟩
    cases reading with
    | ended discarded =>
      rw [advance_of_ended hr]
      exact Nat.zero_le _
    | fault fault =>
      rw [advance_of_fault hr]
      exact Nat.zero_le _
    | record raw =>
      rw [advance_of_record hr]
      exact Framing.remaining_readRecord hr (fun _ h => nomatch h)

end Source

def Pump.budget (pump : Pump) : Nat :=
  (pump.sources.map Source.budget).sum

def Phase.due : Phase → Nat
  | .waiting _ | .holding _ => 1
  | .ready | .failing _ | .ended _ => 0

/-- The pump does not loop, and no more than so many records are left for the reader. -/
structure Bounded (most : Nat) (state : Pump × Phase) : Prop where
  looping : state.1.looping = false
  budget : state.1.budget + state.2.due ≤ most

theorem due_phaseOf (offer : Offer) : (Pump.phaseOf offer).due = 1 := by
  rw [Pump.phaseOf]
  cases offer.wait with
  | none => rfl
  | some wait => rfl

theorem sum_budget_set {sources : List Source} {source : Source} {i : Nat}
    (h : sources[i]? = some source) (other : Source) :
    ((sources.set i other).map Source.budget).sum + source.budget
      = (sources.map Source.budget).sum + other.budget := by
  induction sources generalizing i with
  | nil => cases h
  | cons first sources ih =>
    cases i with
    | zero =>
      cases h
      rw [List.set_cons_zero, List.map_cons, List.map_cons, List.sum_cons, List.sum_cons]
      omega
    | succ i =>
      rw [List.set_cons_succ, List.map_cons, List.map_cons, List.sum_cons, List.sum_cons]
      have := @ih i h
      omega

theorem budget_closeAll (pump : Pump) : pump.closeAll.budget = 0 := by
  rw [Pump.budget, Pump.closeAll, List.map_map]
  exact List.sum_eq_zero fun n hn => by
    obtain ⟨source, -, rfl⟩ := List.mem_map.mp hn
    exact source.budget_close

namespace Bounded

variable {most : Nat} {pump : Pump} {tree : FileTree}

theorem stepped {reopening : Option (Except ReplayError (List Source))} {next : Pump × Phase}
    (h : Bounded most (pump, .ready)) (hs : Pump.Stepped tree pump reopening next) :
    Bounded most next := by
  have hbudget : pump.budget ≤ most := h.budget
  cases hs with
  | @offered i source taken record _ hget ht =>
    refine ⟨h.looping, ?_⟩
    have hset := sum_budget_set hget taken
    have htake := Source.budget_of_take ht
    rw [due_phaseOf]
    simp only [Pump.budget, Pump.afterTake] at hbudget ⊢
    omega
  | exhausted _ _ =>
    refine ⟨h.looping, ?_⟩
    rw [budget_closeAll]
    exact Nat.zero_le _
  | lost _ hl _ => exact absurd (hl.symm.trans h.looping) (by decide)
  | renewed _ hl _ _ => exact absurd (hl.symm.trans h.looping) (by decide)
  | fruitless _ hl _ _ => exact absurd (hl.symm.trans h.looping) (by decide)

theorem settle {state : Pump × Phase} (h : Bounded most state) (tree : FileTree) :
    Bounded most (Session.settle tree state).value := by
  refine @Session.settling (fun _ => tree)
    (fun state => Bounded most state → Bounded most (Session.rest (fun _ => tree) state)) ?_ ?_
    state h
  · intro pump phase hphase h
    rw [Session.rest_of_ne_ready hphase]
    refine ⟨h.looping, ?_⟩
    have hbudget := h.budget
    cases phase with
    | ready => exact absurd rfl hphase
    | waiting offer => exact hbudget
    | holding offer => exact hbudget
    | failing error => exact hbudget
    | ended reason => exact hbudget
  · intro pump reopening next hstepped ih h
    rw [Session.rest_of_stepped hstepped]
    exact ih (h.stepped hstepped)

theorem handOver {offer : Offer} (h : Bounded (most + 1) (pump, .holding offer)) :
    Bounded most (pump.handOver offer).value := by
  have hbudget : pump.budget + 1 ≤ most + 1 := h.budget
  unfold Pump.handOver
  dsimp only
  cases hs : pump.sources[offer.index]? with
  | none => exact ⟨h.looping, Nat.le_of_succ_le_succ hbudget⟩
  | some source =>
    have hset := sum_budget_set hs source.advance.value.2
    have hadvance := source.budget_advance_le
    have hsource : source.stream.elim 0 Delivery.remaining ≤ source.budget := Nat.le_add_right _ _
    have hnext : ((pump.sources.set offer.index source.advance.value.2).map Source.budget).sum + 0
        ≤ most := by
      rw [Pump.budget] at hbudget
      omega
    simp only [Logged.value_bind]
    rcases ha : source.advance.value with ⟨result, next⟩
    rw [ha] at hnext
    cases result with
    | ok u => exact ⟨h.looping, hnext⟩
    | error e => exact ⟨h.looping, hnext⟩

end Bounded

/-- **Each record that is read leaves fewer to be read.** -/
theorem Session.Underway.read_bounded {session next : Session} {n most : Nat} {record : Record}
    {tree : FileTree} (h : session.Underway n) (hb : Bounded most (session.pump, session.phase))
    (hread : (session.read tree).value = (.ok (some record), next)) :
    ∃ fewer, most = fewer + 1 ∧ Bounded fewer (next.pump, next.phase) := by
  obtain ⟨pump, phase, collected⟩ := session
  cases phase with
  | ready => exact absurd h.resting Bool.false_ne_true
  | waiting offer => exact absurd h.resting Bool.false_ne_true
  | failing error => cases hread
  | ended reason => cases hread
  | holding offer =>
    have hbudget : pump.budget + 1 ≤ most := hb.budget
    obtain ⟨fewer, rfl⟩ : ∃ fewer, most = fewer + 1 := ⟨most - 1, by omega⟩
    refine ⟨fewer, rfl, ?_⟩
    cases hread
    exact hb.handOver.settle tree

end TrafficReplay
