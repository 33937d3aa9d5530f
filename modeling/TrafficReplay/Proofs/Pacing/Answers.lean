/-
# What a pacing answers

A pacing is asked for the wait in front of one record after the other, and when captures are opened
anew it is told to forget the record before (`Pacing.Call`). After a call it remembers the time of
that call or nothing, and nothing of the calls before (`Pacing.answer_snd`). So an answer is
determined by two neighbouring calls (`Pacing.getElem?_answers_succ`), and it is a plain quotient in
floating point: that a speed factor of one is not divided by makes no difference
(`Pacing.atSpeed_eq`). The two together are `Pacing.answers_from_neighbour`.
-/
import TrafficReplay.Proofs.Numbers.Binary64
import TrafficReplay.Proofs.Replay.Round

namespace TrafficReplay.Pacing

/-! ## Waits as quotients -/

/-- The nanoseconds between two times, at most as many as a timestamp can say, divided by the speed
factor in floating point; without the fraction, and within 64 bits. -/
def quotient (speed : Float) (before now : Int) : Nat :=
  ((min (now - before) Decimal.maxTimestamp).toNat.toUInt64.toFloat / speed).toUInt64.toNat

/-- **Speed one is no special case.** -/
theorem atSpeed_eq (speed : Float) (nanoseconds : Nat) :
    atSpeed speed nanoseconds = (nanoseconds.toUInt64.toFloat / speed).toUInt64.toNat := by
  rw [atSpeed]
  cases hone : speed == 1.0 with
  | false => rfl
  | true =>
    rw [Binary64.eq_one_of_beq hone, Binary64.div_one]
    rfl

theorem waitBetween_eq_some_iff {speed : Float} {before now : Int} {wait : Nat} :
    waitBetween speed before now = some wait ↔
      before < now ∧ wait = quotient speed before now ∧ wait ≠ 0 := by
  rw [waitBetween]
  by_cases hle : now ≤ before
  · rw [if_pos hle]
    exact iff_of_false (fun h => nomatch h) fun h => Int.not_lt.mpr hle h.1
  · have hlt : before < now := Int.not_le.mp hle
    have hquotient : atSpeed speed (gap before now) = quotient speed before now := atSpeed_eq _ _
    simp only [if_neg hle, hquotient]
    constructor
    · intro h
      split at h
      · cases h
      · cases h
        exact ⟨hlt, rfl, ‹_›⟩
    · rintro ⟨-, rfl, hne⟩
      rw [if_neg hne]

theorem wait?_eq_some_iff {pacing : Pacing} {kind : Kind} {now : Int} {wait : Nat} :
    pacing.wait? kind now = some wait ↔
      kind = .request ∧ ∃ before, pacing.last = some before ∧ before < now ∧
        wait = quotient pacing.speed before now ∧ wait ≠ 0 := by
  obtain ⟨speed, last⟩ := pacing
  cases kind with
  | request =>
    cases last with
    | none =>
      refine iff_of_false (fun h => nomatch h) ?_
      rintro ⟨-, before, hlast, -⟩
      cases hlast
    | some before =>
      show waitBetween speed before now = some wait ↔ _
      rw [waitBetween_eq_some_iff]
      constructor
      · intro h
        exact ⟨rfl, before, rfl, h⟩
      · rintro ⟨-, other, hlast, h⟩
        cases hlast
        exact h
  | response => exact iff_of_false (fun h => nomatch h) fun h => nomatch h.1
  | other tag => exact iff_of_false (fun h => nomatch h) fun h => nomatch h.1

/-! ## Calls one after the other -/

/-- What a pacing is called for. -/
inductive Call
  /-- The wait in front of a record. -/
  | ask (kind : Kind) (timestamp : Int)
  /-- To forget the record before. -/
  | reset

def Call.remembered : Call → Option Int
  | ask _ timestamp => some timestamp
  | reset => none

/-- The answer to a call, and the pacing after it: asking for a wait is what `Pump.take` does, and
resetting what `Pump.renew` does. -/
def answer (pacing : Pacing) : Call → Option Nat × Pacing
  | .ask kind timestamp => (pacing.wait? kind timestamp, pacing.next timestamp)
  | .reset => (none, pacing.reset)

def answers (pacing : Pacing) : List Call → List (Option Nat)
  | [] => []
  | call :: calls => (pacing.answer call).1 :: (pacing.answer call).2.answers calls

/-- **Nothing is remembered but the last call.** -/
theorem answer_snd (pacing : Pacing) (call : Call) :
    (pacing.answer call).2 = ⟨pacing.speed, call.remembered⟩ := by
  cases call with
  | ask kind timestamp => rfl
  | reset => rfl

theorem getElem?_answers_succ {pacing : Pacing} {calls : List Call} {n : Nat} {before call : Call}
    (hbefore : calls[n]? = some before) (hcall : calls[n + 1]? = some call) :
    (pacing.answers calls)[n + 1]?
      = some ((Pacing.mk pacing.speed before.remembered).answer call).1 := by
  induction n generalizing pacing calls with
  | zero =>
    match calls with
    | first :: second :: calls =>
      cases hbefore
      cases hcall
      rw [answers, answers, answer_snd]
      rfl
  | succ n ih =>
    match calls with
    | first :: calls =>
      have hspeed : (pacing.answer first).2.speed = pacing.speed := by rw [answer_snd]
      rw [answers, List.getElem?_cons_succ, ← hspeed]
      exact ih hbefore hcall

theorem map_wait_offers (pacing : Pacing) (items : List (Nat × Record)) :
    (pacing.offers items).map Offer.wait
      = pacing.answers (items.map fun item => .ask item.2.kind item.2.timestamp) := by
  induction items generalizing pacing with
  | nil => rfl
  | cons item items ih => exact congrArg (pacing.wait? item.2.kind item.2.timestamp :: ·) (ih _)

/-- **Waits depend on the record right before and on nothing earlier.** Wherever a wait is asked for
among calls of any number, there is one just if the record is a request, the call right before asks
for the wait of a record too, that record is older, and the quotient is not zero; it is the quotient
then. Speed one gives what dividing by it would give, and whatever came earlier, in this pacing or
another of that speed, the same two neighbours give the same answer. The waits in a round of the
pump are such answers. -/
theorem answers_from_neighbour {speed : Float} {calls : List Call} {n : Nat} {kind : Kind}
    {now : Int}
    (h : calls[n]? = some (.ask kind now)) :
    (∃ answer, ((new speed).answers calls)[n]? = some answer ∧
      ∀ wait, answer = some wait ↔
        kind = .request ∧ ∃ m kind' before, n = m + 1 ∧ calls[m]? = some (.ask kind' before) ∧
          before < now ∧ wait = quotient speed before now ∧ wait ≠ 0) ∧
    (∀ nanoseconds,
      atSpeed speed nanoseconds = (nanoseconds.toUInt64.toFloat / speed).toUInt64.toNat) ∧
    (∀ m, n = m + 1 → ∀ (pacing : Pacing) others k, pacing.speed = speed →
      others[k]? = calls[m]? → others[k + 1]? = calls[n]? →
      (pacing.answers others)[k + 1]? = ((new speed).answers calls)[n]?) ∧
    (∀ items : List (Nat × Record), ((new speed).offers items).map Offer.wait
      = (new speed).answers (items.map fun item => .ask item.2.kind item.2.timestamp)) := by
  refine ⟨?_, atSpeed_eq speed, ?_, map_wait_offers _⟩
  · cases n with
    | zero =>
      match calls with
      | first :: calls =>
        cases h
        refine ⟨none, congrArg some (wait?_new speed kind now), fun wait => ?_⟩
        refine iff_of_false (fun h => nomatch h) ?_
        rintro ⟨-, m, kind', before, hm, -⟩
        cases hm
    | succ m =>
      obtain ⟨before, hbefore⟩ : ∃ before, calls[m]? = some before := by
        have hlen := (List.getElem?_eq_some_iff.mp h).1
        exact ⟨_, List.getElem?_eq_getElem (Nat.lt_of_succ_lt hlen)⟩
      refine ⟨_, getElem?_answers_succ hbefore h, fun wait => ?_⟩
      show wait? _ kind now = some wait ↔ _
      rw [wait?_eq_some_iff]
      constructor
      · rintro ⟨hkind, time, hlast, hwait⟩
        refine ⟨hkind, m, ?_⟩
        cases before with
        | ask kind' timestamp =>
          cases hlast
          exact ⟨kind', time, rfl, hbefore, hwait⟩
        | reset => cases hlast
      · rintro ⟨hkind, m', kind', time, hm, htime, hwait⟩
        cases hm
        rw [hbefore] at htime
        cases htime
        exact ⟨hkind, time, rfl, hwait⟩
  · rintro m rfl pacing others k rfl hbefore hcall
    have hlen := (List.getElem?_eq_some_iff.mp h).1
    have hm := List.getElem?_eq_getElem (Nat.lt_of_succ_lt hlen)
    rw [getElem?_answers_succ hm h, getElem?_answers_succ (hbefore.trans hm) (hcall.trans h)]
    rfl

/-- A request at twice the speed, behind a response that nobody waited for. -/
theorem answers_from_neighbour_two :
    ((new 2.0).answers
      [.ask .request 5, .reset, .ask .response 100, .ask .request 300])[3]? = some (some 100) := by
  obtain ⟨⟨answer, hanswer, hwait⟩, -⟩ :=
    @answers_from_neighbour 2.0
      [.ask .request 5, .reset, .ask .response 100, .ask .request 300] 3 _ _ rfl
  have hquotient : quotient 2.0 100 300 = 100 := by decide +kernel
  have hsome := (hwait 100).mpr
    ⟨rfl, 2, .response, 100, rfl, rfl, by decide, hquotient.symm, by decide⟩
  rw [hanswer, hsome]

end TrafficReplay.Pacing
