/-
# A single reader

How the files are is only of account when captures are opened anew, so what a single reader is told
depends on how they are at each opening (`Session.alone`). By itself the pump goes on until it holds
something or is done (`Session.rest`), which is at most two steps away, and there the reader finds
it (`Session.soloSession_atRest`). What it reads then is what is held there
(`Session.soloNext_of_offer`).
-/
import TrafficReplay.Proofs.Replay.Account

namespace TrafficReplay

namespace Pump

theorem step_of_inHand {pump : Pump} {i : Nat} (h : Merge.select pump.sources = some i) :
    ∃ taken offer, ∀ tree, (pump.step tree).value = (taken, phaseOf offer) := by
  obtain ⟨source, record, left, hget, ht⟩ := exists_take h
  refine ⟨pump.afterTake i record left, pump.offerOf i record, fun tree => ?_⟩
  rw [step_of_select h, Logged.value_pure, take_of_take hget ht]

end Pump

namespace Session

variable {files : Nat → FileTree} {pump : Pump} {phase : Phase} {prepared : Session}
  {next : Pump × Phase}

/-! ## Where the pump comes to rest -/

/-- Where the pump comes to by itself: it holds something, or is done. -/
def rest (files : Nat → FileTree) (state : Pump × Phase) : Pump × Phase :=
  (settle (files state.1.restarts) state).value

theorem settling {P : Pump × Phase → Prop}
    (hrest : ∀ {pump phase}, phase ≠ .ready → P (pump, phase))
    (hstep : ∀ {pump reopening next}, Pump.Stepped (files pump.restarts) pump reopening next →
      P next → P (pump, .ready)) (state : Pump × Phase) : P state := by
  obtain ⟨pump, phase⟩ := state
  by_cases hphase : phase = .ready
  · subst hphase
    obtain ⟨reopening, next, hstepped⟩ : ∃ reopening next,
        Pump.Stepped (files pump.restarts) pump reopening next :=
      ⟨_, _, Pump.stepped _ _⟩
    refine hstep hstepped ?_
    cases hstepped with
    | offered _ _ _ => exact hrest (phaseOf_ne_ready _)
    | exhausted _ _ => exact hrest (fun h => nomatch h)
    | lost _ _ _ => exact hrest (fun h => nomatch h)
    | fruitless _ _ _ _ => exact hrest (fun h => nomatch h)
    | @renewed sources i _ _ _ hs =>
      -- a record is in hand now, so one more step is enough
      obtain ⟨source, record, left, hget, ht⟩ := @Pump.exists_take (pump.renew sources) i hs
      exact hstep (.offered hs hget ht) (hrest (phaseOf_ne_ready _))
  · exact hrest hphase

theorem rest_of_ne_ready (h : phase ≠ .ready) :
    rest files (pump, phase) = (pump, elapse phase) := by
  cases phase with
  | ready => exact absurd rfl h
  | _ => rfl

theorem rest_of_stepped {reopening : Option (Except ReplayError (List Source))}
    (h : Pump.Stepped (files pump.restarts) pump reopening next) :
    rest files (pump, .ready) = rest files next := by
  have hvalue := h.value
  cases h with
  | offered _ _ _ =>
    rw [rest, settle_of_step hvalue (phaseOf_ne_ready _), rest_of_ne_ready (phaseOf_ne_ready _)]
  | exhausted _ _ => exact settle_of_step hvalue (fun h => nomatch h)
  | lost _ _ _ => exact settle_of_step hvalue (fun h => nomatch h)
  | fruitless _ _ _ _ => exact settle_of_step hvalue (fun h => nomatch h)
  | @renewed sources i _ _ _ hs =>
    -- the step behind the renewal takes a record, so it does not look at any file
    obtain ⟨taken, offer, hoffer⟩ := @Pump.step_of_inHand (pump.renew sources) i hs
    rw [rest, rest, settle_of_step (hoffer _) (phaseOf_ne_ready _)]
    simp only [settle, Logged.value_bind, hvalue, hoffer]
    rfl

theorem rest_resting (files : Nat → FileTree) (state : Pump × Phase) :
    (∃ pump offer, rest files state = (pump, .holding offer)) ∨
      (∃ pump error, rest files state = (pump, .failing error)) ∨
      ∃ pump reason, rest files state = (pump, .ended reason) := by
  refine @settling files (fun state => (∃ pump offer, rest files state = (pump, .holding offer)) ∨
      (∃ pump error, rest files state = (pump, .failing error)) ∨
      ∃ pump reason, rest files state = (pump, .ended reason)) ?_ ?_ state
  · intro pump phase hphase
    rw [rest_of_ne_ready hphase]
    cases phase with
    | ready => exact absurd rfl hphase
    | waiting offer => exact .inl ⟨pump, offer, rfl⟩
    | holding offer => exact .inl ⟨pump, offer, rfl⟩
    | failing error => exact .inr (.inl ⟨pump, error, rfl⟩)
    | ended reason => exact .inr (.inr ⟨pump, reason, rfl⟩)
  · intro pump reopening next hstepped ih
    rw [rest_of_stepped hstepped]
    exact ih

/-! ## A single reader -/

/-- So many reads, one after the other: the results, and the session behind them. Whenever captures
are opened anew, the files are as they are for that opening. -/
def alone (files : Nat → FileTree) (session : Session) : Nat → List ReadResult × Session
  | 0 => ([], session)
  | n + 1 =>
    let (results, last) := alone files session n
    let (result, next) := (last.read (files last.pump.restarts)).value
    (results ++ [result], next)

def atRest (files : Nat → FileTree) (prepared : Session) : Session :=
  (prepared.proceed (files prepared.pump.restarts)).value

def soloReads (files : Nat → FileTree) (prepared : Session) (n : Nat) : List ReadResult :=
  ((prepared.atRest files).alone files n).1

def soloSession (files : Nat → FileTree) (prepared : Session) (n : Nat) : Session :=
  ((prepared.atRest files).alone files n).2

def soloNext (files : Nat → FileTree) (prepared : Session) (n : Nat) : ReadResult × Session :=
  let last := prepared.soloSession files n
  (last.read (files last.pump.restarts)).value

theorem soloReads_succ (files : Nat → FileTree) (prepared : Session) (n : Nat) :
    prepared.soloReads files (n + 1)
      = prepared.soloReads files n ++ [(prepared.soloNext files n).1] := rfl

theorem soloSession_succ (files : Nat → FileTree) (prepared : Session) (n : Nat) :
    prepared.soloSession files (n + 1) = (prepared.soloNext files n).2 := rfl

theorem soloNext_of_offer {n : Nat} {offer : Offer} (ho : phase.offer? = some offer)
    (h : prepared.soloSession files n = prepared.moved (rest files (pump, phase))) :
    prepared.soloNext files n
      = (.ok (some offer.record), prepared.moved (rest files (pump.handOver offer).value)) := by
  have hheld : rest files (pump, phase) = (pump, .holding offer) := by
    cases phase with
    | waiting offer => cases ho; rfl
    | holding offer => cases ho; rfl
    | ready => cases ho
    | failing error => cases ho
    | ended reason => cases ho
  obtain ⟨sources, phase', hvalue, -⟩ := Pump.handOver_kept pump offer
  have hread : ((prepared.moved (pump, .holding offer)).read (files pump.restarts)).value
      = (.ok (some offer.record),
        prepared.moved (settle (files pump.restarts) (pump.handOver offer).value).value) := rfl
  have hrest : rest files (pump.handOver offer).value
      = (settle (files pump.restarts) (pump.handOver offer).value).value := by
    rw [rest, hvalue]
  rw [soloNext, h, hheld, hrest]
  exact hread

theorem soloNext_of_failing {n : Nat} {error : ReplayError}
    (h : prepared.soloSession files n = prepared.moved (rest files (pump, .failing error))) :
    prepared.soloNext files n
      = (.error error, prepared.moved (pump.closeAll, .ended (.failed error.message))) := by
  rw [soloNext, h]
  rfl

theorem soloNext_of_ended {n : Nat} {reason : StopReason}
    (h : prepared.soloSession files n = prepared.moved (rest files (pump, .ended reason))) :
    prepared.soloNext files n = (.ok none, prepared.soloSession files n) := by
  rw [soloNext, h]
  rfl

theorem soloSession_atRest (files : Nat → FileTree) (prepared : Session) (n : Nat) :
    ∃ state, prepared.soloSession files n = prepared.moved (rest files state) := by
  induction n with
  | zero => exact ⟨(prepared.pump, prepared.phase), rfl⟩
  | succ n ih =>
    obtain ⟨state, hstate⟩ := ih
    rw [soloSession_succ]
    rcases rest_resting files state with
      ⟨pump, offer, hrest⟩ | ⟨pump, error, hrest⟩ | ⟨pump, reason, hrest⟩
    · rw [hrest] at hstate
      have hoffer : (Phase.holding offer).offer? = some offer := rfl
      rw [soloNext_of_offer hoffer hstate]
      exact ⟨_, rfl⟩
    · rw [hrest] at hstate
      rw [soloNext_of_failing hstate]
      exact ⟨(pump.closeAll, .ended (.failed error.message)), rfl⟩
    · rw [hrest] at hstate
      rw [soloNext_of_ended hstate]
      exact ⟨(pump, .ended reason), hstate⟩

theorem length_soloReads (files : Nat → FileTree) (prepared : Session) (n : Nat) :
    (prepared.soloReads files n).length = n := by
  induction n with
  | zero => rfl
  | succ n ih => rw [soloReads_succ, List.length_append, ih, List.length_singleton]

end Session

end TrafficReplay
