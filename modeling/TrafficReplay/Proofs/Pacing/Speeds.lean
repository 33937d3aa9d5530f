/-
# Speeds compared

At a higher speed no wait is longer, and at one speed no wait in front of a request is longer than
that for a longer gap (`Pacing.faster_waits_no_longer`). Whether there is a wait at all may differ:
it may be cut down to nothing at one speed, and grow up to the greatest number of nanoseconds at the
other. An absent wait counts as zero, so that these are comparisons of numbers
(`Pacing.getD_waitBetween`), and a number of nanoseconds is a quotient that keeps the order
(`Binary64.toNat_div_mono`).
-/
import TrafficReplay.Proofs.Numbers.Quotients
import TrafficReplay.Proofs.Pacing.Answers
import TrafficReplay.Settings

namespace TrafficReplay

theorem Settings.pos_of_validate {settings : Settings} (h : settings.validate = .ok ()) :
    settings.speed.isFinite = true ∧ ¬ settings.speed ≤ 0.0 := by
  rw [validate] at h
  split at h
  · cases h
  · rename_i hsound
    rw [Bool.or_eq_true, not_or, Bool.not_eq_true', Bool.not_eq_false, decide_eq_true_iff] at hsound
    exact hsound

namespace Pacing

variable {slow fast : Settings} {before now before' now' : Int}

theorem getD_waitBetween (speed : Float) (before now : Int) :
    (waitBetween speed before now).getD 0
      = if before < now then quotient speed before now else 0 := by
  cases hwait : waitBetween speed before now with
  | some wait =>
    obtain ⟨hlt, hquotient, -⟩ := waitBetween_eq_some_iff.mp hwait
    rw [if_pos hlt]
    exact hquotient
  | none =>
    split
    · rename_i hlt
      by_contra hne
      have hsome := waitBetween_eq_some_iff.mpr ⟨hlt, rfl, fun hzero => hne hzero.symm⟩
      rw [hwait] at hsome
      cases hsome
    · rfl

theorem quotient_le (hslow : slow.validate = .ok ()) (hfast : fast.validate = .ok ())
    (h : slow.speed ≤ fast.speed) (hgap : now - before ≤ now' - before') :
    quotient fast.speed before now ≤ quotient slow.speed before' now' := by
  obtain ⟨hfinite, hpos⟩ := Settings.pos_of_validate hfast
  obtain ⟨hfinite', hpos'⟩ := Settings.pos_of_validate hslow
  have hmost : (min (now' - before') Decimal.maxTimestamp).toNat < 2 ^ 64 := by
    rw [Decimal.maxTimestamp]
    omega
  have hle : (min (now - before) Decimal.maxTimestamp).toNat
      ≤ (min (now' - before') Decimal.maxTimestamp).toNat :=
    Int.toNat_le_toNat (min_le_min_right _ hgap)
  exact Binary64.toNat_div_mono hmost hle hfinite hpos hfinite' hpos' h

/-- A gap that is no longer, at a speed that is no lower, is not waited for any longer. -/
theorem getD_waitBetween_le (hslow : slow.validate = .ok ()) (hfast : fast.validate = .ok ())
    (h : slow.speed ≤ fast.speed) (hgap : now - before ≤ now' - before') :
    (waitBetween fast.speed before now).getD 0 ≤ (waitBetween slow.speed before' now').getD 0 := by
  rw [getD_waitBetween, getD_waitBetween]
  by_cases hlt : before < now
  · have hlt' : before' < now' := by omega
    rw [if_pos hlt, if_pos hlt']
    exact quotient_le hslow hfast h hgap
  · rw [if_neg hlt]
    exact Nat.zero_le _

theorem getD_wait?_le (hslow : slow.validate = .ok ()) (hfast : fast.validate = .ok ())
    (h : slow.speed ≤ fast.speed) (last : Option Int) (kind : Kind) (now : Int) :
    ((Pacing.mk fast.speed last).wait? kind now).getD 0
      ≤ ((Pacing.mk slow.speed last).wait? kind now).getD 0 := by
  cases last with
  | none =>
    have hnone : (Pacing.mk fast.speed none).wait? kind now = none := wait?_new fast.speed kind now
    rw [hnone]
    exact Nat.zero_le _
  | some before =>
    cases kind with
    | request => exact getD_waitBetween_le hslow hfast h le_rfl
    | response => exact Nat.le_refl _
    | other tag => exact Nat.le_refl _

/-- Both pacings remember the same at any time, so that their answers can be compared one by one. -/
theorem forall₂_answers (hslow : slow.validate = .ok ()) (hfast : fast.validate = .ok ())
    (h : slow.speed ≤ fast.speed) (last : Option Int) (calls : List Call) :
    List.Forall₂ (fun wait longer => wait.getD 0 ≤ longer.getD 0)
      ((Pacing.mk fast.speed last).answers calls) ((Pacing.mk slow.speed last).answers calls) := by
  induction calls generalizing last with
  | nil => exact .nil
  | cons call calls ih =>
    rw [answers, answers, answer_snd, answer_snd]
    refine .cons ?_ (ih call.remembered)
    cases call with
    | ask kind timestamp => exact getD_wait?_le hslow hfast h last kind timestamp
    | reset => exact Nat.le_refl _

theorem le_refl_of_validate (h : slow.validate = .ok ()) : slow.speed ≤ slow.speed := by
  obtain ⟨hfinite, hpos⟩ := Settings.pos_of_validate h
  exact Binary64.le_refl_of_pos hfinite hpos

/-- **Faster never waits longer.** Of two speed factors that are accepted, the higher one gives no
longer wait, whatever is asked for and whenever the record before is forgotten; nor does it in a
round of the pump. At one speed factor, the wait in front of a request is no longer than one for a
longer gap, whatever else is asked for before the two. -/
theorem faster_waits_no_longer (hslow : slow.validate = .ok ()) (hfast : fast.validate = .ok ()) :
    (slow.speed ≤ fast.speed →
      (∀ calls, List.Forall₂ (fun wait longer => wait.getD 0 ≤ longer.getD 0)
        ((new fast.speed).answers calls) ((new slow.speed).answers calls)) ∧
      ∀ items : List (Nat × Record), List.Forall₂ (fun wait longer => wait.getD 0 ≤ longer.getD 0)
        (((new fast.speed).offers items).map Offer.wait)
        (((new slow.speed).offers items).map Offer.wait)) ∧
    ∀ (calls others : List Call) (n k : Nat) kind kind' before before' now now',
      calls[n]? = some (.ask kind before) → calls[n + 1]? = some (.ask .request now) →
      others[k]? = some (.ask kind' before') → others[k + 1]? = some (.ask .request now') →
      now - before ≤ now' - before' →
      ∃ wait longer, ((new slow.speed).answers calls)[n + 1]? = some wait ∧
        ((new slow.speed).answers others)[k + 1]? = some longer ∧ wait.getD 0 ≤ longer.getD 0 := by
  refine ⟨fun h => ⟨?_, ?_⟩, ?_⟩
  · intro calls
    exact forall₂_answers hslow hfast h none calls
  · intro items
    rw [map_wait_offers, map_wait_offers]
    exact forall₂_answers hslow hfast h none _
  · intro calls others n k kind kind' before before' now now' hbefore hnow hbefore' hnow' hgap
    refine ⟨_, _, getElem?_answers_succ hbefore hnow, getElem?_answers_succ hbefore' hnow', ?_⟩
    exact getD_waitBetween_le hslow hslow (le_refl_of_validate hslow) hgap

/-- At normal speed there are two waits; three times as fast, one of them is cut down to nothing. A
gap of four nanoseconds is waited for where one of two is not. -/
theorem faster_waits_no_longer_thrice :
    (let calls : List Call :=
      [.ask .request 5, .ask .request 6, .ask .response 10, .reset, .ask .response 0,
        .ask .request 100]
    (new 3.0).answers calls = [none, none, none, none, none, some 33] ∧
    (new 1.0).answers calls = [none, some 1, none, none, none, some 100] ∧
    List.Forall₂ (fun wait longer => wait.getD 0 ≤ longer.getD 0)
      ((new 3.0).answers calls) ((new 1.0).answers calls)) ∧
    ∃ wait longer, ((new 3.0).answers [.ask .request 5, .ask .request 7])[1]? = some wait ∧
      ((new 3.0).answers [.ask .response (-1), .ask .request 3])[1]? = some longer ∧
      wait.getD 0 ≤ longer.getD 0 := by
  have hnormal : ({ speed := 1.0 } : Settings).validate = .ok () := rfl
  have hthrice : ({ speed := 3.0 } : Settings).validate = .ok () := rfl
  have hle : (1.0 : Float) ≤ 3.0 := by decide +kernel
  obtain ⟨hfaster, -⟩ := faster_waits_no_longer hnormal hthrice
  obtain ⟨-, hlonger⟩ := faster_waits_no_longer hthrice hthrice
  refine ⟨⟨by decide +kernel, by decide +kernel, (hfaster hle).1 _⟩, ?_⟩
  exact hlonger [.ask .request 5, .ask .request 7] [.ask .response (-1), .ask .request 3] 0 0
    .request .response 5 (-1) 7 3 rfl rfl rfl rfl (by decide)

end Pacing

end TrafficReplay
