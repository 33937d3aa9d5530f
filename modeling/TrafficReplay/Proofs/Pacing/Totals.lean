/-
# How long a replay waits in all

At normal speed a wait is the captured gap, as long as floating point holds the gap exactly
(`Pacing.quotient_one`). So the waits in front of some records add up to the captured time in front
of those of them that are requests (`Pacing.capturedTime`), and as neighbouring gaps meet, that time
lies between the first record and the last one.
-/
import TrafficReplay.Proofs.Pacing.Answers

namespace TrafficReplay.Pacing

/-- A record as far as waits are concerned: its kind and its time. -/
abbrev Moment := Kind × Int

def asking (moments : List Moment) : List Call :=
  moments.map fun moment => .ask moment.1 moment.2

def total (waits : List (Option Nat)) : Nat :=
  (waits.map fun wait => wait.getD 0).sum

/-- The nanoseconds from one record to the next if that is a request; steps backwards do not count.
-/
def capturedBetween (before now : Moment) : Nat :=
  if now.1 = .request then (now.2 - before.2).toNat else 0

/-- The captured time in front of all requests but the first record. -/
def capturedTime (moments : List Moment) : Nat :=
  ((moments.zip moments.tail).map fun (before, now) => capturedBetween before now).sum

/-- The greatest gap that floating point is sure to hold exactly. -/
def exactGap : Int := 2 ^ 53

theorem quotient_one {before now : Int} (h : now - before ≤ exactGap) :
    quotient 1.0 before now = (now - before).toNat := by
  have hgap : now - before ≤ 2 ^ 53 := h
  have hmin : min (now - before) Decimal.maxTimestamp = now - before := by
    rw [Decimal.maxTimestamp]
    omega
  rw [quotient, Binary64.div_one, hmin]
  exact Binary64.toNat_toUInt64_toFloat (by omega)

theorem getD_wait?_one {before : Int} {now : Moment} (h : now.2 - before ≤ exactGap) (kind : Kind) :
    ((Pacing.mk 1.0 (some before)).wait? now.1 now.2).getD 0
      = capturedBetween (kind, before) now := by
  rw [capturedBetween]
  cases hwait : (Pacing.mk 1.0 (some before)).wait? now.1 now.2 with
  | some wait =>
    obtain ⟨hkind, time, hlast, -, hquotient, -⟩ := wait?_eq_some_iff.mp hwait
    cases hlast
    rw [if_pos hkind, hquotient, quotient_one h]
    rfl
  | none =>
    split
    · rename_i hkind
      -- no wait: not even a nanosecond lies between the two
      by_contra hne
      have hpos : (now.2 - before).toNat ≠ 0 := fun hzero => hne hzero.symm
      have hsome :
          (Pacing.mk 1.0 (some before)).wait? now.1 now.2 = some (quotient 1.0 before now.2) :=
        wait?_eq_some_iff.mpr
          ⟨hkind, before, rfl, by omega, rfl, by rw [quotient_one h]; exact hpos⟩
      rw [hwait] at hsome
      cases hsome
    · rfl

theorem total_answers_one {before : Moment} {moments : List Moment}
    (h : (before :: moments).IsChain fun before now => now.2 - before.2 ≤ exactGap) :
    total ((Pacing.mk 1.0 (some before.2)).answers (asking moments))
      = capturedTime (before :: moments) := by
  induction moments generalizing before with
  | nil => rfl
  | cons now moments ih =>
    obtain ⟨hgap, hrest⟩ := List.isChain_cons_cons.mp h
    -- behind the first wait, the time of that record is the one that is remembered
    exact congrArg₂ (· + ·) (getD_wait?_one hgap before.1) (ih hrest)

/-- The gaps of records in order lie between the first and the last of them, and fill that time if
all behind the first are requests. -/
theorem capturedTime_le {before last : Moment} {moments : List Moment}
    (hlast : (before :: moments).getLast? = some last)
    (h : (before :: moments).IsChain fun before now => before.2 ≤ now.2) :
    (capturedTime (before :: moments) : Int) ≤ last.2 - before.2 ∧
      ((∀ moment ∈ moments, moment.1 = .request) →
        (capturedTime (before :: moments) : Int) = last.2 - before.2) := by
  induction moments generalizing before with
  | nil =>
    cases hlast
    exact ⟨by simp [capturedTime], fun _ => by simp [capturedTime]⟩
  | cons now moments ih =>
    obtain ⟨hle, hrest⟩ := List.isChain_cons_cons.mp h
    rw [List.getLast?_cons_cons] at hlast
    obtain ⟨hmost, hall⟩ := ih hlast hrest
    have hsum : capturedTime (before :: now :: moments)
        = capturedBetween before now + capturedTime (now :: moments) := rfl
    rw [hsum, capturedBetween]
    constructor
    · split
      · omega
      · omega
    · intro hrequests
      have hothers := hall fun moment hmem => hrequests moment (List.mem_cons_of_mem _ hmem)
      rw [if_pos (hrequests now List.mem_cons_self)]
      omega

/-- **At normal speed the waits add up to the captured time.** As long as no gap is too long for
floating point, all waits together are exactly the time that was captured in front of the requests,
the first record apart. Where the records are in order, that is no more than from the first to the
last, and just that if all behind the first are requests. -/
theorem total_at_normal_speed {moments : List Moment}
    (h : moments.IsChain fun before now => now.2 - before.2 ≤ exactGap) :
    total ((new 1.0).answers (asking moments)) = capturedTime moments ∧
    (moments.Pairwise (fun before now => before.2 ≤ now.2) → ∀ first last,
      moments.head? = some first → moments.getLast? = some last →
      (total ((new 1.0).answers (asking moments)) : Int) ≤ last.2 - first.2 ∧
      ((∀ moment ∈ moments.tail, moment.1 = .request) →
        (total ((new 1.0).answers (asking moments)) : Int) = last.2 - first.2)) := by
  cases moments with
  | nil => exact ⟨rfl, fun _ first last hfirst => nomatch hfirst⟩
  | cons before moments =>
    have htotal : total ((new 1.0).answers (asking (before :: moments)))
        = capturedTime (before :: moments) := by
      rw [← total_answers_one h]
      show ((new 1.0).wait? before.1 before.2).getD 0 + total _ = _
      rw [wait?_new]
      exact Nat.zero_add _
    refine ⟨htotal, fun hsorted first last hfirst hlast => ?_⟩
    cases hfirst
    rw [htotal]
    exact capturedTime_le hlast hsorted.isChain

/-- Back and forth: the longest gap that is sure to be exact, behind a step backwards. -/
theorem total_at_normal_speed_back_and_forth :
    total ((new 1.0).answers
      (asking [(.response, 5), (.request, 15), (.other 0x33, 12), (.request, 2 ^ 53 + 12)]))
      = 2 ^ 53 + 10 := by
  have htotal := @total_at_normal_speed
    [(.response, 5), (.request, 15), (.other 0x33, 12), (.request, 2 ^ 53 + 12)]
    (by simp [exactGap])
  rw [htotal.1]
  decide

end TrafficReplay.Pacing
