/-
# Who goes next

The rule of the merge, stated without the scan that finds the winner. Both notions speak of what is
in hand at each place, a function from places to records: `Earliest` is the first of the oldest,
`Wins` is the first response or, where there is none, the first of the oldest. `Merge.select`
answers with the place that wins (`wins_of_select`), and with none only if no hand holds a record
(`inHand_of_select_none`).
-/
import Mathlib
import TrafficReplay.Merge

namespace TrafficReplay.Merge

/-- What is in hand at place `i` comes at the earliest time of all, and at a later one nowhere in
front of it. -/
structure Earliest {α : Type} (time : α → Int) (inHand : Nat → Option α) (i : Nat) (item : α) :
    Prop where
  here : inHand i = some item
  le : ∀ {j other}, inHand j = some other → time item ≤ time other
  lt : ∀ {j other}, j < i → inHand j = some other → time item < time other

/-- The record in hand at place `i` goes next. -/
inductive Wins (inHand : Nat → Option Record) (i : Nat) (record : Record) : Prop
  | response : inHand i = some record → record.kind = .response →
      (∀ j other, j < i → inHand j = some other → other.kind ≠ .response) → Wins inHand i record
  | oldest : (∀ j other, inHand j = some other → other.kind ≠ .response) →
      Earliest Record.timestamp inHand i record → Wins inHand i record

theorem Wins.here {inHand : Nat → Option Record} {i : Nat} {record : Record}
    (h : Wins inHand i record) :
    inHand i = some record := by
  cases h with
  | response here _ _ => exact here
  | oldest _ he => exact he.here

/-- Where a record other than a response wins, no response is in hand, and nothing older. -/
theorem Wins.le {inHand : Nat → Option Record} {i : Nat} {record : Record}
    (h : Wins inHand i record)
    (hk : record.kind ≠ .response) {j : Nat} {other : Record} (hj : inHand j = some other) :
    other.kind ≠ .response ∧ record.timestamp ≤ other.timestamp := by
  cases h with
  | response _ hr _ => exact absurd hr hk
  | oldest hn he => exact ⟨hn j other hj, he.le hj⟩

def inHand (sources : List Source) (i : Nat) : Option Record :=
  sources[i]?.bind Source.lookahead

/-! ## The scan -/

section Scan

variable {hand : Nat → Option Record}

/-- No response is in hand at the first `n` places. -/
def NoResponse (hand : Nat → Option Record) (n : Nat) : Prop :=
  ∀ j other, j < n → hand j = some other → other.kind ≠ .response

/-- The candidate is the first of the oldest at the first `n` places. -/
structure Leads (hand : Nat → Option Record) (n : Nat) (best : Candidate) : Prop where
  before : best.index < n
  here : ∃ record, hand best.index = some record ∧ record.timestamp = best.timestamp
  le : ∀ j other, j < n → hand j = some other → best.timestamp ≤ other.timestamp
  lt : ∀ j other, j < best.index → hand j = some other → best.timestamp < other.timestamp

def Passed (hand : Nat → Option Record) (n : Nat) : Option Candidate → Prop
  | none => ∀ j, j < n → hand j = none
  | some best => Leads hand n best

theorem NoResponse.succ {n : Nat} (h : NoResponse hand n)
    (hn : ∀ other, hand n = some other → other.kind ≠ .response) : NoResponse hand (n + 1) := by
  intro j other hj ho
  rcases Nat.lt_succ_iff_lt_or_eq.mp hj with hlt | rfl
  · exact h j other hlt ho
  · exact hn other ho

theorem Passed.skip {n : Nat} {best : Option Candidate} (h : Passed hand n best)
    (hn : hand n = none) :
    Passed hand (n + 1) best := by
  cases best with
  | none =>
    intro j hj
    rcases Nat.lt_succ_iff_lt_or_eq.mp hj with hlt | rfl
    · exact h j hlt
    · exact hn
  | some best =>
    have hb : Leads hand n best := h
    refine ⟨Nat.lt_succ_of_lt hb.before, hb.here, ?_, hb.lt⟩
    intro j other hj ho
    rcases Nat.lt_succ_iff_lt_or_eq.mp hj with hlt | rfl
    · exact hb.le j other hlt ho
    · rw [hn] at ho
      cases ho

theorem Passed.meet {n : Nat} {best : Option Candidate} {record : Record} (h : Passed hand n best)
    (hn : hand n = some record) :
    Passed hand (n + 1) (some (older best ⟨n, record.timestamp⟩)) := by
  cases best with
  | none =>
    refine ⟨Nat.lt_succ_self n, ⟨record, hn, rfl⟩, ?_, ?_⟩
    · intro j other hj ho
      rcases Nat.lt_succ_iff_lt_or_eq.mp hj with hlt | rfl
      · rw [h j hlt] at ho
        cases ho
      · rw [hn] at ho
        cases ho
        exact Int.le_refl _
    · intro j other hj ho
      rw [h j hj] at ho
      cases ho
  | some best =>
    have hb : Leads hand n best := h
    by_cases hle : best.timestamp ≤ record.timestamp
    · have hold : older (some best) ⟨n, record.timestamp⟩ = best := if_pos hle
      rw [hold]
      refine ⟨Nat.lt_succ_of_lt hb.before, hb.here, ?_, hb.lt⟩
      intro j other hj ho
      rcases Nat.lt_succ_iff_lt_or_eq.mp hj with hlt | rfl
      · exact hb.le j other hlt ho
      · rw [hn] at ho
        cases ho
        exact hle
    · have hnew : older (some best) ⟨n, record.timestamp⟩ = ⟨n, record.timestamp⟩ := if_neg hle
      have hlt : record.timestamp < best.timestamp := Int.not_le.mp hle
      rw [hnew]
      refine ⟨Nat.lt_succ_self n, ⟨record, hn, rfl⟩, ?_, ?_⟩
      · intro j other hj ho
        rcases Nat.lt_succ_iff_lt_or_eq.mp hj with hj | rfl
        · exact Int.le_of_lt (Int.lt_of_lt_of_le hlt (hb.le j other hj ho))
        · rw [hn] at ho
          cases ho
          exact Int.le_refl _
      · intro j other hj ho
        exact Int.lt_of_lt_of_le hlt (hb.le j other hj ho)

theorem selectFrom_spec {sources : List Source} {n : Nat} {best : Option Candidate}
    (hrest : ∀ k, hand (n + k) = inHand sources k) (hresp : NoResponse hand n)
    (hbest : Passed hand n best) :
    match selectFrom best n sources with
    | none => ∀ j, hand j = none
    | some i => ∃ record, Wins hand i record := by
  induction sources generalizing n best with
  | nil =>
    have hnone : ∀ j, n ≤ j → hand j = none := by
      intro j hj
      have hk := hrest (j - n)
      rwa [Nat.add_sub_cancel' hj] at hk
    cases best with
    | none =>
      intro j
      rcases Nat.lt_or_ge j n with hj | hj
      · exact hbest j hj
      · exact hnone j hj
    | some best =>
      have hb : Leads hand n best := hbest
      obtain ⟨record, hhere, htime⟩ := hb.here
      have hbefore : ∀ {j other}, hand j = some other → j < n := by
        intro j other ho
        rcases Nat.lt_or_ge j n with hj | hj
        · exact hj
        · rw [hnone j hj] at ho
          cases ho
      refine ⟨record, .oldest (fun j other ho => hresp j other (hbefore ho) ho) ⟨hhere, ?_, ?_⟩⟩
      · intro j other ho
        rw [htime]
        exact hb.le j other (hbefore ho) ho
      · intro j other hj ho
        rw [htime]
        exact hb.lt j other hj ho
  | cons source sources ih =>
    have hn : hand n = source.lookahead := hrest 0
    have htail : ∀ k, hand (n + 1 + k) = inHand sources k := by
      intro k
      rw [Nat.add_right_comm]
      exact hrest (k + 1)
    rw [selectFrom]
    cases hl : source.lookahead with
    | none =>
      rw [hl] at hn
      exact ih htail (hresp.succ fun other ho => by rw [hn] at ho; cases ho) (hbest.skip hn)
    | some record =>
      rw [hl] at hn
      by_cases hk : record.kind = .response
      · simp only [hk, if_true]
        exact ⟨record, .response hn hk hresp⟩
      · simp only [hk, if_false]
        refine ih htail (hresp.succ fun other ho => ?_) (hbest.meet hn)
        rw [hn] at ho
        cases ho
        exact hk

end Scan

/-! ## What the selection answers -/

theorem select_spec (sources : List Source) :
    match select sources with
    | none => ∀ j, inHand sources j = none
    | some i => ∃ record, Wins (inHand sources) i record :=
  selectFrom_spec (fun k => by rw [Nat.zero_add]) (fun _ _ h => absurd h (Nat.not_lt_zero _))
    (fun _ h => absurd h (Nat.not_lt_zero _))

theorem inHand_of_select_none {sources : List Source} (h : select sources = none) (j : Nat) :
    inHand sources j = none := by
  have hs := select_spec sources
  rw [h] at hs
  exact hs j

theorem lookahead_of_select_none {sources : List Source} (h : select sources = none) :
    ∀ source ∈ sources, source.lookahead = none := by
  intro source hmem
  obtain ⟨i, hi⟩ := List.getElem?_of_mem hmem
  have hhand := inHand_of_select_none h i
  rw [inHand, hi] at hhand
  exact hhand

theorem wins_of_select {sources : List Source} {i : Nat} (h : select sources = some i) :
    ∃ record, Wins (inHand sources) i record := by
  have hs := select_spec sources
  rw [h] at hs
  exact hs

theorem select_eq_none {sources : List Source}
    (h : ∀ source ∈ sources, source.lookahead = none) : select sources = none := by
  cases hs : select sources with
  | none => rfl
  | some i =>
    obtain ⟨record, hw⟩ := wins_of_select hs
    obtain ⟨source, hsource, hrecord⟩ := Option.bind_eq_some_iff.mp hw.here
    rw [h source (List.mem_of_getElem? hsource)] at hrecord
    cases hrecord

end TrafficReplay.Merge
