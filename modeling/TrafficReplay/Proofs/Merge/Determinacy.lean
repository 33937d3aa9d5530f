/-
# The merge of given queues

The rule of the merge leaves no choice: at most one of the places wins, and of queues that are not
all empty one does. So any queues of records have exactly one merge (`exists_drained`,
`Drained.unique`). None of this speaks of sources, and so it holds of records that a replay never
gets to.
-/
import TrafficReplay.Proofs.Merge.Draining

namespace TrafficReplay.Merge

section Hands

variable {hand : Nat → Option Record} {i j : Nat} {record other : Record}

theorem Earliest.not_lt {α : Type} {time : α → Int} {hand : Nat → Option α} {first second : α}
    (h : Earliest time hand i first) (h' : Earliest time hand j second) : ¬ i < j := by
  intro hlt
  exact Int.not_lt.mpr (h.le h'.here) (h'.lt hlt h.here)

theorem Wins.not_lt (h : Wins hand i record) (h' : Wins hand j other) : ¬ i < j := by
  intro hlt
  cases h with
  | response here hk _ =>
    cases h' with
    | response _ _ hbefore => exact hbefore i record hlt here hk
    | oldest hn _ => exact hn i record here hk
  | oldest hn he =>
    cases h' with
    | response here hk _ => exact hn j other here hk
    | oldest _ he' => exact he.not_lt he' hlt

theorem Wins.unique (h : Wins hand i record) (h' : Wins hand j other) : i = j ∧ record = other := by
  have hij : i = j := Nat.le_antisymm (Nat.not_lt.mp (h'.not_lt h)) (Nat.not_lt.mp (h.not_lt h'))
  subst hij
  exact ⟨rfl, Option.some.inj (h.here.symm.trans h'.here)⟩

end Hands

theorem select_of_wins {sources : List Source} {i : Nat} {record : Record}
    (h : Wins (inHand sources) i record) : select sources = some i := by
  cases hs : select sources with
  | none =>
    have hnone := inHand_of_select_none hs i
    rw [h.here] at hnone
    cases hnone
  | some j =>
    obtain ⟨other, hw⟩ := wins_of_select hs
    obtain ⟨rfl, -⟩ := h.unique hw
    rfl

section Queues

variable {queues : List (List Record)}

/-- Closed sources with the first records of the queues in hand; the selection is asked about these
where there are only queues. -/
def fronts (queues : List (List Record)) : List Source :=
  queues.map fun queue => ⟨"", none, queue.head?⟩

theorem inHand_fronts (queues : List (List Record)) : inHand (fronts queues) = heads queues := by
  funext i
  rw [inHand, fronts, List.getElem?_map, heads]
  cases queues[i]? with
  | none => rfl
  | some queue => rfl

theorem wins_heads_of_select {i : Nat} {record : Record} {rest : List Record}
    (h : select (fronts queues) = some i) (hq : queues[i]? = some (record :: rest)) :
    Wins (heads queues) i record := by
  obtain ⟨other, hw⟩ := wins_of_select h
  rw [inHand_fronts] at hw
  have hhere := hw.here
  rw [heads, hq] at hhere
  cases hhere
  exact hw

/-- **Any queues have a merge.** -/
theorem exists_drained (queues : List (List Record)) : ∃ items, Drained Wins queues items := by
  cases hs : select (fronts queues) with
  | none =>
    refine ⟨[], .done fun i => ?_⟩
    rw [← inHand_fronts]
    exact inHand_of_select_none hs i
  | some i =>
    obtain ⟨record, hw⟩ := wins_of_select hs
    rw [inHand_fronts] at hw
    obtain ⟨queue, hq, hhead⟩ := Option.bind_eq_some_iff.mp hw.here
    obtain ⟨rest, rfl⟩ := List.head?_eq_some_iff.mp hhead
    obtain ⟨items, hd⟩ := exists_drained (queues.set i rest)
    exact ⟨(i, record) :: items, .next hw hq hd⟩
termination_by (queues.map List.length).sum
decreasing_by
  have hless := sum_length_set hq
  omega

/-- **They have only one.** -/
theorem Drained.unique {items others : List (Nat × Record)} (h : Drained Wins queues items)
    (h' : Drained Wins queues others) : others = items := by
  induction h generalizing others with
  | done hnone =>
    cases h' with
    | done _ => rfl
    | next hw _ _ =>
      have hhere := hw.here
      rw [hnone] at hhere
      cases hhere
  | next hw hq _ ih =>
    cases h' with
    | done hnone =>
      have hhere := hw.here
      rw [hnone] at hhere
      cases hhere
    | next hw' hq' hd' =>
      obtain ⟨rfl, rfl⟩ := hw.unique hw'
      rw [hq] at hq'
      cases hq'
      rw [ih hd']

end Queues

end TrafficReplay.Merge
