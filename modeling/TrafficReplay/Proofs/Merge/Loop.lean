/-
# The loop of a merge

`Merge.Loop` is the merge by itself: select a source, take its record, advance it (`Merge.Turn`),
and so on until no source has a record in hand. Over sources that meet no fault it comes to an end
(`exists_loop`), and it drains the records of the sources by the rule of the merge (`Loop.drained`).
What a turn does to these records is `Holding.turn`.
-/
import TrafficReplay.Proofs.Merge.Draining
import TrafficReplay.Proofs.Source.Captures

namespace TrafficReplay

theorem forall₂_getElem? {α β : Type} {R : α → β → Prop} {xs : List α} {ys : List β}
    (h : List.Forall₂ R xs ys) (i : Nat) :
    (xs[i]? = none ∧ ys[i]? = none) ∨ ∃ x y, xs[i]? = some x ∧ ys[i]? = some y ∧ R x y := by
  induction h generalizing i with
  | nil => exact .inl ⟨rfl, rfl⟩
  | @cons x y xs ys hxy _ ih =>
    cases i with
    | zero => exact .inr ⟨x, y, rfl, rfl, hxy⟩
    | succ i => exact ih i

theorem forall₂_set {α β : Type} {R : α → β → Prop} {xs : List α} {ys : List β}
    (h : List.Forall₂ R xs ys)
    {x : α} {y : β} (hxy : R x y) (i : Nat) : List.Forall₂ R (xs.set i x) (ys.set i y) := by
  induction h generalizing i with
  | nil => exact .nil
  | @cons x' y' xs ys hxy' hs ih =>
    cases i with
    | zero => exact .cons hxy hs
    | succ i => exact .cons hxy' (ih i)

namespace Merge

/-- One turn of the merge: the source at `i` is selected and its record taken, and when it has
advanced the sources are those at the end. -/
inductive Turn (sources : List Source) : Nat → Record → List Source → Prop
  | mk {i : Nat} {source taken advanced : Source} {record : Record} : select sources = some i →
      sources[i]? = some source → source.take = (some record, taken) →
      taken.advance.value = (.ok (), advanced) → Turn sources i record (sources.set i advanced)

/-- Turn by turn the merge gives these records, each with the place of its source, until no source
has a record in hand. -/
inductive Loop : List Source → List (Nat × Record) → Prop
  | done {sources : List Source} : select sources = none → Loop sources []
  | next {sources after : List Source} {i : Nat} {record : Record} {items : List (Nat × Record)} :
      Turn sources i record after → Loop after items → Loop sources ((i, record) :: items)

theorem Turn.select {sources after : List Source} {i : Nat} {record : Record}
    (h : Turn sources i record after) :
    select sources = some i := by
  cases h with
  | mk hs _ _ _ => exact hs

theorem Turn.unique {sources after after' : List Source} {i j : Nat} {record other : Record}
    (h : Turn sources i record after) (h' : Turn sources j other after') :
    i = j ∧ record = other ∧ after = after' := by
  obtain ⟨hs, hget, ht, ha⟩ := h
  obtain ⟨hs', hget', ht', ha'⟩ := h'
  rw [hs] at hs'
  cases hs'
  rw [hget] at hget'
  cases hget'
  rw [ht] at ht'
  cases ht'
  rw [ha] at ha'
  cases ha'
  exact ⟨rfl, rfl, rfl⟩

theorem Loop.unique {sources : List Source} {items others : List (Nat × Record)}
    (h : Loop sources items) (h' : Loop sources others) : others = items := by
  induction h generalizing others with
  | done hs =>
    cases h' with
    | done _ => rfl
    | next ht _ =>
      rw [ht.select] at hs
      cases hs
  | next ht _ ih =>
    cases h' with
    | done hs =>
      rw [ht.select] at hs
      cases hs
    | next ht' hrest =>
      obtain ⟨rfl, rfl, rfl⟩ := ht.unique ht'
      rw [ih hrest]

/-- What is in hand are the first items of the queues, where it is so source by source. -/
theorem inHand_eq_heads {sources : List Source} {queues : List (List Record)}
    (h : List.Forall₂ (fun source queue => source.lookahead = queue.head?) sources queues) :
    inHand sources = heads queues := by
  funext i
  rw [inHand, heads]
  rcases forall₂_getElem? h i with ⟨hs, hq⟩ | ⟨source, records, hs, hq, hh⟩
  · rw [hs, hq]
    rfl
  · rw [hs, hq]
    exact hh

/-- The sources hold these records, each source its own, and none of them will meet a fault. -/
def Holding (sources : List Source) (queues : List (List Record)) : Prop :=
  List.Forall₂ (fun source records => Source.Holds source records none) sources queues

theorem holding_of_opened {sources : List Source} {captures : List Bytes}
    (h : List.Forall₂ Source.Opened sources captures) :
    Holding sources (captures.map Record.ofCapture) := by
  induction h with
  | nil => exact .nil
  | cons ho _ ih => exact .cons ho.holds ih

section Turn

variable {sources : List Source} {queues : List (List Record)}

theorem Holding.inHand (h : Holding sources queues) : inHand sources = heads queues :=
  inHand_eq_heads (h.imp fun _ _ hh => hh.lookahead)

/-- **One turn of the loop**: the record that wins is taken, and its source goes on to the rest of
what it holds. -/
theorem Holding.turn (h : Holding sources queues) {i : Nat} (hs : select sources = some i) :
    ∃ record rest after, Turn sources i record after ∧ Wins (heads queues) i record ∧
      queues[i]? = some (record :: rest) ∧ Holding after (queues.set i rest) := by
  obtain ⟨record, hw⟩ := wins_of_select hs
  rw [h.inHand] at hw
  have hhere := hw.here
  rw [heads] at hhere
  rcases forall₂_getElem? h i with ⟨_, hq⟩ | ⟨source, records, hsource, hq, hh⟩
  · rw [hq] at hhere
    cases hhere
  · rw [hq] at hhere
    cases records with
    | nil => cases hhere
    | cons first rest =>
      cases hhere
      obtain ⟨htake, advanced, ha, hnext⟩ := hh.advance_take
      exact ⟨record, rest, _, .mk hs hsource (Prod.ext htake rfl) ha, hw, hq, forall₂_set h hnext i⟩

theorem Loop.drained {items : List (Nat × Record)} (hl : Loop sources items)
    (h : Holding sources queues) :
    Drained Wins queues items := by
  induction hl generalizing queues with
  | done hs =>
    refine .done fun i => ?_
    rw [← h.inHand]
    exact inHand_of_select_none hs i
  | next ht _ ih =>
    obtain ⟨record, rest, after, ht', hw, hq, hnext⟩ := h.turn ht.select
    obtain ⟨-, rfl, rfl⟩ := ht.unique ht'
    exact .next hw hq (ih hnext)

end Turn

theorem exists_loop {sources : List Source} {queues : List (List Record)}
    (h : Holding sources queues) :
    ∃ items, Loop sources items := by
  cases hs : select sources with
  | none => exact ⟨[], .done hs⟩
  | some i =>
    obtain ⟨record, rest, after, ht, _, hq, hnext⟩ := h.turn hs
    obtain ⟨items, hl⟩ := exists_loop hnext
    exact ⟨(i, record) :: items, .next ht hl⟩
termination_by (queues.map List.length).sum
decreasing_by
  have hless := sum_length_set hq
  omega

end Merge

end TrafficReplay
