/-
# What the winner depends on

The selection answers with the place that wins, whatever the sources are (`select_winner`). Of a
record in hand only its kind and its time are looked at, and of an empty hand nothing. So hands may
be spread out over other places: as long as they stay in order and the hands in between are empty,
the winner is the same one, at its new place (`Spread.select`). And so a merge stays the same if
empty queues are put between the others (`Drained.exists_without_empty`).
-/
import TrafficReplay.Proofs.Merge.Determinacy

namespace TrafficReplay.Merge

def standing (record : Record) : Kind × Int :=
  (record.kind, record.timestamp)

/-- The hands are found among others, in order and with the same standings, and the others are
empty. -/
structure Spread (hand hand' : Nat → Option Record) (place : Nat → Nat) : Prop where
  ordered : StrictMono place
  same : ∀ i, (hand' (place i)).map standing = (hand i).map standing
  idle : ∀ j, (∀ i, place i ≠ j) → hand' j = none

section Hands

variable {hand hand' : Nat → Option Record} {place : Nat → Nat} {i j : Nat} {record other : Record}

theorem standing_eq_iff :
    standing record = standing other ↔
      record.kind = other.kind ∧ record.timestamp = other.timestamp :=
  Prod.mk_inj

theorem Spread.exists_there (h : Spread hand hand' place) (hi : hand i = some record) :
    ∃ other, hand' (place i) = some other ∧ standing other = standing record := by
  have hsame := h.same i
  rw [hi] at hsame
  exact Option.map_eq_some_iff.mp hsame

theorem Spread.exists_here (h : Spread hand hand' place) (hj : hand' j = some other) :
    ∃ i record, place i = j ∧ hand i = some record ∧ standing record = standing other := by
  by_cases hplace : ∃ i, place i = j
  · obtain ⟨i, rfl⟩ := hplace
    have hsame := h.same i
    rw [hj] at hsame
    obtain ⟨record, hrecord, hstanding⟩ := Option.map_eq_some_iff.mp hsame.symm
    exact ⟨i, record, rfl, hrecord, hstanding⟩
  · have hnone := h.idle j fun i hi => hplace ⟨i, hi⟩
    rw [hj] at hnone
    cases hnone

theorem Spread.noResponse (h : Spread hand hand' place)
    (hn : ∀ j other, hand j = some other → other.kind ≠ .response) (j : Nat) (other : Record)
    (hj : hand' j = some other) : other.kind ≠ .response := by
  obtain ⟨i, record, rfl, hi, hstanding⟩ := h.exists_here hj
  obtain ⟨hkind, -⟩ := standing_eq_iff.mp hstanding
  intro hresponse
  exact hn i record hi (hkind.trans hresponse)

/-- **The winner wins at its new place.** -/
theorem Wins.spread (h : Spread hand hand' place) (hw : Wins hand i record) :
    ∃ other, Wins hand' (place i) other := by
  obtain ⟨other, hthere, hstanding⟩ := h.exists_there hw.here
  obtain ⟨hkind, htime⟩ := standing_eq_iff.mp hstanding
  refine ⟨other, ?_⟩
  cases hw with
  | response _ hresponse hbefore =>
    refine .response hthere (hkind.trans hresponse) ?_
    intro j rival hj hrival hrivalResponse
    obtain ⟨k, found, rfl, hfound, hsame⟩ := h.exists_here hrival
    obtain ⟨hsameKind, -⟩ := standing_eq_iff.mp hsame
    exact hbefore k found (h.ordered.lt_iff_lt.mp hj) hfound (hsameKind.trans hrivalResponse)
  | oldest hn he =>
    refine .oldest (h.noResponse hn) ⟨hthere, ?_, ?_⟩
    · intro j rival hrival
      obtain ⟨k, found, rfl, hfound, hsame⟩ := h.exists_here hrival
      obtain ⟨-, hsameTime⟩ := standing_eq_iff.mp hsame
      rw [htime, ← hsameTime]
      exact he.le hfound
    · intro j rival hj hrival
      obtain ⟨k, found, rfl, hfound, hsame⟩ := h.exists_here hrival
      obtain ⟨-, hsameTime⟩ := standing_eq_iff.mp hsame
      rw [htime, ← hsameTime]
      exact he.lt (h.ordered.lt_iff_lt.mp hj) hfound

end Hands

section Sources

variable {sources others : List Source} {place : Nat → Nat}

/-- **The same source is selected at its new place.** -/
theorem Spread.select (h : Spread (inHand sources) (inHand others) place) :
    select others = (select sources).map place := by
  cases hs : Merge.select sources with
  | none =>
    cases hothers : Merge.select others with
    | none => rfl
    | some j =>
      obtain ⟨other, hw⟩ := wins_of_select hothers
      obtain ⟨i, record, -, hi, -⟩ := h.exists_here hw.here
      rw [inHand_of_select_none hs i] at hi
      cases hi
  | some i =>
    obtain ⟨record, hw⟩ := wins_of_select hs
    obtain ⟨other, hother⟩ := hw.spread h
    exact select_of_wins hother

theorem spread_of_standings
    (h : others.map (fun source => source.lookahead.map standing)
      = sources.map fun source => source.lookahead.map standing) :
    Spread (inHand sources) (inHand others) id := by
  refine ⟨strictMono_id, fun i => ?_, fun j hj => absurd rfl (hj j)⟩
  have hview : ∀ list : List Source, (inHand list i).map standing
      = (list.map fun source => source.lookahead.map standing)[i]?.join := by
    intro list
    rw [inHand, List.getElem?_map]
    cases list[i]? with
    | none => rfl
    | some source => rfl
  rw [id_eq, hview, hview, h]

def shifted (start count i : Nat) : Nat :=
  if i < start then i else i + count

theorem spread_of_idle {front idle back : List Source}
    (h : ∀ source ∈ idle, source.lookahead = none) :
    Spread (inHand (front ++ back)) (inHand (front ++ idle ++ back))
      (shifted front.length idle.length) := by
  refine ⟨?_, ?_, ?_⟩
  · intro i j hij
    simp only [shifted]
    split <;> split <;> omega
  · intro i
    congr 1
    rw [inHand, inHand, shifted]
    congr 1
    split
    · rename_i hlt
      rw [List.append_assoc, List.getElem?_append_left hlt, List.getElem?_append_left hlt]
    · rename_i hge
      have hle : front.length ≤ i := Nat.not_lt.mp hge
      have hbehind : (front ++ idle).length ≤ i + idle.length := by
        rw [List.length_append]
        omega
      rw [List.getElem?_append_right hbehind, List.getElem?_append_right hle, List.length_append]
      congr 1
      omega
  · intro j hj
    have hfront : front.length ≤ j := by
      by_contra hlt
      exact hj j (if_pos (Nat.not_le.mp hlt))
    have hidle : j - front.length < idle.length := by
      by_contra hge
      have hback : ¬ j - idle.length < front.length := by omega
      refine hj (j - idle.length) ?_
      rw [shifted, if_neg hback]
      omega
    rw [inHand, List.append_assoc, List.getElem?_append_right hfront,
      List.getElem?_append_left hidle, List.getElem?_eq_getElem hidle]
    exact h _ (List.getElem_mem hidle)

/-- **The selection answers with the winner**, whatever the sources are: with none just if no hand
holds a record, and otherwise with the first response or, where there is none, the first of the
oldest records. It looks at nothing but the kinds and times in hand, and sources with empty hands
may come in or go anywhere. -/
theorem select_winner (sources : List Source) :
    (select sources = none ↔ ∀ source ∈ sources, source.lookahead = none) ∧
    (∀ i, select sources = some i ↔ ∃ record, Wins (inHand sources) i record) ∧
    (∀ others : List Source,
      others.map (fun source => source.lookahead.map standing)
        = sources.map (fun source => source.lookahead.map standing) →
      select others = select sources) ∧
    ∀ front idle back : List Source, sources = front ++ back →
      (∀ source ∈ idle, source.lookahead = none) →
      select (front ++ idle ++ back) = (select sources).map (shifted front.length idle.length) := by
  refine ⟨⟨lookahead_of_select_none, select_eq_none⟩, ?_, ?_, ?_⟩
  · intro i
    constructor
    · intro h
      exact wins_of_select h
    · rintro ⟨record, hw⟩
      exact select_of_wins hw
  · intro others h
    rw [(spread_of_standings h).select, Option.map_id, id_eq]
  · rintro front idle back rfl hidle
    exact (spread_of_idle hidle).select

/-- A late response beats older records in front of it, and is found two places farther back when
two sources without a record come in. -/
theorem select_winner_late_response :
    (let source raw : Source := ⟨"", none, some (.ofBytes raw)⟩
    let front := [source (Utf8.encode "1 a 5\n"), source (Utf8.encode "3 b -7\n")]
    let back := [source (Utf8.encode "2 c 9\n"), source (Utf8.encode "2 d -9\n")]
    let idle : List Source := [⟨"", none, none⟩, ⟨"", some [], none⟩]
    select (front ++ back) = some 2 ∧ select (front ++ idle ++ back) = some 4) := by
  obtain ⟨-, -, -, hshift⟩ := select_winner _
  refine ⟨by decide +kernel, ?_⟩
  rw [hshift _ _ _ rfl (by decide)]
  decide +kernel

end Sources

/-! ## Queues between empty ones -/

section Queues

/-- The queues stand among others, in the same order, and the others between them are empty. -/
structure Interspersed (place : Nat → Nat) (queues others : List (List Record)) : Prop where
  ordered : StrictMono place
  here : ∀ i, others[place i]?.getD [] = queues[i]?.getD []
  empty : ∀ j, (∀ i, place i ≠ j) → others[j]?.getD [] = []

variable {place : Nat → Nat} {queues others : List (List Record)} {items : List (Nat × Record)}

theorem heads_eq_head?_getD (queues : List (List Record)) (i : Nat) :
    heads queues i = (queues[i]?.getD []).head? := by
  rw [heads]
  cases queues[i]? with
  | none => rfl
  | some queue => rfl

theorem Interspersed.heads (h : Interspersed place queues others) (i : Nat) :
    heads others (place i) = heads queues i := by
  rw [heads_eq_head?_getD, heads_eq_head?_getD, h.here]

theorem Interspersed.spread (h : Interspersed place queues others) :
    Spread (Merge.heads queues) (Merge.heads others) place where
  ordered := h.ordered
  same i := congrArg (Option.map standing) (h.heads i)
  idle j hj := by
    rw [heads_eq_head?_getD, h.empty j hj]
    rfl

theorem Interspersed.wins (h : Interspersed place queues others) {i : Nat} {record : Record}
    (hw : Wins (Merge.heads queues) i record) : Wins (Merge.heads others) (place i) record := by
  obtain ⟨other, hother⟩ := hw.spread h.spread
  obtain rfl := Option.some.inj (hother.here.symm.trans ((h.heads i).trans hw.here))
  exact hother

theorem Interspersed.set (h : Interspersed place queues others) {i : Nat} {item : Record}
    {rest : List Record} (hq : queues[i]? = some (item :: rest)) :
    others[place i]? = some (item :: rest) ∧
      Interspersed place (queues.set i rest) (others.set (place i) rest) := by
  have hhere := h.here i
  rw [hq, Option.getD_some] at hhere
  have hother : others[place i]? = some (item :: rest) := by
    cases ho : others[place i]? with
    | none =>
      rw [ho] at hhere
      cases hhere
    | some queue =>
      rw [ho] at hhere
      exact congrArg some hhere
  refine ⟨hother, h.ordered, fun k => ?_, fun j hj => ?_⟩
  · by_cases hk : i = k
    · subst hk
      rw [List.getElem?_set_self (List.getElem?_eq_some_iff.mp hq).1,
        List.getElem?_set_self (List.getElem?_eq_some_iff.mp hother).1]
    · rw [List.getElem?_set_ne hk, List.getElem?_set_ne (fun he => hk (h.ordered.injective he)),
        h.here]
  · rw [List.getElem?_set_ne (hj i)]
    exact h.empty j hj

theorem Drained.intersperse (hd : Drained Wins queues items)
    (h : Interspersed place queues others) :
    Drained Wins others (items.map fun item => (place item.1, item.2)) := by
  induction hd generalizing others with
  | done hnone =>
    refine .done fun j => ?_
    cases hj : Merge.heads others j with
    | none => rfl
    | some record =>
      obtain ⟨i, record, -, hi, -⟩ := h.spread.exists_here hj
      rw [hnone i] at hi
      cases hi
  | next hw hq _ ih =>
    obtain ⟨hother, hset⟩ := h.set hq
    exact .next (h.wins hw) hother (ih hset)

theorem exists_interspersed {α : Type} (queueOf : α → List Record) (keeps : α → Bool) {xs : List α}
    (h : ∀ x ∈ xs, keeps x = false → queueOf x = []) :
    ∃ place, Interspersed place ((xs.filter keeps).map queueOf) (xs.map queueOf) := by
  induction xs with
  | nil => exact ⟨id, strictMono_id, fun _ => rfl, fun _ _ => rfl⟩
  | cons x xs ih =>
    obtain ⟨hx, hxs⟩ := List.forall_mem_cons.mp h
    obtain ⟨place, hmono, hhere, hempty⟩ := ih hxs
    cases hk : keeps x with
    | true =>
      rw [List.filter_cons_of_pos hk]
      refine ⟨fun i => i.casesOn 0 fun i => place i + 1, ?_, fun i => ?_, fun j hj => ?_⟩
      · refine strictMono_nat_of_lt_succ fun i => ?_
        cases i with
        | zero => exact Nat.succ_pos _
        | succ i => exact Nat.succ_lt_succ (hmono (Nat.lt_succ_self i))
      · cases i with
        | zero => rfl
        | succ i => exact hhere i
      · cases j with
        | zero => exact absurd rfl (hj 0)
        | succ j => exact hempty j fun i he => hj (i + 1) (congrArg Nat.succ he)
    | false =>
      rw [List.filter_cons_of_neg (by rw [hk]; exact Bool.false_ne_true)]
      refine ⟨fun i => place i + 1, fun i k hlt => Nat.succ_lt_succ (hmono hlt), hhere,
        fun j hj => ?_⟩
      cases j with
      | zero => exact hx hk
      | succ j => exact hempty j fun i he => hj i (congrArg Nat.succ he)

/-- **Empty queues make no difference** to the records that come out. -/
theorem Drained.exists_without_empty {α : Type} {queueOf : α → List Record} {keeps : α → Bool}
    {xs : List α} (h : ∀ x ∈ xs, keeps x = false → queueOf x = [])
    (hd : Drained Wins (xs.map queueOf) items) :
    ∃ others, Drained Wins ((xs.filter keeps).map queueOf) others ∧
      others.map (·.2) = items.map (·.2) := by
  obtain ⟨place, hplace⟩ := exists_interspersed queueOf keeps h
  obtain ⟨others, hothers⟩ := exists_drained ((xs.filter keeps).map queueOf)
  refine ⟨others, hothers, ?_⟩
  rw [(hothers.intersperse hplace).unique hd, List.map_map]
  rfl

end Queues

end TrafficReplay.Merge
