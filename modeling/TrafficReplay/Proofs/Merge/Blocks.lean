/-
# Blocks of records

A capture is cut into the responses at its front (`leading`) and blocks, each a record that is no
response and the responses right behind it (`blocks`). Responses go before all else, so a merge
never parts a block: first come the leading responses of all captures in their order, then whole
blocks, the first of the oldest next (`Drained.blocks`). Where the openers of each capture stand in
the order of their times, that order of the blocks is a stable sort by time
(`Drained.map_snd_eq_mergeSort`).
-/
import TrafficReplay.Proofs.Merge.Draining

namespace TrafficReplay

/-- A record that is no response, and the responses right behind it. -/
structure Block where
  opener : Record
  responses : List Record
  deriving Repr, DecidableEq

namespace Block

def records (block : Block) : List Record :=
  block.opener :: block.responses

def time (block : Block) : Int :=
  block.opener.timestamp

end Block

def leading (records : List Record) : List Record :=
  records.takeWhile fun record => record.kind = .response

def blocks : List Record → List Block
  | [] => []
  | record :: records =>
    if record.kind = .response then blocks records else ⟨record, leading records⟩ :: blocks records

theorem leading_cons_response {record : Record} (h : record.kind = .response)
    (records : List Record) :
    leading (record :: records) = record :: leading records := by
  rw [leading, List.takeWhile_cons_of_pos (by simpa using h)]
  rfl

theorem leading_cons_other {record : Record} (h : record.kind ≠ .response) (records : List Record) :
    leading (record :: records) = [] := by
  rw [leading, List.takeWhile_cons_of_neg (by simpa using h)]

theorem map_opener_blocks (records : List Record) :
    (blocks records).map Block.opener = records.filter fun record => record.kind ≠ .response := by
  induction records with
  | nil => rfl
  | cons record records ih =>
    rw [blocks]
    by_cases h : record.kind = .response
    · rw [if_pos h, ih, List.filter_cons_of_neg (by simpa using h)]
    · rw [if_neg h, List.map_cons, ih, List.filter_cons_of_pos (by simpa using h)]

namespace Merge

/-! ## A merge of records is a merge of blocks -/

theorem leading_eq_nil {queue : List Record}
    (h : ∀ record, queue.head? = some record → record.kind ≠ .response) :
    leading queue = [] := by
  cases queue with
  | nil => rfl
  | cons record rest => exact leading_cons_other (h record rfl) rest

theorem blocks_cons_response {record : Record} (h : record.kind = .response)
    (records : List Record) :
    blocks (record :: records) = blocks records := by
  rw [blocks, if_pos h]

theorem blocks_cons_other {record : Record} (h : record.kind ≠ .response) (records : List Record) :
    blocks (record :: records) = ⟨record, leading records⟩ :: blocks records := by
  rw [blocks, if_neg h]

section Queues

variable {queues : List (List Record)}

theorem flatMap_leading_eq_nil {part : List (List Record)}
    (h : ∀ queue ∈ part, ∀ record, queue.head? = some record → record.kind ≠ .response) :
    part.flatMap leading = [] := by
  refine List.flatMap_eq_nil_iff.mpr fun queue hq => ?_
  exact leading_eq_nil (h queue hq)

theorem head_of_mem_take {i : Nat} {queue : List Record} (hq : queue ∈ queues.take i)
    {record : Record}
    (hr : queue.head? = some record) : ∃ j, j < i ∧ heads queues j = some record := by
  obtain ⟨j, hj⟩ := List.getElem?_of_mem hq
  have hlt : j < i := by
    have := (List.getElem?_eq_some_iff.mp hj).1
    exact Nat.lt_of_lt_of_le this (List.length_take_le i queues)
  rw [List.getElem?_take_of_lt hlt] at hj
  exact ⟨j, hlt, by rw [heads, hj]; exact hr⟩

theorem head_of_mem {queue : List Record} (hq : queue ∈ queues) {record : Record}
    (hr : queue.head? = some record) : ∃ j, heads queues j = some record := by
  obtain ⟨j, hj⟩ := List.getElem?_of_mem hq
  exact ⟨j, by rw [heads, hj]; exact hr⟩

/-- Where no response comes first, the first blocks are opened by the first records. -/
theorem heads_map_blocks (h : ∀ j other, heads queues j = some other → other.kind ≠ .response)
    {j : Nat}
    {block : Block} (hb : heads (queues.map blocks) j = some block) :
    heads queues j = some block.opener := by
  have hj := h j
  rw [heads, List.getElem?_map] at hb
  rw [heads] at hj ⊢
  cases hq : queues[j]? with
  | none => rw [hq] at hb; cases hb
  | some queue =>
    rw [hq] at hb hj
    cases queue with
    | nil => cases hb
    | cons record rest =>
      simp only [Option.map_some, Option.bind_some, blocks_cons_other (hj record rfl),
        List.head?_cons] at hb ⊢
      cases hb
      rfl

theorem set_blocks {i : Nat} {queue : List Record} (hq : queues[i]? = some queue)
    {rest : List Record}
    (h : blocks rest = blocks queue) : (queues.set i rest).map blocks = queues.map blocks := by
  rw [List.map_set, h]
  obtain ⟨hi, hget⟩ := List.getElem?_eq_some_iff.mp hq
  rw [← hget, ← List.getElem_map blocks, List.set_getElem_self]
  rwa [List.length_map]

end Queues

/-- **A merge of records is a merge of blocks**: the leading responses of all queues come first, in
the order of the queues, and then whole blocks, the first of the oldest next. -/
theorem Drained.blocks {queues : List (List Record)} {items : List (Nat × Record)}
    (h : Drained Wins queues items) :
    ∃ order, Drained (Earliest Block.time) (queues.map TrafficReplay.blocks) order ∧
      items.map (·.2) = queues.flatMap leading ++ order.flatMap (·.2.records) := by
  induction h with
  | @done queues hnone =>
    refine ⟨[], .done fun j => ?_, ?_⟩
    · rw [heads, List.getElem?_map]
      have hj := hnone j
      rw [heads] at hj
      cases hq : queues[j]? with
      | none => rfl
      | some queue =>
        rw [hq] at hj
        rw [List.head?_eq_none_iff.mp hj]
        rfl
    · have hlead : queues.flatMap leading = [] := by
        refine flatMap_leading_eq_nil fun queue hq record hr => ?_
        obtain ⟨j, hj⟩ := head_of_mem hq hr
        rw [hnone j] at hj
        cases hj
      rw [hlead]
      rfl
  | @next queues i record rest items hw hq _ ih =>
    obtain ⟨order, hd, hitems⟩ := ih
    rw [set_eq_split hq, List.flatMap_append, List.flatMap_cons] at hitems
    cases hw with
    | response here hk hfront =>
      -- a response in front of its blocks: it goes to the leading ones
      refine ⟨order, ?_, ?_⟩
      · rwa [set_blocks hq (blocks_cons_response hk rest).symm] at hd
      · have hnil : (queues.take i).flatMap leading = [] := by
          refine flatMap_leading_eq_nil fun queue hmem other ho => ?_
          obtain ⟨j, hj, hhead⟩ := head_of_mem_take hmem ho
          exact hfront j other hj hhead
        rw [hnil] at hitems
        rw [List.map_cons, hitems, eq_split hq, List.flatMap_append, List.flatMap_cons,
          leading_cons_response hk, ← eq_split hq, hnil]
        rfl
    | oldest hnone he =>
      -- no response is left in front: a block begins
      have hk : record.kind ≠ .response := hnone i record he.here
      have hall : ∀ queue ∈ queues, ∀ other, queue.head? = some other → other.kind ≠ .response := by
        intro queue hmem other ho
        obtain ⟨j, hj⟩ := head_of_mem hmem ho
        exact hnone j other hj
      have hblock : (queues.map TrafficReplay.blocks)[i]?
          = some (⟨record, leading rest⟩ :: TrafficReplay.blocks rest) := by
        rw [List.getElem?_map, hq, Option.map_some, blocks_cons_other hk]
      refine ⟨(i, ⟨record, leading rest⟩) :: order, .next ⟨?_, ?_, ?_⟩ hblock ?_, ?_⟩
      · rw [heads, hblock]
        rfl
      · intro j other ho
        exact he.le (heads_map_blocks hnone ho)
      · intro j other hj ho
        exact he.lt hj (heads_map_blocks hnone ho)
      · rwa [List.map_set] at hd
      · have htake : (queues.take i).flatMap leading = [] :=
          flatMap_leading_eq_nil fun queue hmem => hall queue (List.mem_of_mem_take hmem)
        have hdrop : (queues.drop (i + 1)).flatMap leading = [] :=
          flatMap_leading_eq_nil fun queue hmem => hall queue (List.mem_of_mem_drop hmem)
        rw [htake, hdrop, List.nil_append, List.append_nil] at hitems
        rw [List.map_cons, hitems, flatMap_leading_eq_nil hall, List.flatMap_cons]
        rfl

end Merge

end TrafficReplay
