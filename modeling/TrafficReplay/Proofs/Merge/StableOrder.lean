/-
# Merging is stable sorting

Queues that are each in the order of their times, drained by taking the first of the oldest, come
out as a stable sort of the queues put one behind the other (`Drained.map_snd_eq_mergeSort`): equal
times keep the order of the queues, and within a queue its own order.
-/
import Mathlib
import TrafficReplay.Proofs.Merge.Draining

namespace TrafficReplay.Merge

variable {α : Type} (time : α → Int)

def noLater (item other : α) : Bool :=
  time item ≤ time other

variable {time}

theorem noLater_iff {item other : α} : noLater time item other = true ↔ time item ≤ time other :=
  decide_eq_true_iff

theorem noLater_trans (a b c : α) (hab : noLater time a b = true) (hbc : noLater time b c = true) :
    noLater time a c = true :=
  noLater_iff.mpr (Int.le_trans (noLater_iff.mp hab) (noLater_iff.mp hbc))

theorem noLater_total (a b : α) : (noLater time a b || noLater time b a) = true := by
  rw [Bool.or_eq_true, noLater_iff, noLater_iff]
  exact Int.le_total _ _

theorem mergeSort_cons_eq (item : α) (items : List α) :
    (item :: items).mergeSort (noLater time)
      = (items.mergeSort (noLater time)).orderedInsert (noLater time · ·) item := by
  have htrans := @noLater_trans α time
  have htotal := @noLater_total α time
  obtain ⟨front, back, hcons, hrest, hfront⟩ := List.mergeSort_cons htrans htotal item items
  have hsorted := List.pairwise_mergeSort htrans htotal (item :: items)
  rw [hcons, List.pairwise_append, List.pairwise_cons] at hsorted
  rw [hcons, hrest, List.orderedInsert_eq_take_drop]
  have hf : ∀ other ∈ front, decide (¬ noLater time item other = true) = true := by
    intro other hmem
    simpa using hfront other hmem
  have hb : ∀ other ∈ back, noLater time item other = true := hsorted.2.1.1
  rw [List.takeWhile_append_of_pos hf, List.dropWhile_append_of_pos hf]
  cases back with
  | nil => rw [List.takeWhile_nil, List.append_nil, List.dropWhile_nil]
  | cons other back =>
    have ho := hb other List.mem_cons_self
    rw [List.takeWhile_cons_of_neg (by simpa using ho),
      List.dropWhile_cons_of_neg (by simpa using ho), List.append_nil]

/-- An item that comes earlier than all in front of it and no later than all behind it is the first
of a stable sort. -/
theorem mergeSort_eq_cons {front back : List α} {item : α}
    (hf : ∀ other ∈ front, time item < time other)
    (hb : ∀ other ∈ back, time item ≤ time other) :
    (front ++ item :: back).mergeSort (noLater time)
      = item :: (front ++ back).mergeSort (noLater time) := by
  induction front with
  | nil =>
    rw [List.nil_append, List.nil_append, mergeSort_cons_eq]
    cases hs : back.mergeSort (noLater time) with
    | nil => rfl
    | cons other rest =>
      have hmem : other ∈ back := List.mem_mergeSort.mp (hs ▸ List.mem_cons_self)
      exact List.orderedInsert_cons_of_le _ rest (noLater_iff.mpr (hb other hmem))
  | cons other front ih =>
    have hother := hf other List.mem_cons_self
    have hnot : ¬ noLater time other item = true :=
      fun hle => Int.not_le.mpr hother (noLater_iff.mp hle)
    rw [List.cons_append, List.cons_append, mergeSort_cons_eq, mergeSort_cons_eq,
      ih fun o ho => hf o (List.mem_cons_of_mem _ ho)]
    exact List.orderedInsert_of_not_le _ _ hnot

/-- In queues that are in order, the first of the oldest first items comes no later than anything,
and earlier than all in the queues in front of its own. -/
theorem Earliest.of_mem {queues : List (List α)} {i : Nat} {item : α}
    (h : Earliest time (heads queues) i item)
    (hsorted : ∀ queue ∈ queues, queue.Pairwise (time · ≤ time ·)) {j : Nat} {queue : List α}
    (hq : queues[j]? = some queue) {other : α} (ho : other ∈ queue) :
    time item ≤ time other ∧ (j < i → time item < time other) := by
  have hpair := hsorted queue (List.mem_of_getElem? hq)
  cases queue with
  | nil => cases ho
  | cons first rest =>
    have hhead : heads queues j = some first := by
      rw [heads, hq]
      rfl
    have hfirst : time first ≤ time other := by
      rcases List.mem_cons.mp ho with rfl | hmem
      · exact Int.le_refl _
      · exact (List.pairwise_cons.mp hpair).1 other hmem
    exact ⟨Int.le_trans (h.le hhead) hfirst, fun hj => Int.lt_of_lt_of_le (h.lt hj hhead) hfirst⟩

/-- **Taking the first of the oldest sorts stably.** -/
theorem Drained.map_snd_eq_mergeSort {queues : List (List α)} {items : List (Nat × α)}
    (h : Drained (Earliest time) queues items)
    (hsorted : ∀ queue ∈ queues, queue.Pairwise (time · ≤ time ·)) :
    items.map (·.2) = queues.flatten.mergeSort (noLater time) := by
  induction h with
  | @done queues hnone =>
    have hnil : queues.flatten = [] := by
      refine List.flatten_eq_nil_iff.mpr fun queue hq => ?_
      obtain ⟨j, hj⟩ := List.getElem?_of_mem hq
      have hempty := getD_of_heads_none (hnone j)
      rwa [hj] at hempty
    rw [hnil, List.mergeSort_nil]
    rfl
  | @next queues i item rest items he hq _ ih =>
    have hset : ∀ queue ∈ queues.set i rest, queue.Pairwise (time · ≤ time ·) := by
      intro queue hmem
      rcases List.mem_or_eq_of_mem_set hmem with hmem | rfl
      · exact hsorted queue hmem
      · exact (List.pairwise_cons.mp (hsorted _ (List.mem_of_getElem? hq))).2
    have hfront : ∀ other ∈ (queues.take i).flatten, time item < time other := by
      intro other ho
      obtain ⟨queue, hmem, hin⟩ := List.mem_flatten.mp ho
      obtain ⟨j, hj⟩ := List.getElem?_of_mem hmem
      have hlt : j < i :=
        Nat.lt_of_lt_of_le (List.getElem?_eq_some_iff.mp hj).1 (List.length_take_le i queues)
      rw [List.getElem?_take_of_lt hlt] at hj
      exact (he.of_mem hsorted hj hin).2 hlt
    have hback : ∀ other ∈ rest ++ (queues.drop (i + 1)).flatten, time item ≤ time other := by
      intro other ho
      rcases List.mem_append.mp ho with ho | ho
      · exact (he.of_mem hsorted hq (List.mem_cons_of_mem _ ho)).1
      · obtain ⟨queue, hmem, hin⟩ := List.mem_flatten.mp ho
        obtain ⟨j, hj⟩ := List.getElem?_of_mem (List.mem_of_mem_drop hmem)
        exact (he.of_mem hsorted hj hin).1
    have hrest := ih hset
    rw [set_eq_split hq, List.flatten_append, List.flatten_cons] at hrest
    have hflat : queues.flatten
        = (queues.take i).flatten ++ item :: (rest ++ (queues.drop (i + 1)).flatten) := by
      conv_lhs => rw [eq_split hq]
      rw [List.flatten_append, List.flatten_cons, List.cons_append]
    rw [List.map_cons, hrest, hflat, mergeSort_eq_cons hfront hback]

end TrafficReplay.Merge
