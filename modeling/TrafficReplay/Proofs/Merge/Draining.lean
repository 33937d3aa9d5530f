/-
# Draining queues

Queues are drained by taking the first item of one of them again and again, whichever goes next by
some rule, until all are empty (`Drained`). The items come out with the place of the queue that they
were in. Whatever the rule, each queue comes out whole and in order (`Drained.interleaves`). By the
rule of the merge, records come out no less ordered than their queues are: a record that comes out
behind a newer one stood behind one at least as new in its own queue (`Drained.exists_newer`).
-/
import TrafficReplay.Proofs.Merge.Selection

namespace TrafficReplay.Merge

section Items

variable {α : Type}

def itemsOf (i : Nat) (items : List (Nat × α)) : List α :=
  (items.filter (·.1 = i)).map (·.2)

/-- The items of each queue come in the order of that queue, and no others come. -/
def Interleaves (items : List (Nat × α)) (queues : List (List α)) : Prop :=
  ∀ i, itemsOf i items = queues[i]?.getD []

/-- How many items of queue `i` come before place `n`: the place in its queue of an item that comes
there. -/
def placeIn (items : List (Nat × α)) (i n : Nat) : Nat :=
  (itemsOf i (items.take n)).length

def heads (queues : List (List α)) (i : Nat) : Option α :=
  queues[i]?.bind List.head?

theorem itemsOf_cons_self (i : Nat) (item : α) (items : List (Nat × α)) :
    itemsOf i ((i, item) :: items) = item :: itemsOf i items := by
  rw [itemsOf, List.filter_cons_of_pos (by simp)]
  rfl

theorem itemsOf_cons_ne {i j : Nat} (h : j ≠ i) (item : α) (items : List (Nat × α)) :
    itemsOf i ((j, item) :: items) = itemsOf i items := by
  rw [itemsOf, List.filter_cons_of_neg (by simpa using h)]
  rfl

theorem itemsOf_cons (i : Nat) (entry : Nat × α) (items : List (Nat × α)) :
    itemsOf i (entry :: items)
      = if entry.1 = i then entry.2 :: itemsOf i items else itemsOf i items := by
  obtain ⟨j, item⟩ := entry
  by_cases h : j = i
  · subst h
    rw [itemsOf_cons_self, if_pos rfl]
  · rw [itemsOf_cons_ne h, if_neg h]

theorem mem_itemsOf {items : List (Nat × α)} {entry : Nat × α} (h : entry ∈ items) :
    entry.2 ∈ itemsOf entry.1 items :=
  List.mem_map.mpr ⟨entry, List.mem_filter.mpr ⟨h, by simp⟩, rfl⟩

theorem Interleaves.mem_flatten {items : List (Nat × α)} {queues : List (List α)}
    (h : Interleaves items queues) {entry : Nat × α} (hmem : entry ∈ items) :
    entry.2 ∈ queues.flatten := by
  have hitem := mem_itemsOf hmem
  rw [h entry.1] at hitem
  cases hq : queues[entry.1]? with
  | none =>
    rw [hq] at hitem
    exact absurd hitem List.not_mem_nil
  | some queue =>
    rw [hq] at hitem
    exact List.mem_flatten.mpr ⟨queue, List.mem_of_getElem? hq, hitem⟩

theorem Interleaves.map_snd {items : List (Nat × α)} {queue : List α}
    (h : Interleaves items [queue]) : items.map (·.2) = queue := by
  have hfirst : ∀ entry ∈ items, entry.1 = 0 := by
    intro entry hmem
    by_contra hne
    have hitem := mem_itemsOf hmem
    rw [h entry.1, List.getElem?_eq_none (Nat.one_le_iff_ne_zero.mpr hne)] at hitem
    exact absurd hitem List.not_mem_nil
  have hall : itemsOf 0 items = queue := h 0
  rwa [itemsOf, List.filter_eq_self.mpr fun entry hmem => decide_eq_true (hfirst entry hmem)]
    at hall

theorem getElem?_placeIn {items : List (Nat × α)} {i n : Nat} {item : α}
    (h : items[n]? = some (i, item)) :
    (itemsOf i items)[placeIn items i n]? = some item := by
  induction items generalizing n with
  | nil => cases h
  | cons entry items ih =>
    cases n with
    | zero =>
      cases h
      rw [itemsOf_cons_self]
      rfl
    | succ n =>
      have hn := ih h
      rw [placeIn, List.take_succ_cons, itemsOf_cons, itemsOf_cons]
      by_cases he : entry.1 = i
      · rw [if_pos he, if_pos he]
        exact hn
      · rw [if_neg he, if_neg he]
        exact hn

theorem placeIn_lt {items : List (Nat × α)} {i k n : Nat} {item : α}
    (h : items[k]? = some (i, item))
    (hlt : k < n) : placeIn items i k < placeIn items i n := by
  induction items generalizing k n with
  | nil => cases h
  | cons entry items ih =>
    obtain ⟨n, rfl⟩ : ∃ n', n = n' + 1 := ⟨n - 1, by omega⟩
    cases k with
    | zero =>
      cases h
      rw [placeIn, placeIn, List.take_succ_cons, itemsOf_cons_self]
      exact Nat.zero_lt_succ _
    | succ k =>
      have hk := ih h (Nat.lt_of_succ_lt_succ hlt)
      rw [placeIn, placeIn, List.take_succ_cons, List.take_succ_cons, itemsOf_cons, itemsOf_cons]
      by_cases he : entry.1 = i
      · rw [if_pos he, if_pos he]
        exact Nat.succ_lt_succ hk
      · rw [if_neg he, if_neg he]
        exact hk

theorem exists_first {items : List (Nat × α)} {i n : Nat} {item first : α} {rest : List α}
    (h : items[n]? = some (i, item)) (hq : itemsOf i items = first :: rest) :
    ∃ k, k ≤ n ∧ items[k]? = some (i, first) := by
  induction items generalizing n with
  | nil => cases h
  | cons entry items ih =>
    rw [itemsOf_cons] at hq
    by_cases he : entry.1 = i
    · rw [if_pos he] at hq
      cases hq
      exact ⟨0, Nat.zero_le n, by subst he; rfl⟩
    · rw [if_neg he] at hq
      cases n with
      | zero =>
        cases h
        exact absurd rfl he
      | succ n =>
        obtain ⟨k, hk, hfirst⟩ := ih h hq
        exact ⟨k + 1, Nat.succ_le_succ hk, hfirst⟩

end Items

section Rule

variable {α : Type} {goesNext : (Nat → Option α) → Nat → α → Prop} {queues : List (List α)}
  {items : List (Nat × α)}

/-- The queues are drained to these items, `goesNext` saying which of the first items is taken. -/
inductive Drained (goesNext : (Nat → Option α) → Nat → α → Prop) :
    List (List α) → List (Nat × α) → Prop
  | done {queues : List (List α)} : (∀ i, heads queues i = none) → Drained goesNext queues []
  | next {queues : List (List α)} {i : Nat} {item : α} {rest : List α} {items : List (Nat × α)} :
      goesNext (heads queues) i item → queues[i]? = some (item :: rest) →
      Drained goesNext (queues.set i rest) items → Drained goesNext queues ((i, item) :: items)

theorem set_eq_split {i : Nat} {queue : List α} (hq : queues[i]? = some queue) (other : List α) :
    queues.set i other = queues.take i ++ other :: queues.drop (i + 1) :=
  List.set_eq_take_append_cons_drop.trans (if_pos (List.getElem?_eq_some_iff.mp hq).1)

theorem eq_split {i : Nat} {queue : List α} (hq : queues[i]? = some queue) :
    queues = queues.take i ++ queue :: queues.drop (i + 1) := by
  obtain ⟨hi, hget⟩ := List.getElem?_eq_some_iff.mp hq
  rw [← hget, List.getElem_cons_drop, List.take_append_drop]

theorem sum_length_set {i : Nat} {item : α} {rest : List α}
    (hq : queues[i]? = some (item :: rest)) :
    ((queues.set i rest).map List.length).sum + 1 = (queues.map List.length).sum := by
  rw [set_eq_split hq]
  conv =>
    rhs
    rw [eq_split hq]
  simp only [List.map_append, List.map_cons, List.sum_append, List.sum_cons, List.length_cons]
  omega

theorem getD_of_heads_none {i : Nat} (h : heads queues i = none) : queues[i]?.getD [] = [] := by
  rw [heads] at h
  cases hq : queues[i]? with
  | none => rfl
  | some queue =>
    rw [hq] at h
    exact List.head?_eq_none_iff.mp h

/-- **Nothing is lost, doubled or reordered within a queue.** -/
theorem Drained.interleaves (h : Drained goesNext queues items) : Interleaves items queues := by
  induction h with
  | done hnone =>
    intro i
    exact (getD_of_heads_none (hnone i)).symm
  | @next queues i item rest items _ hq _ ih =>
    intro j
    have hi : i < queues.length := (List.getElem?_eq_some_iff.mp hq).1
    by_cases hj : i = j
    · subst hj
      rw [itemsOf_cons_self, ih i, hq, List.getElem?_set_self hi]
      rfl
    · rw [itemsOf_cons_ne hj, ih j, List.getElem?_set_ne hj]

theorem Drained.length (h : Drained goesNext queues items) :
    items.length = (queues.map List.length).sum := by
  induction h with
  | @done queues hnone =>
    refine (List.sum_eq_zero_iff_forall_eq_nat.mpr fun n hn => ?_).symm
    obtain ⟨queue, hmem, rfl⟩ := List.mem_map.mp hn
    obtain ⟨i, hi⟩ := List.getElem?_of_mem hmem
    have hnil := getD_of_heads_none (hnone i)
    rw [hi] at hnil
    exact congrArg List.length hnil
  | next _ hq _ ih => rw [List.length_cons, ih, sum_length_set hq]

end Rule

/-- **The merge brings in no disorder.** If a record comes out behind a newer one that is no
response, then in its own queue it stands behind one that is no response either and at least as new,
and that is the newer record itself or comes out behind it. -/
theorem Drained.exists_newer {queues : List (List Record)} {items : List (Nat × Record)}
    (h : Drained Wins queues items) {m n i j : Nat} {newer older : Record}
    (hm : items[m]? = some (i, newer)) (hn : items[n]? = some (j, older)) (hlt : m < n)
    (hk : newer.kind ≠ .response) (ht : older.timestamp < newer.timestamp) :
    ∃ k record, m ≤ k ∧ k < n ∧ items[k]? = some (j, record) ∧ record.kind ≠ .response ∧
      newer.timestamp ≤ record.timestamp := by
  induction h generalizing m n with
  | done _ => cases hm
  | @next queues i' item rest items hw hq hd ih =>
    obtain ⟨n, rfl⟩ : ∃ n', n = n' + 1 := ⟨n - 1, by omega⟩
    cases m with
    | succ m =>
      obtain ⟨k, record, hmk, hkn, hrec, hkind, htime⟩ := ih hm hn (Nat.lt_of_succ_lt_succ hlt)
      exact ⟨k + 1, record, Nat.succ_le_succ hmk, Nat.succ_lt_succ hkn, hrec, hkind, htime⟩
    | zero =>
      -- at this moment the newer record wins, and the first of queue `j` is the one looked for
      cases hm
      have hinter := (Drained.next hw hq hd).interleaves j
      have hplace := getElem?_placeIn hn
      rw [hinter] at hplace
      cases hqueue : queues[j]?.getD [] with
      | nil =>
        rw [hqueue] at hplace
        cases hplace
      | cons first more =>
        have hhead : heads queues j = some first := by
          cases hj : queues[j]? with
          | none => rw [hj] at hqueue; cases hqueue
          | some queue =>
            rw [hj] at hqueue
            rw [heads, hj]
            exact congrArg List.head? hqueue
        obtain ⟨hkind, htime⟩ := hw.le hk hhead
        obtain ⟨k, hkn, hfirst⟩ := exists_first hn (hinter.trans hqueue)
        refine ⟨k, first, Nat.zero_le k, Nat.lt_of_le_of_ne hkn fun e => ?_, hfirst, hkind, htime⟩
        subst e
        rw [hn] at hfirst
        cases hfirst
        exact absurd ht (Int.not_lt.mpr htime)

/-- **Queues in order are merged in order**: nothing that comes out behind a record that is no
response is older than it. -/
theorem Drained.pairwise_of_sorted {queues : List (List Record)} {items : List (Nat × Record)}
    (h : Drained Wins queues items)
    (hsorted : ∀ queue ∈ queues, queue.Pairwise (·.timestamp ≤ ·.timestamp)) :
    (items.map (·.2)).Pairwise fun first later =>
      first.kind ≠ .response → first.timestamp ≤ later.timestamp := by
  rw [List.pairwise_map, List.pairwise_iff_getElem]
  intro m n hm hn hlt hk
  refine Int.not_lt.mp fun ht => ?_
  have hnewer : items[m]? = some (items[m].1, items[m].2) := List.getElem?_eq_getElem hm
  have holder : items[n]? = some (items[n].1, items[n].2) := List.getElem?_eq_getElem hn
  obtain ⟨k, record, -, hkn, hrecord, -, htime⟩ := h.exists_newer hnewer holder hlt hk ht
  -- the record found stands in front of the older one in a queue that is in order
  have hplace := placeIn_lt hrecord hkn
  have hfront := getElem?_placeIn hrecord
  have hback := getElem?_placeIn holder
  rw [h.interleaves] at hfront hback
  cases hq : queues[items[n].1]? with
  | none =>
    rw [hq] at hfront
    cases hfront
  | some queue =>
    rw [hq, Option.getD_some] at hfront hback
    obtain ⟨hlen, hget⟩ := List.getElem?_eq_some_iff.mp hfront
    obtain ⟨hlen', hget'⟩ := List.getElem?_eq_some_iff.mp hback
    have hle := List.pairwise_iff_getElem.mp (hsorted queue (List.mem_of_getElem? hq)) _ _ hlen
      hlen' hplace
    rw [hget, hget'] at hle
    exact Int.not_lt.mpr (Int.le_trans htime hle) ht

end TrafficReplay.Merge
