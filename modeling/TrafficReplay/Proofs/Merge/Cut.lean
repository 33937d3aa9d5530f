/-
# Where a fault cuts the merge

A source meets the fault behind its records in the move that takes the last of them, not when a
record after it would be due. So the records that come out are those of the merge without faults, up
to the first place at which some faulty source has none left (`Cut`). `Stocked.turn` is one turn of
the merge over sources that may be faulty; it goes on (`Turn`) or breaks off (`Break`). A turn that
goes on leaves the same cut ahead (`cut_cons_iff`), and where the merge breaks off the cut is
reached. A merge that comes to its end has met no fault and has emptied its sources
(`Loop.empties`).
-/
import TrafficReplay.Proofs.Merge.Determinacy
import TrafficReplay.Proofs.Source.Contents

namespace TrafficReplay

namespace Merge

/-- The source at `i` is selected and its record taken, and then it cannot advance. -/
inductive Break (sources : List Source) : Nat → Record → ReplayError → Prop
  | mk {i : Nat} {source taken closed : Source} {record : Record} {error : ReplayError} :
      select sources = some i → sources[i]? = some source → source.take = (some record, taken) →
      taken.advance.value = (.error error, closed) → Break sources i record error

/-- These items hold all records of a content at this path, with this fault behind them. -/
def RunsDry (contents : List Content) (items : List (Nat × Record)) (path : String)
    (fault : Fault) : Prop :=
  ∃ i content, contents[i]? = some content ∧ content.path = path ∧ content.fault = some fault ∧
    itemsOf i items = content.records

/-- The shortest items to begin with that hold all records of a faulty content. -/
structure Cut (contents : List Content) (items first : List (Nat × Record)) (path : String)
    (fault : Fault) : Prop where
  isPrefix : first <+: items
  dry : RunsDry contents first path fault
  least : ∀ shorter path fault, shorter <+: items → RunsDry contents shorter path fault →
    first.length ≤ shorter.length

/-- Where a fault is ahead, a record is ahead of it. -/
def RecordsFirst (contents : List Content) : Prop :=
  ∀ content ∈ contents, content.fault ≠ none → content.records ≠ []

instance (contents : List Content) : Decidable (RecordsFirst contents) :=
  inferInstanceAs (Decidable (∀ content ∈ contents, content.fault ≠ none → content.records ≠ []))

variable {contents : List Content} {items first : List (Nat × Record)} {path : String}
  {fault : Fault}

theorem RecordsFirst.not_runsDry_nil (h : RecordsFirst contents) :
    ¬ RunsDry contents [] path fault := by
  rintro ⟨i, content, hc, -, hf, hitems⟩
  have hne := h content (List.mem_of_getElem? hc)
  rw [hf] at hne
  exact hne (Option.some_ne_none _) hitems.symm

theorem exists_cut (h : Drained Wins (contents.map Content.records) items)
    (hf : ∃ content ∈ contents, content.fault ≠ none) :
    ∃ first path fault, Cut contents items first path fault := by
  classical
  obtain ⟨content, hmem, hne⟩ := hf
  obtain ⟨f, hfault⟩ := Option.ne_none_iff_exists'.mp hne
  obtain ⟨i, hc⟩ := List.getElem?_of_mem hmem
  have hall : RunsDry contents (items.take items.length) content.path f := by
    refine ⟨i, content, hc, rfl, hfault, ?_⟩
    rw [List.take_length, h.interleaves i, List.getElem?_map, hc]
    rfl
  -- the whole merge runs dry, so there is a first place at which the items do
  have hsome : ∃ n path fault, RunsDry contents (items.take n) path fault := ⟨_, _, _, hall⟩
  obtain ⟨path, fault, hdry⟩ := Nat.find_spec hsome
  refine ⟨_, path, fault, List.take_prefix _ _, hdry, fun shorter path' fault' hs hd => ?_⟩
  rw [List.prefix_iff_eq_take.mp hs] at hd
  exact Nat.le_trans (List.length_take_le _ _) (Nat.find_min' hsome ⟨path', fault', hd⟩)

section Turn

variable {i : Nat} {content : Content} {record : Record} {rest : List Record}

theorem runsDry_cons_iff (hc : contents[i]? = some content)
    (hr : content.records = record :: rest) :
    RunsDry contents ((i, record) :: items) path fault ↔
      RunsDry (contents.set i { content with records := rest }) items path fault := by
  have hi : i < contents.length := (List.getElem?_eq_some_iff.mp hc).1
  constructor
  · rintro ⟨j, other, ho, hp, hf, hitems⟩
    by_cases hij : i = j
    · subst hij
      rw [hc] at ho
      cases ho
      rw [itemsOf_cons_self, hr] at hitems
      exact ⟨i, _, List.getElem?_set_self hi, hp, hf, (List.cons.inj hitems).2⟩
    · rw [itemsOf_cons_ne hij] at hitems
      exact ⟨j, other, (List.getElem?_set_ne hij).trans ho, hp, hf, hitems⟩
  · rintro ⟨j, other, ho, hp, hf, hitems⟩
    by_cases hij : i = j
    · subst hij
      rw [List.getElem?_set_self hi] at ho
      cases ho
      refine ⟨i, content, hc, hp, hf, ?_⟩
      rw [itemsOf_cons_self, hitems, hr]
    · rw [List.getElem?_set_ne hij] at ho
      exact ⟨j, other, ho, hp, hf, (itemsOf_cons_ne hij record items).trans hitems⟩

theorem cut_cons_iff (h : RecordsFirst contents) (hc : contents[i]? = some content)
    (hr : content.records = record :: rest) :
    Cut contents ((i, record) :: items) ((i, record) :: first) path fault ↔
      Cut (contents.set i { content with records := rest }) items first path fault := by
  constructor
  · rintro ⟨hp, hd, hl⟩
    refine ⟨(List.cons_prefix_cons.mp hp).2, (runsDry_cons_iff hc hr).mp hd, ?_⟩
    intro shorter path' fault' hp' hd'
    have hle := hl ((i, record) :: shorter) path' fault' (List.cons_prefix_cons.mpr ⟨rfl, hp'⟩)
      ((runsDry_cons_iff hc hr).mpr hd')
    exact Nat.le_of_succ_le_succ hle
  · rintro ⟨hp, hd, hl⟩
    refine ⟨List.cons_prefix_cons.mpr ⟨rfl, hp⟩, (runsDry_cons_iff hc hr).mpr hd, ?_⟩
    intro shorter path' fault' hp' hd'
    cases shorter with
    | nil => exact absurd hd' h.not_runsDry_nil
    | cons item shorter =>
      obtain ⟨rfl, hafter⟩ := List.cons_prefix_cons.mp hp'
      exact Nat.succ_le_succ (hl shorter path' fault' hafter ((runsDry_cons_iff hc hr).mp hd'))

theorem Cut.exists_cons (h : Cut contents items first path fault) (ho : RecordsFirst contents) :
    ∃ item after more, items = item :: after ∧ first = item :: more := by
  obtain ⟨hp, hd, -⟩ := h
  cases first with
  | nil => exact absurd hd ho.not_runsDry_nil
  | cons item more =>
    obtain ⟨after, rfl⟩ := hp
    exact ⟨item, more ++ after, more, rfl, rfl⟩

theorem Cut.eq_singleton (h : Cut contents ((i, record) :: items) first path fault)
    (ho : RecordsFirst contents) (hc : contents[i]? = some content)
    (hr : content.records = [record])
    {f : Fault} (hf : content.fault = some f) :
    first = [(i, record)] ∧ path = content.path ∧ fault = f := by
  have hi : i < contents.length := (List.getElem?_eq_some_iff.mp hc).1
  obtain ⟨item, after, more, hitems, rfl⟩ := h.exists_cons ho
  cases hitems
  have hnext := (cut_cons_iff ho hc hr).mp h
  have hdry : RunsDry (contents.set i { content with records := [] }) [] content.path f :=
    ⟨i, _, List.getElem?_set_self hi, rfl, hf, rfl⟩
  -- nothing of the content is left, and no shorter items can hold all of another faulty one
  have hmore : more = [] :=
    List.eq_nil_of_length_eq_zero (Nat.le_zero.mp (hnext.least _ _ _ List.nil_prefix hdry))
  subst hmore
  obtain ⟨j, other, hother, rfl, hfault, hnil⟩ := hnext.dry
  by_cases hij : i = j
  · subst hij
    rw [List.getElem?_set_self hi] at hother
    cases hother
    rw [hf] at hfault
    exact ⟨rfl, rfl, (Option.some.inj hfault).symm⟩
  · rw [List.getElem?_set_ne hij] at hother
    have hne := ho other (List.mem_of_getElem? hother)
    rw [hfault] at hne
    exact absurd hnil.symm (hne (Option.some_ne_none _))

end Turn

end Merge

section Stocked

variable {sources : List Source} {contents : List Content}

theorem Stocked.recordsFirst (h : Stocked sources contents) : Merge.RecordsFirst contents := by
  intro content hmem hf
  obtain ⟨i, hi⟩ := List.getElem?_of_mem hmem
  rcases forall₂_getElem? h i with ⟨-, hnone⟩ | ⟨source, other, -, hother, hs⟩
  · rw [hi] at hnone
    cases hnone
  · rw [hi] at hother
    cases hother
    exact hs.records_ne_nil hf

theorem Stocked.inHand (h : Stocked sources contents) :
    Merge.inHand sources = Merge.heads (contents.map Content.records) :=
  Merge.inHand_eq_heads (List.forall₂_map_right_iff.mpr (h.imp fun _ _ hs => hs.2.lookahead))

theorem Stocked.holding (h : Stocked sources contents)
    (hf : ∀ content ∈ contents, content.fault = none) :
    Merge.Holding sources (contents.map Content.records) := by
  induction h with
  | nil => exact .nil
  | @cons source content sources contents hs _ ih =>
    have hholds := hs.2
    rw [hf content List.mem_cons_self] at hholds
    exact .cons hholds (ih fun other hmem => hf other (List.mem_cons_of_mem _ hmem))

/-- **One turn of the merge over sources that may be faulty**: the record that wins is taken, and
then the source goes on to the rest, or breaks off if no record is left and a fault is. -/
theorem Stocked.turn (h : Stocked sources contents) {i : Nat} {record : Record}
    (hw : Merge.Wins (Merge.heads (contents.map Content.records)) i record) :
    ∃ content rest, contents[i]? = some content ∧ content.records = record :: rest ∧
      ((∃ after, Merge.Turn sources i record after ∧
          Stocked after (contents.set i { content with records := rest })) ∨
        ∃ fault, rest = [] ∧ content.fault = some fault ∧
          Merge.Break sources i record (.cannotRead content.path fault)) := by
  rw [← h.inHand] at hw
  have hs := Merge.select_of_wins hw
  rcases forall₂_getElem? h i with ⟨hsource, -⟩ | ⟨source, content, hsource, hc, hstocks⟩
  · have hhere := hw.here
    rw [Merge.inHand, hsource] at hhere
    cases hhere
  · have hhere := hw.here
    rw [h.inHand, Merge.heads, List.getElem?_map, hc] at hhere
    obtain ⟨rest, hr⟩ := List.head?_eq_some_iff.mp hhere
    obtain ⟨htake, ⟨next, ha, hnext⟩ | ⟨fault, closed, hrest, hf, ha⟩⟩ := hstocks.advance_take hr
    · exact ⟨content, rest, hc, hr,
        .inl ⟨_, .mk hs hsource (Prod.ext htake rfl) ha, forall₂_set h hnext i⟩⟩
    · exact ⟨content, rest, hc, hr,
        .inr ⟨fault, hrest, hf, .mk hs hsource (Prod.ext htake rfl) ha⟩⟩

end Stocked

/-! ## A merge that is not cut -/

namespace Merge

variable {sources : List Source} {contents : List Content} {items : List (Nat × Record)}

/-- The items are all that the sources have to give: the records of each in order, and none of them
is faulty. -/
def Empties (sources : List Source) (items : List (Nat × Record)) : Prop :=
  ∃ contents, Stocked sources contents ∧ (∀ content ∈ contents, content.fault = none) ∧
    Interleaves items (contents.map Content.records)

theorem Turn.not_break {after : List Source} {i j : Nat} {record other : Record}
    {error : ReplayError} (h : Turn sources i record after) (h' : Break sources j other error) :
    False := by
  obtain ⟨hs, hget, ht, ha⟩ := h
  obtain ⟨hs', hget', ht', ha'⟩ := h'
  rw [hs] at hs'
  cases hs'
  rw [hget] at hget'
  cases hget'
  rw [ht] at ht'
  cases ht'
  rw [ha] at ha'
  cases ha'

theorem Turn.stocked {after : List Source} {i : Nat} {record : Record}
    (h : Turn sources i record after) (hs : Stocked sources contents) :
    ∃ content rest, contents[i]? = some content ∧ content.records = record :: rest ∧
      Stocked after (contents.set i { content with records := rest }) := by
  obtain ⟨other, hw⟩ := wins_of_select h.select
  rw [hs.inHand] at hw
  obtain ⟨content, rest, hc, hr, ⟨after', ht, hstocked⟩ | ⟨fault, -, -, hb⟩⟩ := hs.turn hw
  · obtain ⟨-, rfl, rfl⟩ := h.unique ht
    exact ⟨content, rest, hc, hr, hstocked⟩
  · exact absurd hb fun hb => h.not_break hb

theorem Loop.faultFree (h : Loop sources items) (hs : Stocked sources contents) :
    ∀ content ∈ contents, content.fault = none := by
  induction h generalizing contents with
  | @done sources hnone =>
    intro content hmem
    by_contra hf
    -- there would be a record ahead of the fault, and nothing is in hand any more
    obtain ⟨i, hi⟩ := List.getElem?_of_mem hmem
    have hhead : heads (contents.map Content.records) i = none := by
      rw [← hs.inHand]
      exact inHand_of_select_none hnone i
    rw [heads, List.getElem?_map, hi] at hhead
    exact hs.recordsFirst content hmem hf (List.head?_eq_none_iff.mp hhead)
  | @next sources after i record items ht _ ih =>
    obtain ⟨content, rest, hc, -, hstocked⟩ := ht.stocked hs
    intro other hmem
    obtain ⟨j, hj⟩ := List.getElem?_of_mem hmem
    by_cases hij : i = j
    · subst hij
      rw [hc] at hj
      cases hj
      have hi : i < contents.length := (List.getElem?_eq_some_iff.mp hc).1
      exact ih hstocked { content with records := rest }
        (List.mem_of_getElem? (List.getElem?_set_self hi))
    · exact ih hstocked other (List.mem_of_getElem? ((List.getElem?_set_ne hij).trans hj))

/-- **A loop that comes to its end has emptied the sources.** -/
theorem Loop.empties (h : Loop sources items) (hs : Stocked sources contents) :
    Empties sources items :=
  have hfree := h.faultFree hs
  ⟨contents, hs, hfree, (h.drained (hs.holding hfree)).interleaves⟩

end Merge

end TrafficReplay
