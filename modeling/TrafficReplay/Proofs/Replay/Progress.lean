/-
# The pump never spins

What keeps openings of captures apart is whether a pump that is about to step has a record in hand
(`Pump.Fed`). An opening finds none and leaves one (`Pump.Moves.of_opening`), and only handing a
record over can change that back (`Pump.Moves.fed`). So there is at most one opening more than
records (`Pump.Alternating`). Each step but the last comes to a record or to an opening
(`Pump.Balanced`), and a replay that does not loop hands over no more than its captures hold
(`Pump.Once`); so it makes a step for each record and a last one (`Exchange.never_spins`).
-/
import TrafficReplay.Proofs.Replay.Summaries
import TrafficReplay.Proofs.Replay.WholeSteps

namespace TrafficReplay

namespace Pump

variable {files : Nat → FileTree} {state next : Pump × Phase} {deeds : List Deed} {deed : Deed}

theorem Moves.holding_of_record {record : Record} (h : Moves files state deed next)
    (hr : deed.record? = some record) : ∃ offer, state.2 = .holding offer := by
  cases h with
  | aside ha => exact absurd ((Deed.record?_of_aside ha).symm.trans hr) (by simp)
  | handOver => exact ⟨_, rfl⟩
  | finish => cases hr
  | step _ => cases hr
  | wake => cases hr
  | heed _ => cases hr
  | heedFailing => cases hr
  | fail => cases hr

/-! ## What keeps openings apart -/

/-- If the pump is about to step, it has a record in hand. -/
def Fed (state : Pump × Phase) : Prop :=
  state.2 = .ready → Merge.select state.1.sources ≠ none

theorem fed_of_ne_ready {state : Pump × Phase} (h : state.2 ≠ .ready) : Fed state :=
  fun hready => absurd hready h

theorem Moves.fed (h : Moves files state deed next) (hr : deed.record? = none) (hfed : Fed state) :
    Fed next := by
  cases h with
  | aside _ => exact hfed
  | finish => exact hfed
  | handOver => cases hr
  | wake => exact fed_of_ne_ready (by simp)
  | heed _ => exact fed_of_ne_ready (by simp)
  | heedFailing => exact fed_of_ne_ready (by simp)
  | fail => exact fed_of_ne_ready (by simp)
  | step hstepped =>
    cases hstepped with
    | offered _ _ _ => exact fed_of_ne_ready (Session.phaseOf_ne_ready _)
    | exhausted _ _ => exact fed_of_ne_ready (by simp)
    | lost hn _ _ => exact absurd hn (hfed rfl)
    | renewed hn _ _ _ => exact absurd hn (hfed rfl)
    | fruitless hn _ _ _ => exact absurd hn (hfed rfl)

/-- Only a pump that loops tries to open captures anew. It does so without a record in hand, and if
it goes on then, it has one. -/
theorem Moves.of_opening {result : Except ReplayError (List Source)}
    (h : Moves files state (.step (some result)) next) :
    state.1.looping = true ∧ ¬ Fed state ∧ Fed next := by
  cases h with
  | aside ha => cases ha
  | step hstepped =>
    cases hstepped with
    | lost hn hl _ => exact ⟨hl, fun hfed => hfed rfl hn, fed_of_ne_ready (by simp)⟩
    | fruitless hn hl _ _ => exact ⟨hl, fun hfed => hfed rfl hn, fed_of_ne_ready (by simp)⟩
    | renewed hn hl _ hs =>
      exact ⟨hl, fun hfed => hfed rfl hn, fun _ hnone => nomatch hs.symm.trans hnone⟩

/-! ## Steps, records and openings count each other -/

/-- All steps but `rest` of them have handed a record over or have opened captures anew. -/
def Spent (deeds : List Deed) (rest : Nat) : Prop :=
  deeds.countP Deed.isStep = (handedOver deeds).length + (reopenings deeds).length + rest

/-- Each step has come to a record or to an opening, but for one that is under way, and for the last
one if it came to neither. -/
def Balanced (deeds : List Deed) : Phase → Prop
  | .ready => Spent deeds 0
  | .waiting _ | .holding _ => Spent deeds 1
  | .failing _ | .ended _ => ∃ rest ≤ 1, Spent deeds rest

theorem Spent.move {rest more : Nat} (h : Spent deeds rest)
    (hmore : rest + (if deed.isStep then 1 else 0)
      = deed.record?.toList.length + deed.reopened?.toList.length + more) :
    Spent (deeds ++ [deed]) more := by
  rw [Spent] at h ⊢
  rw [countP_isStep_snoc, handedOver_snoc, reopenings_snoc, List.length_append, List.length_append]
  omega

theorem Spent.keep {rest : Nat} (h : Spent deeds rest) (hstep : deed.isStep = false)
    (hrecord : deed.record? = none) (hopened : deed.reopened? = none) :
    Spent (deeds ++ [deed]) rest := by
  refine h.move ?_
  rw [hstep, hrecord, hopened]
  exact (Nat.zero_add rest).symm

theorem Balanced.keep {phase : Phase} (h : Balanced deeds phase) (hstep : deed.isStep = false)
    (hrecord : deed.record? = none) (hopened : deed.reopened? = none) :
    Balanced (deeds ++ [deed]) phase := by
  cases phase with
  | ready => exact Spent.keep h hstep hrecord hopened
  | waiting offer => exact Spent.keep h hstep hrecord hopened
  | holding offer => exact Spent.keep h hstep hrecord hopened
  | failing error =>
    obtain ⟨rest, hrest, hs⟩ := h
    exact ⟨rest, hrest, hs.keep hstep hrecord hopened⟩
  | ended reason =>
    obtain ⟨rest, hrest, hs⟩ := h
    exact ⟨rest, hrest, hs.keep hstep hrecord hopened⟩

theorem balanced_phaseOf {offer : Offer} (h : Spent deeds 1) : Balanced deeds (phaseOf offer) := by
  rw [phaseOf]
  cases offer.wait with
  | none => exact h
  | some wait => exact h

theorem Balanced.closing {phase : Phase} {reason : StopReason} (h : Balanced deeds phase)
    (hphase : phase ≠ .ready) : Balanced deeds (.ended reason) := by
  cases phase with
  | ready => exact absurd rfl hphase
  | waiting offer => exact ⟨1, Nat.le_refl 1, h⟩
  | holding offer => exact ⟨1, Nat.le_refl 1, h⟩
  | failing error => exact h
  | ended reason => exact h

theorem Balanced.step (h : Balanced deeds state.2) (hm : Moves files state deed next) :
    Balanced (deeds ++ [deed]) next.2 := by
  cases hm with
  | aside ha =>
    exact h.keep (Deed.isStep_of_aside ha) (Deed.record?_of_aside ha) (Deed.reopened?_of_aside ha)
  | finish => exact h.keep rfl rfl rfl
  | wake => exact h.keep rfl rfl rfl
  | heed ho =>
    refine (h.keep rfl rfl rfl).closing fun hready => ?_
    cases (congrArg Phase.offer? hready).symm.trans ho
  | heedFailing => exact (h.keep rfl rfl rfl).closing (by simp)
  | fail => exact (h.keep rfl rfl rfl).closing (by simp)
  | @handOver pump offer n =>
    have hspent : Spent deeds 1 := h
    have hdone : Spent (deeds ++ [.returns n (.ok (some offer.record))]) 0 := hspent.move rfl
    obtain ⟨sources, phase, hvalue, hover, hnone⟩ := handOver_kept pump offer
    rw [hvalue]
    cases phase with
    | ready => exact hdone
    | failing error => exact ⟨0, Nat.zero_le 1, hdone⟩
    | waiting offer => cases hnone
    | holding offer => cases hnone
    | ended reason => cases hover
  | step hstepped =>
    have hspent : Spent deeds 0 := h
    cases hstepped with
    | offered _ _ _ => exact balanced_phaseOf (hspent.move rfl)
    | exhausted _ _ => exact ⟨1, Nat.le_refl 1, hspent.move rfl⟩
    | lost _ _ _ => exact ⟨1, Nat.le_refl 1, hspent.move rfl⟩
    | renewed _ _ _ _ => exact hspent.move rfl
    | fruitless _ _ _ _ => exact ⟨0, Nat.zero_le 1, hspent.move rfl⟩

theorem Balanced.le {phase : Phase} (h : Balanced deeds phase) :
    deeds.countP Deed.isStep ≤ (handedOver deeds).length + (reopenings deeds).length + 1 := by
  have hspent : ∃ rest ≤ 1, Spent deeds rest := by
    cases phase with
    | ready => exact ⟨0, Nat.zero_le 1, h⟩
    | waiting offer => exact ⟨1, Nat.le_refl 1, h⟩
    | holding offer => exact ⟨1, Nat.le_refl 1, h⟩
    | failing error => exact h
    | ended reason => exact h
  obtain ⟨rest, hrest, hs⟩ := hspent
  rw [hs]
  exact Nat.add_le_add_left hrest _

/-- Openings and records follow each other: if the pump is about to step without a record in hand,
then no opening is ahead of the records. -/
structure Alternating (deeds : List Deed) (state : Pump × Phase) : Prop where
  le : (reopenings deeds).length ≤ (handedOver deeds).length + 1
  le_of_unfed : ¬ Fed state → (reopenings deeds).length ≤ (handedOver deeds).length

theorem Alternating.step (h : Alternating deeds state) (hm : Moves files state deed next) :
    Alternating (deeds ++ [deed]) next := by
  have hle := h.le
  cases ho : deed.reopened? with
  | none =>
    have hopened : (reopenings (deeds ++ [deed])).length = (reopenings deeds).length := by
      rw [reopenings_snoc, ho, Option.toList_none, List.append_nil]
    cases hr : deed.record? with
    | none =>
      have hhanded : (handedOver (deeds ++ [deed])).length = (handedOver deeds).length := by
        rw [handedOver_snoc, hr, Option.toList_none, List.append_nil]
      refine ⟨by omega, fun hunfed => ?_⟩
      have hbefore := h.le_of_unfed fun hfed => hunfed (hm.fed hr hfed)
      omega
    | some record =>
      have hhanded : (handedOver (deeds ++ [deed])).length = (handedOver deeds).length + 1 := by
        rw [handedOver_snoc, hr, List.length_append]
        rfl
      exact ⟨by omega, fun _ => by omega⟩
  | some sources =>
    obtain rfl := Deed.eq_step_of_reopened? ho
    obtain ⟨-, hunfed, hfed⟩ := hm.of_opening
    have hbefore := h.le_of_unfed hunfed
    have hopened : (reopenings (deeds ++ [.step (some (.ok sources))])).length
        = (reopenings deeds).length + 1 := by
      rw [reopenings_snoc, List.length_append]
      rfl
    have hhanded : (handedOver (deeds ++ [.step (some (.ok sources))])).length
        = (handedOver deeds).length := by
      rw [handedOver_snoc]
      exact congrArg List.length (List.append_nil _)
    exact ⟨by omega, fun hnot => absurd hfed hnot⟩

end Pump

/-! ## A replay that does not loop -/

def recordCount (contents : List Content) : Nat :=
  ((contents.map Content.records).map List.length).sum

theorem recordCount_set {contents : List Content} {i : Nat} {content : Content} {record : Record}
    {rest : List Record} (hc : contents[i]? = some content)
    (hr : content.records = record :: rest) :
    recordCount (contents.set i { content with records := rest }) + 1 = recordCount contents := by
  rw [recordCount, List.map_set]
  exact Merge.sum_length_set (by rw [List.getElem?_map, hc, Option.map_some, hr])

namespace Pump

variable {files : Nat → FileTree} {begun pump first : Pump} {state next : Pump × Phase}
  {deeds : List Deed} {deed : Deed} {offers : List Offer} {contents : List Content}

theorem Turns.stocked (h : Turns begun offers pump) (hs : Stocked begun.sources contents) :
    ∃ left,
      Stocked pump.sources left ∧ offers.length + recordCount left = recordCount contents := by
  induction h generalizing contents with
  | done => exact ⟨contents, hs, Nat.zero_add _⟩
  | turn ht _ ih =>
    obtain ⟨content, rest, hc, hr, hstocked⟩ := ht.stocked hs
    obtain ⟨left, hleft, hcount⟩ := ih hstocked
    have hset := recordCount_set hc hr
    exact ⟨left, hleft, by rw [List.length_cons]; omega⟩

/-- A record that is on its way is one that the captures held and that was not handed over. -/
theorem Account.handedOver_lt {offer : Offer} (h : Account first deeds (pump, .holding offer))
    (hopened : reopenings deeds = []) (hs : Stocked first.sources contents) :
    (handedOver deeds).length < recordCount contents := by
  cases h.stage with
  | @onItsWay before _ _ _ hcovered hoffered _ =>
    obtain ⟨past, passed, begun, offers, hopenings, hwhole, hturns, hrecords⟩ := hcovered
    -- the captures were opened once, so all turns belong to one round
    rw [openingsOf, hopened] at hopenings
    have hpast : past = [] ∧ first.sources = begun.sources := by
      cases past with
      | nil => exact ⟨rfl, (List.cons.inj hopenings).1⟩
      | cons sources past => exact absurd (List.cons.inj hopenings).2 (by simp)
    obtain ⟨rfl, hsame⟩ := hpast
    obtain ⟨rounds, hrounds, rfl⟩ := hwhole
    cases hrounds
    rw [hsame] at hs
    obtain ⟨left, hleft, hcount⟩ := hturns.stocked hs
    have hlength : (handedOver deeds).length = offers.length := by
      rw [hrecords]
      simp
    obtain ⟨hselect, -, -⟩ := hoffered
    obtain ⟨record, hw⟩ := Merge.wins_of_select hselect
    rw [hleft.inHand] at hw
    obtain ⟨content, rest, hc, hr, -⟩ := hleft.turn hw
    have hset := recordCount_set hc hr
    omega

/-- What holds of a replay that does not loop: nothing is opened anew, and no more is handed over
than the captures held. -/
structure Once (first : Pump) (contents : List Content) (deeds : List Deed)
    (state : Pump × Phase) : Prop where
  account : Account first deeds state
  reopenings : reopenings deeds = []
  handedOver : (handedOver deeds).length ≤ recordCount contents

theorem Once.step (h : Once first contents deeds state) (hl : first.looping = false)
    (hs : Stocked first.sources contents) (hm : Moves files state deed next) :
    Once first contents (deeds ++ [deed]) next := by
  have hopened : deed.reopened? = none := by
    cases ho : deed.reopened? with
    | none => rfl
    | some sources =>
      obtain rfl := Deed.eq_step_of_reopened? ho
      have hlooping := h.account.tally.looping.symm.trans hm.of_opening.1
      exact absurd (hl.symm.trans hlooping) Bool.false_ne_true
  refine ⟨h.account.step hm, ?_, ?_⟩
  · rw [reopenings_snoc, hopened, h.reopenings]
    rfl
  · rw [handedOver_snoc, List.length_append]
    cases hr : deed.record? with
    | none => exact h.handedOver
    | some record =>
      obtain ⟨offer, hphase⟩ := hm.holding_of_record hr
      obtain ⟨pump, phase⟩ := state
      obtain rfl : phase = .holding offer := hphase
      exact h.account.handedOver_lt h.reopenings hs

end Pump

namespace Exchange

variable {files : Nat → FileTree} {prepared : Session} {s t : Exchange} {deeds later : List Deed}

/-! ## Runs -/

theorem Run.balanced (h : Run files (begin prepared) deeds s) (hp : prepared.phase = .ready) :
    Pump.Balanced deeds s.session.phase := by
  have hbegin : Pump.Balanced [] (begin prepared).state.2 := by
    show Pump.Balanced [] prepared.phase
    rw [hp]
    rfl
  exact h.keeps (P := fun deeds state => Pump.Balanced deeds state.2) (sound_begin prepared)
    Pump.Balanced.step hbegin

theorem Run.alternating (h : Run files (begin prepared) deeds s) :
    Pump.Alternating deeds s.state :=
  h.keeps (sound_begin prepared) Pump.Alternating.step ⟨Nat.zero_le 1, fun _ => Nat.le_refl 0⟩

theorem Run.once (h : Run files (begin prepared) deeds s) (hp : prepared.phase = .ready)
    (hl : prepared.pump.looping = false) {contents : List Content}
    (hs : Stocked prepared.pump.sources contents) :
    Pump.Once prepared.pump contents deeds s.state := by
  have hbegin : (begin prepared).state = (prepared.pump, .ready) := by
    rw [state, begin, hp]
  refine h.keeps (sound_begin prepared) (fun honce hm => honce.step hl hs hm)
    ⟨?_, rfl, Nat.zero_le _⟩
  rw [hbegin]
  exact Pump.account_begin prepared.pump

theorem Run.fed (h : Run files s later t) (hs : s.Sound) (hfed : Pump.Fed s.state)
    (hnone : handedOver later = []) : Pump.Fed t.state := by
  refine h.keeps (P := fun deeds state => handedOver deeds = [] → Pump.Fed state) hs ?_
    (fun _ => hfed) hnone
  intro deeds state deed next hP hm hnone
  rw [handedOver_snoc, List.append_eq_nil_iff, Option.toList_eq_nil_iff] at hnone
  exact hm.fed hnone.2 (hP hnone.1)

/-- **Two openings are never without a record in between.** -/
theorem Run.handedOver_between {early between late : List Deed} {sources : List Source}
    {result : Except ReplayError (List Source)}
    (h : Run files (begin prepared)
      (early ++ .step (some (.ok sources)) :: (between ++ .step (some result) :: late)) s) :
    handedOver between ≠ [] := by
  intro hnone
  obtain ⟨mid, hearly, hrest⟩ := h.split
  obtain ⟨first, hfirst, hrest⟩ := hrest.uncons
  obtain ⟨last, hbetween, hrest⟩ := hrest.split
  obtain ⟨next, hnext, -⟩ := hrest.uncons
  have hmid := hearly.sound (sound_begin prepared)
  have hsound := hfirst.sound hmid
  have hfed : Pump.Fed first.state := (hfirst.moves hmid).of_opening.2.2
  have hunfed : ¬ Pump.Fed last.state := (hnext.moves (hbetween.sound hsound)).of_opening.2.1
  exact hunfed (hbetween.fed hsound hfed hnone)

/-- **The pump never spins.** Whatever the files are like whenever they are opened, and in whatever
order reads, stop requests and moves of the pump come: a step that is not the pump's last hands one
record over or opens captures anew, once, one of which then has a record in hand; between two
openings a record is handed over; a source that is selected has a record to be taken. So openings
are at most one more than records, steps at most one more than both together, and a replay that does
not loop makes a step for each record of its captures and one more at most. -/
theorem never_spins {tree : FileTree} {pattern : String} {settings : Settings}
    (hp : (Session.prepare tree pattern settings).value = .ok prepared)
    (h : Run files (begin prepared) deeds s) :
    (∀ call t, WholeStep files s call t →
      (∃ record, handedOver call = [record] ∧ reopenings call = [] ∧
        t.session.pump.emitted = s.session.pump.emitted + 1 ∧
        t.session.pump.restarts = s.session.pump.restarts) ∨
      ∃ sources, handedOver call = [] ∧ reopenings call = [sources] ∧
        t.session.pump.emitted = s.session.pump.emitted ∧
        t.session.pump.restarts = s.session.pump.restarts + 1 ∧
        t.session.pump.sources = sources ∧ ∃ source ∈ sources, source.hasLookahead = true) ∧
    (∀ early sources between result late,
      deeds = early ++ .step (some (.ok sources)) :: (between ++ .step (some result) :: late) →
      handedOver between ≠ []) ∧
    (∀ i, Merge.select s.session.pump.sources = some i →
      ∃ source record taken, s.session.pump.sources[i]? = some source ∧
        source.take = (some record, taken)) ∧
    s.session.pump.restarts ≤ s.session.pump.emitted + 1 ∧
    deeds.countP Deed.isStep ≤ s.session.pump.emitted + s.session.pump.restarts + 1 ∧
    (settings.looping = false → ∃ contents, Stocked prepared.pump.sources contents ∧
      deeds.countP Deed.isStep ≤ recordCount contents + 1) := by
  obtain ⟨sources, hresolved, rfl⟩ := Session.of_prepare hp
  have htally := (h.account rfl).tally
  have hemitted : s.session.pump.emitted = (handedOver deeds).length :=
    htally.emitted.trans (Nat.zero_add _)
  have hrestarts : s.session.pump.restarts = (reopenings deeds).length :=
    htally.restarts.trans (Nat.zero_add _)
  have hsteps := (h.balanced rfl).le
  refine ⟨fun call t hcall => ?_, ?_, fun i hi => Pump.exists_take hi, ?_, ?_, fun hl => ?_⟩
  · rcases hcall.cases (h.sound (sound_begin _)) with
      ⟨i, record, after, -, hhanded, hopened, hpump⟩ | ⟨sources, i, hi, hhanded, hopened, hpump⟩
    · rw [hpump]
      exact .inl ⟨record, hhanded, hopened, rfl, rfl⟩
    · rw [hpump]
      obtain ⟨source, record, taken, hget, ht⟩ :=
        @Pump.exists_take (s.session.pump.renew sources) i hi
      refine .inr ⟨sources, hhanded, hopened, rfl, rfl, rfl, source, List.mem_of_getElem? hget, ?_⟩
      have hhand : source.lookahead = some record := congrArg Prod.fst ht
      rw [Source.hasLookahead, hhand]
      rfl
  · rintro early sources between result late rfl
    exact h.handedOver_between
  · rw [hemitted, hrestarts]
    exact h.alternating.le
  · rw [hemitted, hrestarts]
    exact hsteps
  · obtain ⟨contents, hs⟩ := stocked_of_resolveSources hresolved
    have honce := h.once rfl hl hs
    refine ⟨contents, hs, hsteps.trans ?_⟩
    rw [honce.reopenings, List.length_nil, Nat.add_zero]
    exact Nat.succ_le_succ honce.handedOver

/-- Six records are read, in seven steps at most. -/
theorem never_spins_two :
    ∃ prepared deeds s, (Session.prepare twoCaptures "*" {}).value = .ok prepared ∧
      Run (fun _ => twoCaptures) (begin prepared) deeds s ∧ (handedOver deeds).length = 6 ∧
      reopenings deeds = [] ∧ deeds.countP Deed.isStep ≤ 7 := by
  obtain ⟨prepared, items, pump, count, deeds, hp, -, hlength, hrun, hhanded, hopened, -⟩ :=
    @exists_whole_run twoCaptures "*" {} _ rfl rfl captures_twoCaptures fun _ => twoCaptures
  have hsix : (handedOver deeds).length = 6 := by
    rw [hhanded, List.length_map, hlength]
    decide +kernel
  have hfew := (never_spins hp hrun).2.2.2.2.1
  refine ⟨prepared, deeds, _, hp, hrun, hsix, hopened, hfew.trans ?_⟩
  obtain ⟨sources, -, rfl⟩ := Session.of_prepare hp
  have htally := (hrun.account rfl).tally
  have hemitted : pump.emitted = 0 + 6 := hsix ▸ htally.emitted
  have hrestarts : pump.restarts = 0 + ([] : List (List Source)).length := hopened ▸ htally.restarts
  show pump.emitted + pump.restarts + 1 ≤ 7
  rw [hemitted, hrestarts]
  exact Nat.le_refl 7

end Exchange

end TrafficReplay
