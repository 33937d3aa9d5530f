/-
# Records behind a stop

A stop ends the pump where it waits, but where a call is blocked as well the record may go first,
and nothing gives the stop precedence the next time. So what is handed over behind a stop is not
waited for (`Exchange.handed_over_after_stop`), and that is all that limits it: if no record of the
captures is waited for, every one of them may be handed over behind a stop
(`Exchange.all_after_stop`), and in particular more than one (`Exchange.not_one_after_stop`).
-/
import TrafficReplay.Proofs.Replay.Serving
import TrafficReplay.Proofs.Replay.Stopping

namespace TrafficReplay

theorem Pacing.wait_of_responses {items : List (Nat × Record)} (pacing : Pacing)
    (h : ∀ item ∈ items, item.2.kind = .response) :
    ∀ offer ∈ pacing.offers items, offer.wait = none := by
  induction items generalizing pacing with
  | nil => exact fun _ hmem => absurd hmem List.not_mem_nil
  | cons item items ih =>
    intro offer hmem
    rcases List.mem_cons.mp hmem with rfl | hlater
    · have hkind := h item List.mem_cons_self
      show pacing.wait? item.2.kind item.2.timestamp = none
      rw [hkind]
      rfl
    · exact ih _ (fun other hother => h other (List.mem_cons_of_mem _ hother)) offer hlater

theorem wait_of_phaseOf {offer held : Offer} (h : Pump.phaseOf offer = .holding held) :
    held.wait = none := by
  rw [Pump.phaseOf] at h
  cases hw : offer.wait with
  | none =>
    rw [hw] at h
    cases h
    exact hw
  | some wait =>
    rw [hw] at h
    cases h

namespace Exchange

variable {files : Nat → FileTree} {prepared : Session} {s t : Exchange} {deed : Deed}
  {deeds later : List Deed}

/-- Behind a stop no wait ends in time, so what is held was not waited for, unless it is held since
before. -/
theorem Run.held_after_stop (h : Run files s later t) (hs : s.Sound) (hp : s.stopPending = true) :
    .wake ∉ later ∧ ∀ offer, t.session.phase = .holding offer →
      offer.wait = none ∨ handedOver later = [] ∧ s.session.phase = .holding offer := by
  induction h with
  | done => exact ⟨List.not_mem_nil, fun offer hphase => .inr ⟨rfl, hphase⟩⟩
  | @next mid t deeds deed hrun hlast ih =>
    obtain ⟨hwake, hheld⟩ := ih
    have hmid := hrun.pending_or_over hs (.inl hp)
    -- in front of a record that is waited for the stop comes first
    have hnot : deed ≠ .wake := by
      rintro rfl
      cases hlast with
      | wake hphase hnot =>
        rw [hphase] at hmid
        exact hnot (.inl (hmid.resolve_right Bool.false_ne_true))
    refine ⟨fun hmem => ?_, fun offer hphase => ?_⟩
    · rcases List.mem_append.mp hmem with hbefore | hnow
      · exact hwake hbefore
      · exact hnot (List.mem_singleton.mp hnow).symm
    · have hmoves := hlast.moves (hrun.sound hs)
      have hafter : t.state.2 = .holding offer := hphase
      generalize hbefore : mid.state = before at hmoves
      generalize t.state = after at hmoves hafter
      cases hmoves with
      | aside ha =>
        have hsame : handedOver (deeds ++ [deed]) = handedOver deeds := by
          rw [handedOver_snoc, Deed.record?_of_returned? (Deed.returned?_of_aside ha)]
          exact List.append_nil _
        rw [hsame]
        exact hheld offer ((congrArg Prod.snd hbefore).trans hafter)
      | step hstepped =>
        cases hstepped with
        | offered _ _ _ => exact .inl (wait_of_phaseOf hafter)
        | exhausted _ _ => cases hafter
        | lost _ _ _ => cases hafter
        | renewed _ _ _ _ => cases hafter
        | fruitless _ _ _ _ => cases hafter
      | handOver =>
        obtain ⟨sources, phase, hvalue, -, hnone⟩ := Pump.handOver_kept _ _
        rw [hvalue] at hafter
        have hphase : phase = .holding offer := hafter
        rw [hphase] at hnone
        cases hnone
      | wake => exact absurd rfl hnot
      | finish => cases hafter
      | heed _ => cases hafter
      | heedFailing => cases hafter
      | fail => cases hafter

/-- **Any number of records may be handed over behind a stop.** If all records of some captures are
responses, a stop that is requested before the first of them may be taken after the last. -/
theorem all_after_stop {tree : FileTree} {pattern : String} {settings : Settings}
    {captures : List Bytes} (hv : settings.validate = .ok ()) (hc : Captures tree pattern captures)
    (hr : ∀ record ∈ (captures.map Record.ofCapture).flatten, record.kind = .response)
    (files : Nat → FileTree) :
    ∃ prepared s later t, (Session.prepare tree pattern settings).value = .ok prepared ∧
      Run files (begin prepared) [.request (.handle 0)] s ∧ s.stopPending = true ∧
      Run files s later t ∧
      (handedOver later).length = ((captures.map Record.ofCapture).map List.length).sum := by
  obtain ⟨sources, hs, hopened⟩ := resolveSources_of_captures hc
  obtain ⟨items, hm⟩ := Merge.exists_loop (Merge.holding_of_opened hopened)
  have hdrained := hm.drained_captures hopened
  have hprepared := Session.prepare_of_resolve hv hs
  generalize hpump : Pump.mk _ _ _ _ _ _ = pump at hprepared
  obtain rfl : pump.sources = sources := congrArg Pump.sources hpump.symm
  obtain ⟨final, hturns, -⟩ := Pump.turns_of_loop hm
  have hresponses : ∀ item ∈ items, item.2.kind = .response :=
    fun item hmem => hr item.2 (hdrained.interleaves.mem_flatten hmem)
  have hserved := serve_turns files
    (s := (begin ⟨pump, .ready, false⟩).requested (.handle 0)) hturns rfl rfl
    (.inl (pump.pacing.wait_of_responses hresponses))
  refine ⟨_, _, _, _, hprepared, .single (.request trivial), rfl, hserved, ?_⟩
  rw [handedOver_servings, List.length_map, Pacing.length_offers, hdrained.length]

def threeResponses : FileTree :=
  ⟨.directory [("a", .file (captureOf ["2 a 1\n", "2 b 2\n", "2 c 3\n"]))], []⟩

theorem captures_threeResponses :
    Captures threeResponses "*" [captureOf ["2 a 1\n", "2 b 2\n", "2 c 3\n"]] := by
  refine ⟨["a"], by cbv, by decide, ?_⟩
  have ha : threeResponses.isDirectory "a" = false := by cbv
  rw [List.filter_cons_of_pos (by rw [ha]; rfl), List.filter_nil]
  exact .cons ⟨_, by cbv, by decide, rfl⟩ .nil

/-- **What is handed over behind a stop was not waited for**, unless it was held before, and the
stop could have been taken instead. -/
theorem handed_over_after_stop (h : Run files (begin prepared) deeds s)
    (hs : s.stopPending = true) (hl : Run files s later t) :
    .wake ∉ later ∧
    ∀ early n record late, later = early ++ .returns n (.ok (some record)) :: late →
      ∃ mid offer cancelled, Run files s early mid ∧ mid.session.phase = .holding offer ∧
        offer.record = record ∧ n ∈ mid.blocked ∧ mid.stopPending = true ∧
        Step files mid .heed cancelled ∧
        (offer.wait = none ∨ handedOver early = [] ∧ s.session.phase = .holding offer) := by
  have hsound := h.sound (sound_begin prepared)
  refine ⟨(hl.held_after_stop hsound hs).1, ?_⟩
  rintro early n record late rfl
  obtain ⟨mid, hearly, hlate⟩ := hl.split
  obtain ⟨next, hstep, -⟩ := hlate.uncons
  cases hstep with
  | @handOver offer _ hphase hn =>
    have hpending : mid.stopPending = true := by
      refine (hearly.pending_or_over hsound (.inl hs)).resolve_right fun hover => ?_
      rw [hphase] at hover
      cases hover
    exact ⟨mid, offer, _, hearly, hphase, rfl, hn, hpending,
      .heed (by rw [hphase]; rfl) (.inl hpending),
      (hearly.held_after_stop hsound hs).2 offer hphase⟩

/-- Behind one request that is pending from the start all three responses are handed over, and
before each of them the stop could have been taken. -/
theorem handed_over_after_stop_three :
    ∃ prepared s later t, (Session.prepare threeResponses "*" {}).value = .ok prepared ∧
      Run (fun _ => threeResponses) (begin prepared) [.request (.handle 0)] s ∧
      s.stopPending = true ∧ Run (fun _ => threeResponses) s later t ∧
      (handedOver later).length = 3 ∧ .wake ∉ later ∧
      ∀ early n record late, later = early ++ .returns n (.ok (some record)) :: late →
        ∃ mid offer cancelled, Run (fun _ => threeResponses) s early mid ∧
          mid.session.phase = .holding offer ∧ offer.record = record ∧
          Step (fun _ => threeResponses) mid .heed cancelled := by
  obtain ⟨prepared, s, later, t, hp, hrun, hpending, hlater, hcount⟩ :=
    @all_after_stop threeResponses "*" {} _ rfl captures_threeResponses (by decide +kernel)
      fun _ => threeResponses
  obtain ⟨hwake, hraced⟩ := handed_over_after_stop hrun hpending hlater
  refine ⟨prepared, s, later, t, hp, hrun, hpending, hlater, hcount.trans (by decide +kernel),
    hwake, fun early n record late hsplit => ?_⟩
  obtain ⟨mid, offer, cancelled, hearly, hphase, hrecord, -, -, hheed, -⟩ :=
    hraced early n record late hsplit
  exact ⟨mid, offer, cancelled, hearly, hphase, hrecord, hheed⟩

/-- **More than one record may be handed over behind a stop.** -/
theorem not_one_after_stop :
    ¬ ∀ (tree : FileTree) (pattern : String) (settings : Settings) (files : Nat → FileTree)
        (prepared : Session) (deeds later : List Deed) (s t : Exchange),
      (Session.prepare tree pattern settings).value = .ok prepared →
      Run files (begin prepared) deeds s → s.stopPending = true → Run files s later t →
      (handedOver later).length ≤ 1 := by
  intro hone
  obtain ⟨prepared, s, later, t, hp, hrun, hpending, hlater, hcount⟩ :=
    @all_after_stop threeResponses "*" {} _ rfl captures_threeResponses (by decide +kernel)
      fun _ => threeResponses
  have hle := hone _ _ _ _ prepared _ later s t hp hrun hpending hlater
  rw [hcount] at hle
  exact absurd hle (by decide +kernel)

end Exchange

end TrafficReplay
