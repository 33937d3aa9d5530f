/-
# One hand-off for each item

A single reader who never asks for a stop is told the results of `Session.soloReads`. Whatever
readers and stop requests there are, what they are told together is a beginning of that, for the
pump only ever comes to rest where the single reader would find it (`Session.rest`); what they
disturb is who is told, and when it ends (`Exchange.hands_off_once`).
-/
import TrafficReplay.Proofs.Replay.Serving
import TrafficReplay.Proofs.Replay.Solo

namespace TrafficReplay

namespace Pump

variable {files : Nat → FileTree} {prepared : Session} {state next : Pump × Phase}
  {deeds : List Deed} {deed : Deed}

/-- What was delivered so far is what a single reader is told, and as long as the pump is not done
it comes to rest where the single reader finds it. -/
structure Tracks (files : Nat → FileTree) (prepared : Session) (deeds : List Deed)
    (state : Pump × Phase) : Prop where
  reads : delivered deeds = prepared.soloReads files (delivered deeds).length
  rest : state.2.isOver = false →
    prepared.soloSession files (delivered deeds).length = prepared.moved (Session.rest files state)

theorem Tracks.keep (h : Tracks files prepared deeds state) (hd : deed.delivery? = none)
    (hr : next.2.isOver = false →
      state.2.isOver = false ∧ Session.rest files state = Session.rest files next) :
    Tracks files prepared (deeds ++ [deed]) next := by
  have hsame : delivered (deeds ++ [deed]) = delivered deeds := by
    rw [delivered_snoc, hd]
    exact List.append_nil _
  refine ⟨?_, fun hover => ?_⟩
  · rw [hsame]
    exact h.reads
  · obtain ⟨hbefore, hrest⟩ := hr hover
    rw [hsame, ← hrest]
    exact h.rest hbefore

theorem Tracks.deliver (h : Tracks files prepared deeds state) {result : ReadResult}
    {after : Pump × Phase} (hd : deed.delivery? = some result)
    (hn : prepared.soloNext files (delivered deeds).length = (result, prepared.moved after))
    (hr : next.2.isOver = false → after = Session.rest files next) :
    Tracks files prepared (deeds ++ [deed]) next := by
  have hmore : delivered (deeds ++ [deed]) = delivered deeds ++ [result] := by
    rw [delivered_snoc, hd]
    rfl
  have hlength : (delivered (deeds ++ [deed])).length = (delivered deeds).length + 1 := by
    rw [hmore, List.length_append]
    rfl
  refine ⟨?_, fun hover => ?_⟩
  · rw [hlength, hmore, Session.soloReads_succ, hn, ← h.reads]
  · rw [hlength, Session.soloSession_succ, hn, ← hr hover]

theorem Tracks.step (h : Tracks files prepared deeds state) (hm : Moves files state deed next) :
    Tracks files prepared (deeds ++ [deed]) next := by
  cases hm with
  | aside ha =>
    have hnone := Deed.delivery?_of_returned? (Deed.returned?_of_aside ha)
    exact h.keep hnone fun hover => ⟨hover, rfl⟩
  | finish => exact h.keep rfl fun hover => nomatch hover
  | step hstepped => exact h.keep rfl fun _ => ⟨rfl, Session.rest_of_stepped hstepped⟩
  | wake => exact h.keep rfl fun _ => ⟨rfl, rfl⟩
  | heed _ => exact h.keep rfl fun hover => nomatch hover
  | heedFailing => exact h.keep rfl fun hover => nomatch hover
  | handOver => exact h.deliver rfl (Session.soloNext_of_offer rfl (h.rest rfl)) fun _ => rfl
  | fail => exact h.deliver rfl (Session.soloNext_of_failing (h.rest rfl)) fun hover =>
      nomatch hover

theorem tracks_begin (files : Nat → FileTree) (prepared : Session) :
    Tracks files prepared [] (prepared.pump, prepared.phase) :=
  ⟨rfl, fun _ => rfl⟩

/-- What was delivered are the records that were handed over, and the error if one was read. -/
theorem Said.delivered {error? : Option ReplayError} {more : Nat} (h : Said deeds error? more) :
    delivered deeds = (handedOver deeds).map (fun record => .ok (some record))
      ++ error?.toList.map .error := by
  have hrecords (records : List Record) :
      (records.map fun record => (.ok (some record) : ReadResult)).filterMap item?
        = records.map fun record => .ok (some record) := by
    rw [List.filterMap_map]
    exact congrFun List.filterMap_eq_map records
  have herror : (error?.toList.map (.error : ReplayError → ReadResult)).filterMap item?
      = error?.toList.map .error := by
    cases error? with
    | none => rfl
    | some error => rfl
  have hnothing : (List.replicate more (.ok none : ReadResult)).filterMap item? = [] :=
    List.filterMap_eq_nil_iff.mpr fun _ hmem => by rw [List.eq_of_mem_replicate hmem]; rfl
  rw [delivered_eq, h, word, List.filterMap_append, List.filterMap_append, hrecords, herror,
    hnothing, List.append_nil]

end Pump

namespace Exchange

variable {files : Nat → FileTree} {prepared : Session} {s t : Exchange} {deeds later : List Deed}

theorem exists_run_to_rest (files : Nat → FileTree) (hs : ¬ s.StopReady) :
    ∃ deeds, Run files s deeds (s.moved (Session.rest files s.state)) ∧
      ∀ deed ∈ deeds, deed.ofPump = true := by
  refine @Session.settling files (fun state => ∀ s : Exchange, s.state = state →
      ¬ s.StopReady → ∃ deeds, Run files s deeds (s.moved (Session.rest files state)) ∧
        ∀ deed ∈ deeds, deed.ofPump = true) ?_ ?_ s.state s rfl hs
  · intro pump phase hphase s hstate hs
    rw [Session.rest_of_ne_ready hphase]
    cases phase with
    | ready => exact absurd rfl hphase
    | waiting offer =>
      obtain ⟨rfl, hwaiting⟩ := Prod.mk.inj hstate
      exact ⟨[.wake], .single (.wake hwaiting hs), by simp [Deed.ofPump]⟩
    | holding offer => exact ⟨[], hstate ▸ .done, by simp⟩
    | failing error => exact ⟨[], hstate ▸ .done, by simp⟩
    | ended reason => exact ⟨[], hstate ▸ .done, by simp⟩
  · intro pump reopening next hstepped ih s hstate hs
    rw [Session.rest_of_stepped hstepped]
    obtain ⟨deeds, hrun, hall⟩ := ih (s.moved next) rfl hs
    refine ⟨.step reopening :: deeds, .cons (.ofStepped hstate hstepped) hrun, ?_⟩
    intro deed hmem
    rcases List.mem_cons.mp hmem with rfl | hlater
    · rfl
    · exact hall deed hlater

def solo (files : Nat → FileTree) (prepared : Session) (n : Nat) : Exchange :=
  ⟨prepared.soloSession files n, false, n, [], .inUse⟩

theorem of_ofPump (h : ∀ deed ∈ deeds, deed.ofPump = true) :
    returned deeds = [] ∧ ∀ who, .request who ∉ deeds := by
  refine ⟨List.filterMap_eq_nil_iff.mpr fun deed hmem => ?_, fun who hmem => nomatch h _ hmem⟩
  have hdeed := h deed hmem
  cases deed with
  | returns n result => cases hdeed
  | _ => rfl

theorem exists_solo_read (files : Nat → FileTree) (prepared : Session) (n : Nat) :
    ∃ deeds, Run files (solo files prepared n) deeds (solo files prepared (n + 1)) ∧
      (∀ who, .request who ∉ deeds) ∧
      returned deeds = [(n, (prepared.soloNext files n).1)] := by
  obtain ⟨state, hstate⟩ := prepared.soloSession_atRest files n
  have hmoved (next : Pump × Phase) :
      (prepared.soloSession files n).moved next = prepared.moved next := by
    rw [hstate]
    rfl
  rw [solo, solo, Session.soloSession_succ]
  rcases Session.rest_resting files state with
    ⟨pump, offer, hrest⟩ | ⟨pump, error, hrest⟩ | ⟨pump, reason, hrest⟩
  · rw [hrest] at hstate
    have hoffer : (Phase.holding offer).offer? = some offer := rfl
    rw [Session.soloNext_of_offer hoffer hstate]
    have hread := call_holding files (s := solo files prepared n)
      (congrArg (fun session : Session => (session.pump, session.phase)) hstate) rfl
    obtain ⟨deeds, hrun, hall⟩ := exists_run_to_rest files
      (s := ⟨prepared.moved (pump.handOver offer).value, false, n + 1, [], .inUse⟩)
      (by simp [StopReady])
    obtain ⟨hreturned, hrequest⟩ := of_ofPump hall
    rw [solo, hmoved] at hread
    refine ⟨_, hread.append hrun, fun who hmem => ?_, ?_⟩
    · rcases List.mem_append.mp hmem with hfirst | hlater
      · simp at hfirst
      · exact hrequest who hlater
    · rw [returned_append, hreturned]
      rfl
  · rw [hrest] at hstate
    rw [Session.soloNext_of_failing hstate]
    have hread := call_failing files (s := solo files prepared n)
      (congrArg (fun session : Session => (session.pump, session.phase)) hstate) rfl
    rw [solo, hmoved] at hread
    exact ⟨_, hread, by simp, rfl⟩
  · rw [hrest] at hstate
    rw [Session.soloNext_of_ended hstate]
    exact ⟨_, call_ended (s := solo files prepared n) (congrArg Session.phase hstate) rfl, by simp,
      rfl⟩

/-- **What a single reader is told can be told**: its calls return one after the other, and nobody
requests a stop. -/
theorem exists_solo_run (files : Nat → FileTree) (prepared : Session) (n : Nat) :
    ∃ deeds, Run files (begin prepared) deeds (solo files prepared n) ∧
      (∀ who, .request who ∉ deeds) ∧
      returned deeds = (List.range n).zip (prepared.soloReads files n) := by
  induction n with
  | zero =>
    obtain ⟨deeds, hrun, hall⟩ := exists_run_to_rest files (s := begin prepared)
      (by simp [StopReady, begin])
    obtain ⟨hreturned, hrequest⟩ := of_ofPump hall
    exact ⟨deeds, hrun, hrequest, hreturned⟩
  | succ n ih =>
    obtain ⟨deeds, hrun, hrequest, hreturned⟩ := ih
    obtain ⟨later, hread, hrequest', hreturned'⟩ := exists_solo_read files prepared n
    refine ⟨deeds ++ later, hrun.append hread, fun who hmem => ?_, ?_⟩
    · rcases List.mem_append.mp hmem with hbefore | hlater
      · exact hrequest who hbefore
      · exact hrequest' who hlater
    · have hlength : (List.range n).length = (prepared.soloReads files n).length := by
        rw [List.length_range, Session.length_soloReads]
      rw [returned_append, hreturned, hreturned', Session.soloReads_succ, List.range_succ,
        List.zip_append hlength]
      rfl

/-! ## Any number of readers -/

theorem Run.tracks (h : Run files (begin prepared) deeds s) :
    Pump.Tracks files prepared deeds s.state :=
  h.follow (sound_begin prepared) Pump.Tracks.step (Pump.tracks_begin files prepared)

theorem Run.returns_of_ended (h : Run files s later t) (hs : s.Sound) {reason : StopReason}
    (hphase : s.session.phase = .ended reason) {n : Nat} {result : ReadResult}
    (hmem : .returns n result ∈ later) : result = .ok none := by
  rcases (h.of_ended hs hphase).2 _ hmem with haside | ⟨m, hreturn⟩
  · cases haside
  · cases hreturn
    rfl

theorem Run.delivered_of_ended (h : Run files s later t) (hs : s.Sound) {reason : StopReason}
    (hphase : s.session.phase = .ended reason) : delivered later = [] := by
  refine List.filterMap_eq_nil_iff.mpr fun deed hmem => ?_
  rcases (h.of_ended hs hphase).2 _ hmem with haside | ⟨m, rfl⟩
  · exact Deed.delivery?_of_returned? (Deed.returned?_of_aside haside)
  · rfl

/-- The record that is on its way when a stop is taken would have been the next one, and is lost. -/
theorem Run.cancelled (h : Run files (begin prepared) deeds s) {offer : Offer}
    {cancelled : Exchange}
    (ho : s.session.phase.offer? = some offer) (hstep : Step files s .heed cancelled) :
    prepared.soloReads files ((delivered deeds).length + 1)
        = delivered deeds ++ [.ok (some offer.record)] ∧
      ∀ later t, Run files cancelled later t → delivered later = [] := by
  have hsound := h.sound (sound_begin prepared)
  have hover : s.session.phase.isOver = false := Phase.isOver_of_offer? ho
  have hnext := Session.soloNext_of_offer ho (h.tracks.rest hover)
  constructor
  · rw [Session.soloReads_succ, hnext, ← h.tracks.reads]
  · intro later t hlater
    obtain ⟨reason, hphase⟩ := hstep.ended_of_heed hsound
    exact hlater.delivered_of_ended (hstep.sound hsound) hphase

/-- **Every item is handed over once.** Readers, stop requests and moves of the pump may come in any
order, and the files may be like anything at the start and at each restart. What was delivered so
far, in the order of the hand-offs, is a beginning of what a single reader would be told: records,
and one error at most behind them. Each item has gone to one call, and as many records were counted
as were handed over. The record that the pump has on its way when it takes a stop is the next one in
that order, and nobody is given it. Once the pump is done, every read only learns that. -/
theorem hands_off_once {tree : FileTree} {pattern : String} {settings : Settings}
    (hp : (Session.prepare tree pattern settings).value = .ok prepared)
    (h : Run files (begin prepared) deeds s) :
    delivered deeds = prepared.soloReads files (delivered deeds).length ∧
    (∃ error? : Option ReplayError, delivered deeds
      = (handedOver deeds).map (fun record => .ok (some record)) ++ error?.toList.map .error) ∧
    s.session.pump.emitted = (handedOver deeds).length ∧
    ((returned deeds).map (·.1)).Nodup ∧
    (∀ n ∈ (returned deeds).map (·.1), .call n ∈ deeds) ∧
    (∀ offer cancelled, s.session.phase.offer? = some offer → Step files s .heed cancelled →
      prepared.soloReads files ((delivered deeds).length + 1)
          = delivered deeds ++ [.ok (some offer.record)] ∧
        ∀ later t, Run files cancelled later t → delivered later = []) ∧
    (∀ reason, s.session.phase = .ended reason →
      (∀ later t, Run files s later t → ∀ n result, .returns n result ∈ later →
        result = .ok none) ∧
      (∀ n ∈ s.blocked, Step files s (.returns n (.ok none)) (s.answered n)) ∧
      (s.standing = .inUse →
        ∃ t, Run files s [.call s.calls, .returns s.calls (.ok none)] t)) ∧
    ∀ n, ∃ solo t, Run files (begin prepared) solo t ∧ (∀ who, .request who ∉ solo) ∧
      returned solo = (List.range n).zip (prepared.soloReads files n) := by
  obtain ⟨sources, -, rfl⟩ := Session.of_prepare hp
  have haccount := h.account rfl
  have hsound := h.sound (sound_begin _)
  have hcalled := h.called (called_begin _)
  obtain ⟨error?, more, hsaid⟩ := haccount.spoken.exists_said
  refine ⟨h.tracks.reads, ⟨error?, hsaid.delivered⟩, ?_, ?_, ?_, fun _ _ => h.cancelled,
    fun reason hphase => ⟨?_, ?_, ?_⟩, fun n => ?_⟩
  · exact haccount.tally.emitted.trans (Nat.zero_add _)
  · exact (List.nodup_append.mp hcalled.once).1
  · intro n hmem
    exact (hcalled.made n).mpr (hcalled.known n (List.mem_append_left _ hmem))
  · exact fun later t hlater n result => hlater.returns_of_ended hsound hphase
  · exact fun n hn => .finish hphase hn
  · exact fun hu => ⟨_, call_ended hphase hu⟩
  · obtain ⟨solo, hsolo, hrequest, hreturned⟩ := exists_solo_run files _ n
    exact ⟨solo, _, hsolo, hrequest, hreturned⟩

/-- Of two calls the later one is given the first record, and then a handle requests a stop: the
second record is on its way, and neither call nor any other will see it. -/
theorem hands_off_once_two :
    ∃ prepared deeds s cancelled first second,
      (Session.prepare twoCaptures "*" {}).value = .ok prepared ∧
      Run (fun _ => twoCaptures) (begin prepared) deeds s ∧
      returned deeds = [(1, .ok (some first))] ∧ s.blocked = [0] ∧
      Step (fun _ => twoCaptures) s .heed cancelled ∧
      prepared.soloReads (fun _ => twoCaptures) 2 = [.ok (some first), .ok (some second)] ∧
      ∀ later t, Run (fun _ => twoCaptures) cancelled later t → delivered later = [] := by
  obtain ⟨sources, hs, hopened⟩ := resolveSources_of_captures captures_twoCaptures
  obtain ⟨items, hm⟩ := Merge.exists_loop (Merge.holding_of_opened hopened)
  have hsix : items.length = 6 := (hm.drained_captures hopened).length.trans (by decide +kernel)
  have hp := @Session.prepare_of_resolve "*" _ {} _ rfl hs
  generalize hpump : Pump.mk _ _ _ _ _ _ = pump at hp
  obtain rfl : pump.sources = sources := congrArg Pump.sources hpump.symm
  generalize (fun _ : Nat => twoCaptures) = files
  cases hm with
  | done _ => cases hsix
  | @next _ after i first items ht hm =>
    cases hm with
    | done _ => cases hsix
    | @next _ _ j second _ ht' _ =>
      have hcalls : Run files (begin ⟨pump, .ready, false⟩) [.call 0, .call 1]
          ⟨⟨pump, .ready, false⟩, false, 2, [1, 0], .inUse⟩ :=
        .cons (.call rfl) (.single (.call rfl))
      have hnow : (pump.offerOf i first).wait = none := by
        rw [← hpump]
        exact Pacing.wait?_new _ _ _
      have hgiven := hcalls.append (hand_turn (n := 1) ht rfl List.mem_cons_self hnow)
      generalize hlater : Exchange.moved _ _ = later at hgiven
      have hstate : later.state = (pump.afterTurn first after, .ready) := by
        rw [← hlater]
        rfl
      obtain ⟨taken, hoffer, -⟩ := exists_offer files ht' hstate
      generalize hheld : later.moved _ = held at hoffer
      have hphase : held.session.phase
          = Pump.phaseOf ((pump.afterTurn first after).offerOf j second) := by
        rw [← hheld]
        rfl
      have hrequest := @Step.request files held (.handle 7) trivial
      have hpending : (held.requested (.handle 7)).stopPending = true := by
        simp only [requested, hphase, Pump.isOver_phaseOf, Bool.not_false, Bool.or_true]
      have hheed := @Step.heed files (held.requested (.handle 7))
        (hphase ▸ Pump.heeds_phaseOf _) (.inl hpending)
      have hrun := hgiven.append (.cons hoffer (.single hrequest))
      have hblocked : (held.requested (.handle 7)).blocked = [0] := by
        rw [← hheld, ← hlater]
        rfl
      obtain ⟨-, -, -, -, -, hlost, -⟩ := hands_off_once hp hrun
      obtain ⟨htwo, hnobody⟩ := hlost _ _ (hphase ▸ Pump.offer?_phaseOf _) hheed
      exact ⟨_, _, _, _, first, second, hp, hrun, rfl, hblocked, hheed, htwo, hnobody⟩

end Exchange

end TrafficReplay
