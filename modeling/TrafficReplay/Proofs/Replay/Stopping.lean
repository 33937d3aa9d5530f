/-
# A stop ends the pump

Once a stop is pending and nobody reads, the pump is done after two more steps at most, and it needs
nobody's help for that: wherever it waits, it watches for the stop (`Exchange.stop_ends`). The
measure is what is still ahead of it (`Exchange.stepsAhead`, `Exchange.deedsAhead`). A step that
opens captures anew may leave the pump about to step again, but then a record is in hand, and the
next step comes to a place where the stop is seen. A stop is pending until it ends the pump, and a
request that finds one pending, or the pump done, leaves everything as it is
(`Exchange.requested_eq`).
-/
import TrafficReplay.Proofs.Replay.Account
import TrafficReplay.Proofs.Replay.Emission

namespace TrafficReplay

namespace Deed

def isStep : Deed → Bool
  | step _ => true
  | _ => false

theorem isStep_of_aside {deed : Deed} (h : deed.aside = true) : deed.isStep = false := by
  cases deed with
  | step reopening => cases h
  | _ => rfl

def asks : Deed → Bool
  | request .owner | request (.handle _) => true
  | _ => false

theorem returned?_of_asks {deed : Deed} (h : deed.asks = true) :
    deed.returned? = none ∧ deed.collected? = none := by
  cases deed with
  | request who => exact ⟨rfl, rfl⟩
  | _ => cases h

end Deed

theorem countP_isStep_snoc (deeds : List Deed) (deed : Deed) :
    (deeds ++ [deed]).countP Deed.isStep
      = deeds.countP Deed.isStep + (if deed.isStep then 1 else 0) := by
  rw [List.countP_append, List.countP_singleton]

namespace Exchange

variable {files : Nat → FileTree} {prepared : Session} {s t : Exchange} {deed : Deed}
  {deeds later : List Deed}

/-! ## Requests -/

theorem requested_eq (h : s.stopPending = true ∨ s.session.phase.isOver = true) {who : Requester}
    (hw : who ≠ .drop) : s.requested who = s := by
  obtain ⟨session, stopPending, calls, blocked, standing⟩ := s
  have hpending : (stopPending || !session.phase.isOver) = stopPending := by
    rcases h with hp | ho
    · have hp : stopPending = true := hp
      rw [hp, Bool.true_or]
    · have ho : session.phase.isOver = true := ho
      rw [ho, Bool.not_true, Bool.or_false]
  cases who with
  | drop => exact absurd rfl hw
  | owner => simp only [requested, hpending]
  | handle n => simp only [requested, hpending]

/-- **A stop is pending until it ends the pump.** -/
theorem Step.pending_or_over (h : Step files s deed t) (hs : s.Sound)
    (hp : s.stopPending = true ∨ s.session.phase.isOver = true) :
    t.stopPending = true ∨ t.session.phase.isOver = true := by
  rcases hp with hpending | hover
  · cases h with
    | heed hheeds hready =>
      exact .inr (Phase.isOver_iff.mpr ((@Step.heed files _ hheeds hready).ended_of_heed hs))
    | request _ =>
      refine .inl ?_
      show (s.stopPending || _) = true
      rw [hpending, Bool.true_or]
    | _ => exact .inl hpending
  · exact .inr (h.over_of_over hs hover)

theorem Run.pending_or_over (h : Run files s later t) (hs : s.Sound)
    (hp : s.stopPending = true ∨ s.session.phase.isOver = true) :
    t.stopPending = true ∨ t.session.phase.isOver = true := by
  induction h with
  | done => exact hp
  | next hrun hlast ih => exact hlast.pending_or_over (hrun.sound hs) ih

theorem Run.without_requests (h : Run files s later t) (hs : s.Sound)
    (hp : s.stopPending = true ∨ s.session.phase.isOver = true) :
    Run files s (later.filter fun deed => !deed.asks) t := by
  induction h with
  | done => exact .done
  | @next mid t deeds deed hrun hlast ih =>
    rw [List.filter_append]
    cases hasks : deed.asks with
    | false =>
      rw [List.filter_cons_of_pos (by rw [hasks]; rfl), List.filter_nil]
      exact .next ih hlast
    | true =>
      rw [List.filter_cons_of_neg (by rw [hasks]; exact Bool.false_ne_true), List.filter_nil,
        List.append_nil]
      have hsame : t = mid := by
        have hmid := hrun.pending_or_over hs hp
        cases hlast with
        | @request who _ =>
          refine requested_eq hmid fun hdrop => ?_
          rw [hdrop] at hasks
          cases hasks
        | _ => cases hasks
      rw [hsame]
      exact ih

theorem Run.with_request {early late : List Deed} (h : Run files s (early ++ late) t) (hs : s.Sound)
    (hp : s.stopPending = true ∨ s.session.phase.isOver = true) (n : Nat) :
    Run files s (early ++ .request (.handle n) :: late) t := by
  obtain ⟨mid, hearly, hlate⟩ := h.split
  have hrequest : Step files mid (.request (.handle n)) mid := by
    have hstep := @Step.request files mid (.handle n) trivial
    rwa [requested_eq (hearly.pending_or_over hs hp) (by simp)] at hstep
  exact hearly.append (.cons hrequest hlate)

theorem filterMap_without_requests {α : Type} {f : Deed → Option α}
    (hf : ∀ deed : Deed, deed.asks = true → f deed = none) (deeds : List Deed) :
    (deeds.filter fun deed => !deed.asks).filterMap f = deeds.filterMap f := by
  rw [List.filterMap_filter]
  refine List.filterMap_congr fun deed _ => ?_
  cases hasks : deed.asks with
  | false => rfl
  | true => exact (hf deed hasks).symm

/-! ## The end -/

def stepsAhead : Pump × Phase → Nat
  | (pump, .ready) => if Merge.select pump.sources = none then 2 else 1
  | (_, .waiting _) | (_, .holding _) | (_, .failing _) | (_, .ended _) => 0

def deedsAhead : Pump × Phase → Nat
  | (pump, .ready) => stepsAhead (pump, .ready) + 1
  | (_, .waiting _) | (_, .holding _) | (_, .failing _) => 1
  | (_, .ended _) => 0

section Ahead

variable {pump : Pump} {phase : Phase}

theorem stepsAhead_of_none (h : Merge.select pump.sources = none) :
    stepsAhead (pump, .ready) = 2 :=
  if_pos h

theorem stepsAhead_of_select {i : Nat} (h : Merge.select pump.sources = some i) :
    stepsAhead (pump, .ready) = 1 :=
  if_neg fun hnone => nomatch hnone.symm.trans h

theorem ahead_le (state : Pump × Phase) : stepsAhead state ≤ 2 ∧ deedsAhead state ≤ 3 := by
  have hready (pump : Pump) : stepsAhead (pump, .ready) ≤ 2 := by
    rw [stepsAhead]
    split
    · exact Nat.le_refl 2
    · exact Nat.le_succ 1
  obtain ⟨pump, phase⟩ := state
  cases phase with
  | ready => exact ⟨hready pump, Nat.succ_le_succ (hready pump)⟩
  | waiting offer => exact ⟨Nat.zero_le _, Nat.succ_pos 2⟩
  | holding offer => exact ⟨Nat.zero_le _, Nat.succ_pos 2⟩
  | failing error => exact ⟨Nat.zero_le _, Nat.succ_pos 2⟩
  | ended reason => exact ⟨Nat.zero_le _, Nat.zero_le _⟩

theorem ahead_of_heeds (h : phase.heeds = true) :
    stepsAhead (pump, phase) = 0 ∧ deedsAhead (pump, phase) = 1 := by
  cases phase with
  | ready => cases h
  | ended reason => cases h
  | waiting offer => exact ⟨rfl, rfl⟩
  | holding offer => exact ⟨rfl, rfl⟩
  | failing error => exact ⟨rfl, rfl⟩

theorem ahead_of_ended (h : phase.isOver = true) :
    stepsAhead (pump, phase) = 0 ∧ deedsAhead (pump, phase) = 0 := by
  obtain ⟨reason, rfl⟩ := Phase.isOver_iff.mp h
  exact ⟨rfl, rfl⟩

/-- A step leaves less ahead. Behind one that has opened captures anew there is a record in hand. -/
theorem ahead_of_stepped {tree : FileTree} {reopening : Option (Except ReplayError (List Source))}
    {next : Pump × Phase} (h : Pump.Stepped tree pump reopening next) :
    stepsAhead next < stepsAhead (pump, .ready) ∧ deedsAhead next < deedsAhead (pump, .ready) := by
  rw [deedsAhead]
  cases h with
  | @offered i source taken record hs _ _ =>
    obtain ⟨hsteps, hdeeds⟩ := @ahead_of_heeds (pump.afterTake i record taken) _
      (Pump.heeds_phaseOf (pump.offerOf i record))
    rw [hsteps, hdeeds, stepsAhead_of_select hs]
    exact ⟨Nat.one_pos, Nat.lt_succ_self 1⟩
  | exhausted hn _ =>
    rw [stepsAhead_of_none hn]
    exact ⟨Nat.two_pos, Nat.succ_pos 2⟩
  | lost hn _ _ =>
    rw [stepsAhead_of_none hn]
    exact ⟨Nat.two_pos, Nat.succ_lt_succ Nat.two_pos⟩
  | fruitless hn _ _ _ =>
    rw [stepsAhead_of_none hn]
    exact ⟨Nat.two_pos, Nat.succ_pos 2⟩
  | @renewed sources i hn _ _ hs =>
    have hone := @stepsAhead_of_select (pump.renew sources) i hs
    rw [deedsAhead, hone, stepsAhead_of_none hn]
    exact ⟨Nat.lt_succ_self 1, Nat.lt_succ_self 2⟩

end Ahead

/-- A pump that is bound to end: a stop is pending unless it has ended, and nobody reads. -/
structure Doomed (s : Exchange) : Prop where
  sound : s.Sound
  stopped : s.stopPending = true ∨ s.session.phase.isOver = true
  unread : s.blocked = []

/-- While nobody reads, all that the pump does brings it closer to its end, and nothing takes it
away from there. -/
theorem Doomed.step (h : Doomed s) (hstep : Step files s deed t) (hc : ∀ n, deed ≠ .call n) :
    Doomed t ∧ stepsAhead t.state + (if deed.isStep then 1 else 0) ≤ stepsAhead s.state ∧
      deedsAhead t.state + (if deed.ofPump then 1 else 0) ≤ deedsAhead s.state := by
  have hsound := hstep.sound h.sound
  have hstopped := hstep.pending_or_over h.sound h.stopped
  have hwaits : s.session.phase.heeds = true → s.stopPending = true := by
    intro hheeds
    refine h.stopped.resolve_right fun hover => ?_
    obtain ⟨reason, hphase⟩ := Phase.isOver_iff.mp hover
    rw [hphase] at hheeds
    cases hheeds
  have hnobody : ∀ n, n ∉ s.blocked := by
    rw [h.unread]
    exact fun n => List.not_mem_nil
  cases hstep with
  | call _ => exact absurd rfl (hc _)
  | request _ => exact ⟨⟨hsound, hstopped, h.unread⟩, Nat.le_refl _, Nat.le_refl _⟩
  | step hphase =>
    have hstate : s.state = (s.session.pump, .ready) := by rw [state, hphase]
    rw [hstate]
    exact ⟨⟨hsound, hstopped, h.unread⟩, ahead_of_stepped (Pump.stepped _ _)⟩
  | wake hphase hnot => exact absurd (.inl (hwaits (by rw [hphase]; rfl))) hnot
  | heed hheeds hready =>
    have hover := Phase.isOver_iff.mpr
      ((@Step.heed files _ hheeds hready).ended_of_heed h.sound)
    refine ⟨⟨hsound, hstopped, h.unread⟩, ?_, ?_⟩
    · rw [state, (ahead_of_ended hover).1]
      exact Nat.zero_le _
    · rw [state, (ahead_of_ended hover).2, state, (ahead_of_heeds hheeds).2]
      exact Nat.le_refl 1
  | handOver _ hn => exact absurd hn (hnobody _)
  | fail _ hn => exact absurd hn (hnobody _)
  | finish _ hn => exact absurd hn (hnobody _)
  | forsakeRecord hphase hgone =>
    have hover := h.sound hgone
    rw [hphase] at hover
    cases hover
  | forsakeError hphase hgone =>
    have hover := h.sound hgone
    rw [hphase] at hover
    cases hover
  | collect _ _ _ =>
    rw [state_waited]
    exact ⟨⟨hsound, hstopped, h.unread⟩, Nat.le_refl _, Nat.le_refl _⟩
  | release _ _ =>
    have hsame :
        Exchange.state { s with session := s.session.wait.2, standing := .gone } = s.state :=
      state_waited s
    rw [hsame]
    exact ⟨⟨hsound, hstopped, h.unread⟩, Nat.le_refl _, Nat.le_refl _⟩

theorem Doomed.run (h : Doomed s) (hrun : Run files s later t) (hc : ∀ n, .call n ∉ later) :
    Doomed t ∧ stepsAhead t.state + later.countP Deed.isStep ≤ stepsAhead s.state ∧
      deedsAhead t.state + later.countP Deed.ofPump ≤ deedsAhead s.state := by
  induction hrun with
  | done => exact ⟨h, Nat.le_refl _, Nat.le_refl _⟩
  | @next mid t deeds deed _ hlast ih =>
    obtain ⟨hmid, hsteps, hdeeds⟩ := ih fun n hmem => hc n (List.mem_append_left _ hmem)
    obtain ⟨ht, hstep, hdeed⟩ := hmid.step hlast fun n heq => hc n (by rw [heq]; simp)
    rw [List.countP_append, List.countP_append, List.countP_singleton, List.countP_singleton]
    exact ⟨ht, by omega, by omega⟩

/-- **As long as it is not done, the pump can do something by itself.** -/
theorem Doomed.exists_step (files : Nat → FileTree) (h : Doomed s)
    (hover : s.session.phase.isOver = false) :
    ∃ deed t, Step files s deed t ∧ deed.ofPump = true := by
  have hready : s.StopReady :=
    .inl (h.stopped.resolve_right fun ho => absurd (hover.symm.trans ho) Bool.false_ne_true)
  cases hphase : s.session.phase with
  | ready => exact ⟨_, _, .step hphase, rfl⟩
  | waiting offer => exact ⟨_, _, .heed (by rw [hphase]; rfl) hready, rfl⟩
  | holding offer => exact ⟨_, _, .heed (by rw [hphase]; rfl) hready, rfl⟩
  | failing error => exact ⟨_, _, .heed (by rw [hphase]; rfl) hready, rfl⟩
  | ended reason =>
    rw [hphase] at hover
    cases hover

/-- **The pump comes to its end by itself.** -/
theorem Doomed.exists_end (files : Nat → FileTree) {s : Exchange} (h : Doomed s) :
    ∃ more final, Run files s more final ∧ (∀ deed ∈ more, deed.ofPump = true) ∧
      final.session.phase.isOver = true := by
  cases hover : s.session.phase.isOver with
  | true => exact ⟨[], s, .done, fun _ hmem => absurd hmem List.not_mem_nil, hover⟩
  | false =>
    obtain ⟨deed, t, hstep, hpump⟩ := h.exists_step files hover
    obtain ⟨ht, -, hless⟩ := h.step hstep fun n heq => by rw [heq] at hpump; cases hpump
    obtain ⟨more, final, hrun, hall, hend⟩ := ht.exists_end files
    refine ⟨deed :: more, final, .cons hstep hrun, fun other hmem => ?_, hend⟩
    rcases List.mem_cons.mp hmem with rfl | hlater
    · exact hpump
    · exact hall other hlater
termination_by deedsAhead s.state
decreasing_by
  rw [if_pos hpump] at hless
  exact hless

/-- **A stop ends the pump.** Whenever a stop is pending and nobody reads any more, whatever else
happens the pump steps at most twice until it is done, needs nobody for that, and has every source
closed then. The stop is pending until then. Requests never wait, and those that come while a stop
is pending or when the pump is done change nothing: runs with and without them are the same, and so
are the reads and the summaries in them. -/
theorem stop_ends {tree : FileTree} {pattern : String} {settings : Settings}
    (hp : (Session.prepare tree pattern settings).value = .ok prepared)
    (h : Run files (begin prepared) deeds s) :
    (s.stopPending = true → s.blocked = [] →
      ∀ later t, Run files s later t → (∀ n, .call n ∉ later) →
        later.countP Deed.ofPump ≤ 3 ∧
        ∃ more final, Run files t more final ∧ (∀ deed ∈ more, deed.ofPump = true) ∧
          (later ++ more).countP Deed.isStep ≤ 2 ∧
          (∃ reason, final.session.phase = .ended reason) ∧
          ∀ source ∈ final.session.pump.sources, source.isOpen = false) ∧
    (s.stopPending = true → ∀ deed t, Step files s deed t →
      t.stopPending = true ∨ ∃ reason, t.session.phase = .ended reason) ∧
    (∀ n, ∃ t, Step files s (.request (.handle n)) t) ∧
    (s.standing = .inUse → ∃ t, Step files s (.request .owner) t) ∧
    (s.stopPending = true ∨ (∃ reason, s.session.phase = .ended reason) →
      (∀ who t, Step files s (.request who) t → who ≠ .drop → t = s) ∧
      ∀ later t, Run files s later t →
        Run files s (later.filter fun deed => !deed.asks) t ∧
        returned (later.filter fun deed => !deed.asks) = returned later ∧
        collections (later.filter fun deed => !deed.asks) = collections later ∧
        ∀ early late n, later = early ++ late →
          Run files s (early ++ .request (.handle n) :: late) t) := by
  obtain ⟨sources, -, rfl⟩ := Session.of_prepare hp
  have hsound := h.sound (sound_begin _)
  refine ⟨?_, ?_, fun n => ⟨_, .request trivial⟩, fun hu => ⟨_, .request hu⟩, ?_⟩
  · intro hpending hunread later t hlater hcalls
    have hdoomed : Doomed s := ⟨hsound, .inl hpending, hunread⟩
    obtain ⟨hsteps, hdeeds⟩ := ahead_le s.state
    obtain ⟨ht, -, hless⟩ := hdoomed.run hlater hcalls
    obtain ⟨more, final, hmore, hall, hover⟩ := ht.exists_end files
    have hrun := hlater.append hmore
    obtain ⟨-, hfew, -⟩ := hdoomed.run hrun fun n hmem => by
      rcases List.mem_append.mp hmem with hbefore | hlast
      · exact hcalls n hbefore
      · cases hall _ hlast
    have haccount := (h.append hrun).account rfl
    exact ⟨by omega, more, final, hmore, hall, by omega, Phase.isOver_iff.mp hover,
      haccount.tally.closed hover⟩
  · intro hpending deed t hstep
    exact (hstep.pending_or_over hsound (.inl hpending)).imp_right Phase.isOver_iff.mp
  · intro hstopped
    have hstopped := hstopped.imp_right Phase.isOver_iff.mpr
    refine ⟨fun who t hstep hw => ?_,
      fun later t hlater => ⟨hlater.without_requests hsound hstopped,
      ?_, ?_, fun early late n hsplit => ?_⟩⟩
    · cases hstep with
      | request _ => exact requested_eq hstopped hw
    · exact filterMap_without_requests (fun _ h => (Deed.returned?_of_asks h).1) later
    · exact filterMap_without_requests (fun _ h => (Deed.returned?_of_asks h).2) later
    · rw [hsplit] at hlater
      exact hlater.with_request hsound hstopped n

/-- A replay that would go on for ever ends by itself once a handle has requested a stop. -/
theorem stop_ends_two :
    ∃ prepared s more final,
      (Session.prepare twoCaptures "*" { looping := true }).value = .ok prepared ∧
      Step (fun _ => twoCaptures) (begin prepared) (.request (.handle 7)) s ∧
      Run (fun _ => twoCaptures) s more final ∧ (∀ deed ∈ more, deed.ofPump = true) ∧
      more.countP Deed.isStep ≤ 2 ∧ (∃ reason, final.session.phase = .ended reason) ∧
      ∀ source ∈ final.session.pump.sources, source.isOpen = false := by
  obtain ⟨sources, hs, -⟩ := resolveSources_of_captures captures_twoCaptures
  have hp := @Session.prepare_of_resolve "*" _ { looping := true } _ rfl hs
  have hrequest := @Step.request (fun _ => twoCaptures)
    (begin ⟨⟨"*", true, sources, .new ({} : Settings).speed, 0, 0⟩, .ready, false⟩)
    (.handle 7) trivial
  obtain ⟨-, more, final, hmore, hall, hfew, hend, hclosed⟩ :=
    (stop_ends hp (.single hrequest)).1 rfl rfl [] _ .done fun _ => List.not_mem_nil
  exact ⟨_, _, more, final, hp, hrequest, hmore, hall, hfew, hend, hclosed⟩

end Exchange

end TrafficReplay
