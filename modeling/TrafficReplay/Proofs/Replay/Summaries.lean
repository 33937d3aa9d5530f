/-
# Summaries

What the first who waits for a session is told about it, against the whole of what has happened
(`Exchange.summary_true`). The counts are those of the deeds. A replay that is exhausted has handed
over all that its captures had to give, in every round. A replay is cancelled, or keeps an error to
itself, only after a stop was requested and taken; every other error was read, and its text is in
the summary.
-/
import TrafficReplay.Proofs.Merge.Cut
import TrafficReplay.Proofs.Replay.Account
import TrafficReplay.Proofs.Replay.Serving

namespace TrafficReplay

/-- A stop was requested, and the pump took it then. -/
def Stopped (deeds : List Deed) : Prop :=
  ∃ before after who, deeds = before ++ .heed :: after ∧ .request who ∈ before

/-- The records that were handed over are all that the openings of captures had to give. -/
def GaveAll (openings : List (List Source)) (records : List Record) : Prop :=
  ∃ rounds, List.Forall₂ Merge.Empties openings rounds ∧ records = rounds.flatten.map (·.2)

namespace Pump

variable {first : Pump} {deeds : List Deed} {state : Pump × Phase}

theorem Whole.gaveAll {openings : List (List Source)} {records : List Record}
    (h : Whole openings records)
    (ho : ∀ sources ∈ openings, ∃ contents, Stocked sources contents) :
    GaveAll openings records := by
  obtain ⟨rounds, hrounds, hrecords⟩ := h
  refine ⟨rounds, ?_, hrecords⟩
  clear hrecords
  induction hrounds with
  | nil => exact .nil
  | @cons sources items openings rounds hloop _ ih =>
    obtain ⟨contents, hstocked⟩ := ho sources List.mem_cons_self
    exact .cons (hloop.empties hstocked)
      (ih fun others hmem => ho others (List.mem_cons_of_mem _ hmem))

/-- **An exhausted pump has handed everything over**, and has nothing to open anew. -/
theorem Account.exhausted (h : Account first deeds state) (hs : state.2 = .ended .exhausted)
    (hf : ∃ contents, Stocked first.sources contents) :
    GaveAll (openingsOf first deeds) (handedOver deeds) ∧
      (first.looping = false ∨ ∃ past sources, reopenings deeds = past ++ [sources] ∧
        ∀ source ∈ sources, source.lookahead = none) := by
  obtain ⟨pump, phase⟩ := state
  cases hs
  have hopened : ∀ sources ∈ openingsOf first deeds, ∃ contents, Stocked sources contents := by
    intro sources hmem
    rcases List.mem_cons.mp hmem with rfl | hlater
    · exact hf
    · obtain ⟨tree, hresolved⟩ := h.tally.opened sources hlater
      exact stocked_of_resolveSources hresolved
  cases h.stage with
  | onItsWay _ _ ho => cases ho
  | brokenOff hne => exact absurd rfl hne
  | exhausted hwhole hlast =>
    refine ⟨hwhole.gaveAll hopened, ?_⟩
    cases hl : first.looping with
    | false => exact .inl rfl
    | true =>
      obtain ⟨past, sources, hne, heq, hnone⟩ := hlast hl
      obtain ⟨begun, past, rfl⟩ := List.exists_cons_of_ne_nil hne
      exact .inr ⟨past, sources, (List.cons.inj heq).2, Merge.lookahead_of_select_none hnone⟩

end Pump

namespace Pump

variable {deeds : List Deed} {reason : StopReason}

/-- The reason that belongs to what the reads were told: an error that was read, and no other, is
the reason, and what ended without it ended as it should or because of a stop. -/
structure Reasoned (deeds : List Deed) (reason : StopReason) : Prop where
  cancelled : reason = .cancelled → .heed ∈ deeds
  told : ∀ n error, .returns n (.error error) ∈ deeds → reason = .failed error.message
  failed : ∀ message, reason = .failed message → ∃ error, error.message = message ∧
    ((∃ n, .returns n (.error error) ∈ deeds) ∨
      (∀ n other, .returns n (.error other) ∉ deeds) ∧ .heed ∈ deeds)
  connected : reason ≠ .disconnected

theorem Spoken.reasoned (h : Spoken deeds (.ended reason)) : Reasoned deeds reason := by
  have hunread : ∀ {more n error}, Said deeds none more → .returns n (.error error) ∉ deeds :=
    fun hsaid hmem => nomatch (hsaid.mem_error _).mp ⟨_, hmem⟩
  cases h with
  | going hover _ => cases hover
  | exhausted hsaid =>
    exact { cancelled := (nomatch ·), told := fun _ _ hmem => absurd hmem (hunread hsaid)
            failed := fun _ h => (nomatch h), connected := (nomatch ·) }
  | cancelled hsaid hheed =>
    exact { cancelled := fun _ => hheed, told := fun _ _ hmem => absurd hmem (hunread hsaid)
            failed := fun _ h => (nomatch h), connected := (nomatch ·) }
  | @told error more hsaid =>
    refine { cancelled := (nomatch ·), told := fun n other hmem => ?_
             failed := fun message h => ?_, connected := (nomatch ·) }
    · cases (hsaid.mem_error other).mp ⟨n, hmem⟩
      rfl
    · exact ⟨error, StopReason.failed.inj h, .inl ((hsaid.mem_error error).mpr rfl)⟩
  | @untold error more hsaid hheed =>
    refine { cancelled := (nomatch ·), told := fun _ _ hmem => absurd hmem (hunread hsaid)
             failed := fun message h => ?_, connected := (nomatch ·) }
    exact ⟨error, StopReason.failed.inj h, .inr ⟨fun _ _ => hunread hsaid, hheed⟩⟩

end Pump

namespace Exchange

variable {files : Nat → FileTree} {prepared : Session} {s : Exchange} {deeds : List Deed}

theorem Run.stopped (h : Run files (begin prepared) deeds s) (hheed : .heed ∈ deeds) :
    Stopped deeds := by
  obtain ⟨before, after, rfl⟩ := List.append_of_mem hheed
  obtain ⟨mid, hbefore, hafter⟩ := h.split
  obtain ⟨next, hstep, -⟩ := hafter.uncons
  have hpending := hstep.pending_of_heed (hbefore.sound (sound_begin prepared))
  rcases hbefore.requested hpending with hbegin | ⟨who, hwho⟩
  · cases hbegin
  · exact ⟨before, after, who, rfl, hwho⟩

/-- Who asks first is told what the pump has counted, and nobody after that. By then the pump is
done and has taken any stop that it takes. -/
theorem Run.collect_first {early late : List Deed} {answer : Option Summary}
    (h : Run files (begin prepared) (early ++ .collect answer :: late) s)
    (hc : prepared.collected = false) (hearly : collections early = []) :
    ∃ reason, s.session.phase = .ended reason ∧ answer = some (s.session.pump.summary reason) ∧
      (∀ other ∈ collections late, other = none) ∧
      (.heed ∈ early ++ .collect answer :: late → Stopped early) := by
  obtain ⟨mid, hmid, hafter⟩ := h.split
  obtain ⟨next, hstep, hlate⟩ := hafter.uncons
  have hsound := hmid.sound (sound_begin prepared)
  cases hstep with
  | @collect reason hphase hu _ =>
    -- nobody asked before, and the session was not given up
    have hfresh : mid.session.collected = false := by
      by_contra hcollected
      rcases hmid.collected_begin hc (Bool.eq_true_of_not_eq_false hcollected) with hne | hgone
      · exact hne hearly
      · rw [hu] at hgone
        cases hgone
    have hwait := wait_of_ended hphase
    rw [hfresh] at hwait
    obtain ⟨hsame, hrest⟩ := hafter.of_ended hsound hphase
    obtain ⟨hpump, hphase'⟩ := Prod.mk.inj hsame
    refine ⟨reason, hphase'.trans hphase, ?_, (hlate.collected ?_).2, fun hheed => ?_⟩
    · rw [hpump]
      exact congrArg Prod.fst hwait
    · rw [hwait]
    · rcases List.mem_append.mp hheed with hbefore | hbehind
      · exact hmid.stopped hbefore
      · rcases hrest _ hbehind with haside | ⟨n, hreturn⟩
        · cases haside
        · cases hreturn

/-- **The summary tells the truth.** Whatever the files are like at the start and at each restart,
and in whatever order reads, stop requests and moves of the pump come: what the reads return are
records, then one error at most, then only the end, and the first who asks for the summary is given
one that agrees with all that has happened; everybody after that is given none. -/
theorem summary_true {tree : FileTree} {pattern : String} {settings : Settings}
    (hp : (Session.prepare tree pattern settings).value = .ok prepared)
    (h : Run files (begin prepared) deeds s) :
    (∃ error? more, (returned deeds).map (·.2) = Pump.word (handedOver deeds) error? more) ∧
    ∀ early answer late, deeds = early ++ .collect answer :: late → collections early = [] →
      (∀ other ∈ collections late, other = none) ∧
      ∃ summary, answer = some summary ∧ summary.openSources = 0 ∧
        summary.emitted = (handedOver deeds).length ∧
        summary.restarts = (reopenings deeds).length ∧
        (summary.reason = .exhausted →
          GaveAll (prepared.pump.sources :: reopenings deeds) (handedOver deeds) ∧
          (settings.looping = false ∨ ∃ past sources, reopenings deeds = past ++ [sources] ∧
            ∀ source ∈ sources, source.lookahead = none)) ∧
        (summary.reason = .cancelled → Stopped early) ∧
        (∀ n error, .returns n (.error error) ∈ deeds → summary.reason = .failed error.message) ∧
        (∀ message, summary.reason = .failed message → ∃ error, error.message = message ∧
          ((∃ n, .returns n (.error error) ∈ deeds) ∨
            (∀ n other, .returns n (.error other) ∉ deeds) ∧ Stopped early)) ∧
        summary.reason ≠ .disconnected := by
  obtain ⟨sources, hresolved, rfl⟩ := Session.of_prepare hp
  have haccount := h.account rfl
  refine ⟨haccount.spoken.exists_said, ?_⟩
  rintro early answer late rfl hearly
  obtain ⟨reason, hphase, rfl, hlate, hstopped⟩ := h.collect_first rfl hearly
  have hspoken := haccount.spoken
  rw [state, hphase] at hspoken
  have hreason := hspoken.reasoned
  refine ⟨hlate, _, rfl, ?_, ?_, ?_, ?_, fun h => hstopped (hreason.cancelled h), hreason.told,
    fun message h => ?_, hreason.connected⟩
  · have hclosed := haccount.tally.closed (Phase.isOver_iff.mpr ⟨reason, hphase⟩)
    rw [Pump.summary, List.length_eq_zero_iff, List.filter_eq_nil_iff]
    exact fun source hmem hopen =>
      absurd ((hclosed source hmem).symm.trans hopen) Bool.false_ne_true
  · exact haccount.tally.emitted.trans (Nat.zero_add _)
  · exact haccount.tally.restarts.trans (Nat.zero_add _)
  · intro hexhausted
    exact haccount.exhausted (hphase.trans (congrArg Phase.ended hexhausted))
      (stocked_of_resolveSources hresolved)
  · obtain ⟨error, hmessage, hread⟩ := hreason.failed message h
    exact ⟨error, hmessage, hread.imp_right (And.imp_right hstopped)⟩

/-- Six records are read, and then the first who asks is told so. -/
theorem summary_true_two :
    ∃ prepared deeds s, (Session.prepare twoCaptures "*" {}).value = .ok prepared ∧
      Run (fun _ => twoCaptures) (begin prepared) deeds s ∧
      collections deeds = [some ⟨6, 0, .exhausted, 0⟩] ∧
      GaveAll [prepared.pump.sources] (handedOver deeds) := by
  obtain ⟨prepared, items, pump, count, early, hp, -, hlength, hrun, hhanded, hopened, hasked⟩ :=
    @exists_whole_run twoCaptures "*" {} _ rfl rfl captures_twoCaptures fun _ => twoCaptures
  obtain ⟨s, hcollect⟩ : ∃ s, Run (fun _ => twoCaptures) (begin prepared)
      (early ++ [.collect (some (pump.summary .exhausted))]) s :=
    ⟨_, hrun.next (.collect rfl rfl rfl)⟩
  have hrecords : handedOver (early ++ [.collect (some (pump.summary .exhausted))])
      = items.map (·.2) := by
    rw [handedOver_snoc, hhanded]
    exact List.append_nil _
  have hreopenings : reopenings (early ++ [.collect (some (pump.summary .exhausted))]) = [] := by
    rw [reopenings_snoc, hopened]
    rfl
  obtain ⟨-, summary, hanswer, hclosed, hemitted, hrestarts, hexhausted, -⟩ :=
    (summary_true hp hcollect).2 early _ [] rfl hasked
  obtain rfl := Option.some.inj hanswer
  rw [hrecords, List.length_map, hlength] at hemitted
  rw [hreopenings] at hrestarts hexhausted
  have hsix : pump.emitted = 6 := hemitted.trans (by decide +kernel)
  have hnone : pump.restarts = 0 := hrestarts
  have hopen : (pump.sources.filter Source.isOpen).length = 0 := hclosed
  refine ⟨prepared, _, s, hp, hcollect, ?_, (hexhausted rfl).1⟩
  rw [collections_snoc, hasked, Pump.summary, hsix, hnone, hopen]
  rfl

end Exchange

end TrafficReplay
