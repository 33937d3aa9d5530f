/-
# Reads of a session

A session that does not loop gives its reader one round of its pump: as long as offers are ahead,
each read returns the record of the next one, and afterwards every read says that the replay is over
(`Session.Awaits.reads`). What happens to the files between two reads makes no difference.
`Session.exists_start` starts such a session from captures that can all be read.
-/
import TrafficReplay.Proofs.Replay.Round
import TrafficReplay.Replay.Session

namespace TrafficReplay

namespace Session

/-- Reads once for each file tree, which is how the files are at that moment. -/
def reads (session : Session) : List FileTree → List ReadResult × Session
  | [] => ([], session)
  | tree :: trees =>
    let (result, next) := (session.read tree).value
    let (results, last) := next.reads trees
    (result :: results, last)

/-- However often the session is read, and whatever happens to the files meanwhile, it gives these
records in order and then nothing more. -/
def Delivers (session : Session) (records : List Record) : Prop :=
  ∀ trees, (session.reads trees).1 = (List.range trees.length).map fun n => .ok records[n]?

/-- The session holds the first of these offers, and the rest of the round is ahead; with no offers
left it is done, and its summary was not asked for. -/
inductive Awaits : Session → List Offer → Pump → Prop
  | ended {final : Pump} : Awaits ⟨final.closeAll, .ended .exhausted, false⟩ [] final
  | holding {pump next final : Pump} {offer : Offer} {offers : List Offer} :
      (pump.handOver offer).value = (next, .ready) → next.looping = false →
        Pump.Round next offers final →
      Awaits ⟨pump, .holding offer, false⟩ (offer :: offers) final

theorem elapse_phaseOf (offer : Offer) : elapse (Pump.phaseOf offer) = .holding offer := by
  rw [Pump.phaseOf]
  cases offer.wait with
  | none => rfl
  | some wait => rfl

theorem settle_of_step {tree : FileTree} {pump next : Pump} {phase : Phase}
    (h : (pump.step tree).value = (next, phase)) (hp : phase ≠ .ready) :
    (settle tree (pump, .ready)).value = (next, elapse phase) := by
  simp only [settle, Logged.value_bind, h]
  cases phase with
  | ready => exact absurd rfl hp
  | waiting offer => rfl
  | holding offer => rfl
  | failing error => rfl
  | ended reason => rfl

theorem phaseOf_ne_ready (offer : Offer) : Pump.phaseOf offer ≠ .ready := by
  intro h
  have hoffer := Pump.offer?_phaseOf offer
  rw [h] at hoffer
  cases hoffer

variable {pump final : Pump} {offers : List Offer}

theorem awaits_of_round (h : Pump.Round pump offers final) (hl : pump.looping = false)
    (tree : FileTree)
    {session : Session} (hc : session.collected = false) :
    (session.moved (settle tree (pump, .ready)).value).Awaits offers final := by
  rw [moved, hc]
  cases h with
  | done hs =>
    rw [settle_of_step (Pump.Round.finish (.done hs) hl tree) (fun h => nomatch h)]
    exact .ended
  | handOver tree' hstep hhand hrest =>
    obtain ⟨i, record, after, ht, -, hnext⟩ := Pump.turn_of_moves hstep hhand
    have hlooping := congrArg Pump.looping hnext
    have hsame : pump.step tree = pump.step tree' := by
      rw [Pump.step_of_select ht.select, Pump.step_of_select ht.select]
    rw [← hsame] at hstep
    rw [settle_of_step hstep (phaseOf_ne_ready _), elapse_phaseOf]
    exact .holding hhand (hlooping.trans hl) hrest

theorem Awaits.read {session : Session} {offer : Offer} (h : session.Awaits (offer :: offers) final)
    (tree : FileTree) :
    (session.read tree).value.1 = .ok (some offer.record) ∧
      (session.read tree).value.2.Awaits offers final := by
  cases h with
  | @holding pump next final offer offers hhand hl hrest =>
    refine ⟨rfl, ?_⟩
    have hnext := @awaits_of_round _ _ _ hrest hl tree ⟨pump, .holding offer, false⟩ rfl
    rw [← hhand] at hnext
    exact hnext

/-- **Reads give the offers one by one**, and nothing once there are none left. -/
theorem Awaits.reads {session : Session} (h : session.Awaits offers final) (trees : List FileTree) :
    (session.reads trees).1
        = (List.range trees.length).map (fun n => .ok (offers.map Offer.record)[n]?) ∧
      (session.reads trees).2.Awaits (offers.drop trees.length) final := by
  induction trees generalizing session offers with
  | nil => exact ⟨rfl, h⟩
  | cons tree trees ih =>
    rw [List.length_cons, List.range_succ_eq_map, List.map_cons, List.map_map]
    cases offers with
    | nil =>
      have hread : (session.read tree).value = (.ok none, session) := by
        cases h with
        | ended => rfl
      obtain ⟨hresults, hlast⟩ := ih h
      rw [List.drop_nil] at hlast ⊢
      simp only [Session.reads, hread, hresults]
      exact ⟨rfl, hlast⟩
    | cons offer offers =>
      obtain ⟨hresult, hnext⟩ := h.read tree
      obtain ⟨hresults, hlast⟩ := ih hnext
      simp only [Session.reads, hresult, hresults]
      exact ⟨rfl, hlast⟩

theorem Awaits.delivers {session : Session} (h : session.Awaits offers final) :
    session.Delivers (offers.map Offer.record) :=
  fun trees => (h.reads trees).1

theorem Awaits.wait {session : Session} (h : session.Awaits [] final) :
    session.wait.1 = some ⟨final.emitted, final.restarts, .exhausted, 0⟩ := by
  cases h with
  | ended =>
    rw [← Pump.summary_closeAll]
    rfl

theorem start_of_resolve {tree : FileTree} {pattern : String} {settings : Settings}
    {sources : List Source}
    (hv : settings.validate = .ok ()) (hs : (resolveSources tree pattern).value = .ok sources)
    {pump : Pump}
    (hp : pump = ⟨pattern, settings.looping, sources, .new settings.speed, 0, 0⟩) :
    (Pump.start tree pattern settings).value = .ok pump ∧
      (start tree pattern settings).value
        = .ok (moved ⟨pump, .ready, false⟩ (settle tree (pump, .ready)).value) := by
  have hpump : (Pump.start tree pattern settings).value = .ok pump := by
    subst hp
    simp only [Pump.start, hv, Logged.value_bind, hs]
    rfl
  refine ⟨hpump, ?_⟩
  simp only [start, prepare, Logged.value_bind, hpump]
  rfl

theorem delivers_of_loop {tree : FileTree} {pattern : String} {settings : Settings}
    {sources : List Source} {items : List (Nat × Record)}
    (hv : settings.validate = .ok ()) (hl : settings.looping = false)
    (hs : (resolveSources tree pattern).value = .ok sources) (h : Merge.Loop sources items) :
    ∃ session, (start tree pattern settings).value = .ok session ∧
      session.Delivers (items.map (·.2)) := by
  obtain ⟨-, hstart⟩ := start_of_resolve hv hs rfl
  obtain ⟨final, hround⟩ :=
    @Pump.round_of_loop ⟨pattern, settings.looping, sources, .new settings.speed, 0, 0⟩ items h
  refine ⟨_, hstart, ?_⟩
  rw [← Pacing.map_record_offers (.new settings.speed) items]
  exact Awaits.delivers (awaits_of_round hround hl tree rfl)

/-- **A replay of captures that can all be read starts**, and what it awaits is a round over their
sources. The records of that round are those of the loop of the merge, and only its waits depend on
the speed. -/
theorem exists_start {tree : FileTree} {pattern : String} {settings : Settings}
    {captures : List Bytes}
    (hv : settings.validate = .ok ()) (hl : settings.looping = false)
    (hc : Captures tree pattern captures) :
    ∃ sources items pump session final, (resolveSources tree pattern).value = .ok sources ∧
      List.Forall₂ Source.Opened sources captures ∧ Merge.Loop sources items ∧
      (Pump.start tree pattern settings).value = .ok pump ∧
      Pump.Round pump ((Pacing.new settings.speed).offers items) final ∧
      final.emitted = items.length ∧ final.restarts = 0 ∧
      (∀ tree, (final.step tree).value = (final.closeAll, .ended .exhausted)) ∧
      (start tree pattern settings).value = .ok session ∧
      session.Awaits ((Pacing.new settings.speed).offers items) final := by
  obtain ⟨sources, hs, hopened⟩ := resolveSources_of_captures hc
  obtain ⟨items, hloop⟩ := Merge.exists_loop (Merge.holding_of_opened hopened)
  obtain ⟨hpump, hsession⟩ := start_of_resolve hv hs rfl
  obtain ⟨final, hround⟩ :=
    @Pump.round_of_loop ⟨pattern, settings.looping, sources, .new settings.speed, 0, 0⟩ items hloop
  have hpassed := hround.passed
  refine ⟨sources, items, _, _, final, hs, hopened, hloop, hpump, hround, ?_, hpassed.restarts,
    hround.finish hl, hsession, awaits_of_round hround hl tree rfl⟩
  rw [hpassed.emitted, Pacing.length_offers]
  exact Nat.zero_add _

end Session

end TrafficReplay
