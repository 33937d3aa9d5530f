/-
# What a reader has read and the pump has counted

A reader who reads one record after the other and requests no stop finds the pump holding a record
or an error, or done with everything (`Session.Underway`). A read then does one of three things
(`Session.Underway.read_cases`): it gives a record, which can be framed and is counted; it gives
nothing, for the pump has come to its end; or it gives the error that ends the replay. This holds
whatever becomes of the files, and for replays that loop.
-/
import TrafficReplay.Proofs.Replay.Solo
import TrafficReplay.Proofs.Source.Framable

namespace TrafficReplay

/-- What a pump that nobody stops can be about: a record that can be framed, an error, or its end.
-/
def Phase.Sound : Phase → Prop
  | .ready | .failing _ => True
  | .waiting offer | .holding offer => offer.record.Framable
  | .ended reason => reason = .exhausted

def Phase.isResting : Phase → Bool
  | .holding _ | .failing _ | .ended _ => true
  | .ready | .waiting _ => false

/-- The pump has handed over so many records, all that its sources have in hand can be framed, and
nobody stops it. -/
structure Counted (n : Nat) (state : Pump × Phase) : Prop where
  emitted : state.1.emitted = n
  sources : ∀ source ∈ state.1.sources, source.Framable
  phase : state.2.Sound

namespace Counted

variable {n : Nat} {pump : Pump} {tree : FileTree}

theorem framable_set {sources : List Source} {source : Source} {i : Nat}
    (h : ∀ source ∈ sources, source.Framable) (hs : source.Framable) :
    ∀ other ∈ sources.set i source, other.Framable := by
  intro other hmem
  rcases List.mem_or_eq_of_mem_set hmem with hmem | rfl
  · exact h other hmem
  · exact hs

theorem framable_closeAll (pump : Pump) : ∀ source ∈ pump.closeAll.sources, source.Framable := by
  intro source hmem
  obtain ⟨opened, -, rfl⟩ := List.mem_map.mp hmem
  exact opened.framable_close

theorem sound_phaseOf {offer : Offer} (h : offer.record.Framable) : (Pump.phaseOf offer).Sound := by
  rw [Pump.phaseOf]
  cases offer.wait with
  | none => exact h
  | some wait => exact h

theorem stepped {reopening : Option (Except ReplayError (List Source))} {next : Pump × Phase}
    (h : Counted n (pump, .ready)) (hs : Pump.Stepped tree pump reopening next) :
    Counted n next := by
  cases hs with
  | @offered i source taken record _ hget ht =>
    have hrecord : source.lookahead = some record := congrArg Prod.fst ht
    have htaken : taken = source.take.2 := (congrArg Prod.snd ht).symm
    refine ⟨h.emitted, framable_set h.sources (htaken ▸ source.framable_take), sound_phaseOf ?_⟩
    exact h.sources source (List.mem_of_getElem? hget) record hrecord
  | exhausted _ _ => exact ⟨h.emitted, framable_closeAll pump, rfl⟩
  | lost _ _ _ => exact ⟨h.emitted, framable_closeAll pump, trivial⟩
  | renewed _ _ hr _ => exact ⟨h.emitted, framable_of_resolveSources hr, trivial⟩
  | fruitless _ _ hr _ => exact ⟨h.emitted, framable_closeAll _, rfl⟩

theorem settle {state : Pump × Phase} (h : Counted n state) (tree : FileTree) :
    Counted n (Session.settle tree state).value := by
  refine @Session.settling (fun _ => tree)
    (fun state => Counted n state → Counted n (Session.rest (fun _ => tree) state)) ?_ ?_ state h
  · intro pump phase hphase h
    rw [Session.rest_of_ne_ready hphase]
    refine ⟨h.emitted, h.sources, ?_⟩
    have hsound := h.phase
    cases phase with
    | ready => exact absurd rfl hphase
    | waiting offer => exact hsound
    | holding offer => exact hsound
    | failing error => trivial
    | ended reason => exact hsound
  · intro pump reopening next hstepped ih h
    rw [Session.rest_of_stepped hstepped]
    exact ih (h.stepped hstepped)

theorem handOver {phase : Phase} (h : Counted n (pump, phase)) (offer : Offer) :
    Counted (n + 1) (pump.handOver offer).value := by
  have hemitted : pump.emitted + 1 = n + 1 := congrArg (· + 1) h.emitted
  unfold Pump.handOver
  dsimp only
  cases hs : pump.sources[offer.index]? with
  | none => exact ⟨hemitted, h.sources, trivial⟩
  | some source =>
    have hnext := framable_set (i := offer.index) h.sources source.framable_advance
    simp only [Logged.value_bind]
    rcases ha : source.advance.value with ⟨result, next⟩
    rw [ha] at hnext
    cases result with
    | ok u => exact ⟨hemitted, hnext, trivial⟩
    | error e => exact ⟨hemitted, hnext, trivial⟩

end Counted

namespace Session

/-- Between two reads of a session that nobody stops, so many records having been read. -/
structure Underway (n : Nat) (session : Session) : Prop where
  collected : session.collected = false
  counted : Counted n (session.pump, session.phase)
  resting : session.phase.isResting = true

variable {session : Session} {n : Nat}

theorem underway_moved {state : Pump × Phase} (hc : session.collected = false)
    (h : Counted n state) (tree : FileTree) :
    (session.moved (settle tree state).value).Underway n := by
  refine ⟨hc, h.settle tree, ?_⟩
  rcases rest_resting (fun _ => tree) state with
    ⟨pump, offer, hrest⟩ | ⟨pump, error, hrest⟩ | ⟨pump, reason, hrest⟩
  · rw [rest] at hrest
    rw [hrest]
    rfl
  · rw [rest] at hrest
    rw [hrest]
    rfl
  · rw [rest] at hrest
    rw [hrest]
    rfl

/-- **A read gives a record, which is counted and can be framed**, or it finds the replay over, or
it gives the error that ends it. -/
theorem Underway.read_cases (h : session.Underway n) (tree : FileTree) :
    (∃ record next, (session.read tree).value = (.ok (some record), next) ∧ record.Framable ∧
      next.Underway (n + 1)) ∨
    (session.phase = .ended .exhausted ∧ (session.read tree).value = (.ok none, session)) ∨
    ∃ e, (session.read tree).value
      = (.error e, session.moved (session.pump.closeAll, .ended (.failed e.message))) := by
  obtain ⟨pump, phase, collected⟩ := session
  have hsound := h.counted.phase
  cases phase with
  | ready => exact absurd h.resting Bool.false_ne_true
  | waiting offer => exact absurd h.resting Bool.false_ne_true
  | holding offer =>
    exact .inl
      ⟨offer.record, _, rfl, hsound, underway_moved h.collected (h.counted.handOver offer) tree⟩
  | failing error => exact .inr (.inr ⟨error, rfl⟩)
  | ended reason =>
    obtain rfl : reason = .exhausted := hsound
    exact .inr (.inl ⟨rfl, rfl⟩)

theorem Underway.of_read {next : Session} {record : Record} {tree : FileTree}
    (h : session.Underway n) (hr : (session.read tree).value = (.ok (some record), next)) :
    record.Framable ∧ next.Underway (n + 1) := by
  rcases h.read_cases tree with ⟨other, after, hvalue, hframable, hafter⟩ | ⟨-, hvalue⟩ |
    ⟨e, hvalue⟩
  · rw [hvalue] at hr
    cases hr
    exact ⟨hframable, hafter⟩
  · rw [hvalue] at hr
    cases hr
  · rw [hvalue] at hr
    cases hr

theorem Underway.of_read_none {next : Session} {tree : FileTree} (h : session.Underway n)
    (hr : (session.read tree).value = (.ok none, next)) :
    session.phase = .ended .exhausted ∧ next = session := by
  rcases h.read_cases tree with ⟨other, after, hvalue, -⟩ | ⟨hend, hvalue⟩ | ⟨e, hvalue⟩
  · rw [hvalue] at hr
    cases hr
  · rw [hvalue] at hr
    cases hr
    exact ⟨hend, rfl⟩
  · rw [hvalue] at hr
    cases hr

theorem Underway.of_read_error {next : Session} {e : ReplayError} {tree : FileTree}
    (h : session.Underway n) (hr : (session.read tree).value = (.error e, next)) :
    next = session.moved (session.pump.closeAll, .ended (.failed e.message)) := by
  rcases h.read_cases tree with ⟨other, after, hvalue, -⟩ | ⟨-, hvalue⟩ | ⟨other, hvalue⟩
  · rw [hvalue] at hr
    cases hr
  · rw [hvalue] at hr
    cases hr
  · rw [hvalue] at hr
    cases hr
    rfl

theorem Underway.wait (h : session.Underway n) (he : session.phase = .ended .exhausted) :
    ∃ summary,
      session.wait.1 = some summary ∧ summary.emitted = n ∧ summary.reason = .exhausted := by
  refine ⟨session.pump.summary .exhausted, ?_, h.counted.emitted, rfl⟩
  simp only [Session.wait, he, h.collected]
  rfl

/-- A replay can be prepared only if its settings are valid and its captures can be opened. -/
theorem exists_sources_of_prepare {tree : FileTree} {pattern : String} {settings : Settings}
    {prepared : Session} (h : (prepare tree pattern settings).value = .ok prepared) :
    settings.validate = .ok () ∧ ∃ sources, (resolveSources tree pattern).value = .ok sources ∧
      prepared
        = ⟨⟨pattern, settings.looping, sources, .new settings.speed, 0, 0⟩, .ready, false⟩ := by
  cases hv : settings.validate with
  | error e =>
    simp only [prepare, Pump.start, hv, Logged.value_bind] at h
    cases h
  | ok u =>
    cases hs : (resolveSources tree pattern).value with
    | error e =>
      simp only [prepare, Pump.start, hv, Logged.value_bind, hs] at h
      cases h
    | ok sources =>
      rw [prepare_of_resolve hv hs] at h
      cases h
      exact ⟨rfl, sources, rfl, rfl⟩

theorem underway_of_prepare {tree : FileTree} {pattern : String} {settings : Settings}
    {prepared : Session} (h : (prepare tree pattern settings).value = .ok prepared)
    (now : FileTree) : (prepared.proceed now).value.Underway 0 := by
  obtain ⟨-, sources, hs, rfl⟩ := exists_sources_of_prepare h
  have hcounted : Counted 0
      ((⟨pattern, settings.looping, sources, .new settings.speed, 0, 0⟩ : Pump),
      Phase.ready) := ⟨rfl, framable_of_resolveSources hs, trivial⟩
  exact underway_moved rfl hcounted now

end Session

end TrafficReplay
