/-
# Replays that start over

A replay that loops goes through rounds. Each round is a merge of the captures as the pattern finds
them when the round begins, and its waits are counted from its own first record
(`Session.plays_rounds`). At the end of a round the captures are opened anew in the same move
that handed the last record over, so the files at that moment decide how it goes on: with another
round (`Session.settled_of_renewal`), with an error (`Session.concludes_of_resolution_error`) or, if
the captures hold no record, not at all (`Session.concludes_of_fruitless`).
-/
import TrafficReplay.Proofs.Replay.Emission
import TrafficReplay.Proofs.Replay.Turns

namespace TrafficReplay

/-- The captures that the pattern stands for can be opened, and their merge gives these records. -/
def Merges (tree : FileTree) (pattern : String) (items : List (Nat × Record)) : Prop :=
  ∃ sources, (resolveSources tree pattern).value = .ok sources ∧ Merge.Loop sources items

/-- Of all captures that the pattern stands for, none holds a record. -/
def Fruitless (tree : FileTree) (pattern : String) : Prop :=
  ∃ sources, (resolveSources tree pattern).value = .ok sources ∧
    ∀ source ∈ sources, source.lookahead = none

/-- How many records are handed over when all rounds up to this one are over. -/
def recordsThrough (rounds : Nat → List (Nat × Record)) (last : Nat) : Nat :=
  ((List.range (last + 1)).map fun k => (rounds k).length).sum

/-- The rounds of a replay that loops, up to the last of these: the first merges the captures of the
first snapshot, and each one after it those of a snapshot that is taken when all records before it
were read; `moments n` is how the files are after `n` reads. Only the first may be empty. -/
structure Rounds (pattern : String) (snapshots moments : Nat → FileTree)
    (rounds : Nat → List (Nat × Record)) (last : Nat) : Prop where
  merges : ∀ k ≤ last, Merges (snapshots k) pattern (rounds k)
  nonempty : ∀ k, 0 < k → k ≤ last → rounds k ≠ []
  taken : ∀ k ≤ last, moments (recordsThrough rounds k) = snapshots (k + 1)

theorem Rounds.pred {pattern : String} {snapshots moments : Nat → FileTree}
    {rounds : Nat → List (Nat × Record)} {last : Nat}
    (h : Rounds pattern snapshots moments rounds (last + 1)) :
    Rounds pattern snapshots moments rounds last :=
  ⟨fun k hk => h.merges k (Nat.le_succ_of_le hk),
    fun k hpos hk => h.nonempty k hpos (Nat.le_succ_of_le hk),
    fun k hk => h.taken k (Nat.le_succ_of_le hk)⟩

theorem recordsThrough_zero (rounds : Nat → List (Nat × Record)) :
    recordsThrough rounds 0 = (rounds 0).length :=
  Nat.add_zero _

theorem recordsThrough_succ (rounds : Nat → List (Nat × Record)) (last : Nat) :
    recordsThrough rounds (last + 1) = recordsThrough rounds last + (rounds (last + 1)).length := by
  rw [recordsThrough, List.range_succ, List.map_append, List.sum_append, recordsThrough]
  simp

theorem getElem?_of_append_cycle {α : Type} {front back xs : List α} {count m : Nat}
    (h : front ++ back = (List.range count).flatMap fun _ => xs) (hm : m < front.length) :
    front[m]? = xs[m % xs.length]? := by
  induction count generalizing front m with
  | zero =>
    obtain ⟨rfl, -⟩ := List.append_eq_nil_iff.mp h
    exact absurd hm (Nat.not_lt_zero m)
  | succ count ih =>
    rw [List.range_succ_eq_map, List.flatMap_cons, List.flatMap_map] at h
    rcases List.append_eq_append_iff.mp h with ⟨rest, hxs, -⟩ | ⟨rest, rfl, hrest⟩
    · have hlt : m < xs.length := by
        rw [hxs, List.length_append]
        omega
      rw [Nat.mod_eq_of_lt hlt, hxs, List.getElem?_append_left hm]
    · rcases Nat.lt_or_ge m xs.length with hlt | hge
      · rw [Nat.mod_eq_of_lt hlt, List.getElem?_append_left hlt]
      · rw [List.length_append] at hm
        rw [Nat.mod_eq_sub_mod hge, List.getElem?_append_right hge]
        exact ih hrest.symm (by omega)

namespace Pump

variable {pump : Pump} {tree : FileTree}

theorem step_of_loop (hn : Merge.select pump.sources = none) (hl : pump.looping = true) :
    pump.step tree = pump.restart tree := by
  rw [step, hn]
  simp only [hl, if_true]

theorem restart_of_error {e : ReplayError}
    (h : (resolveSources tree pump.pattern).value = .error e) :
    (pump.restart tree).value = (pump.closeAll, .failing e) := by
  simp only [restart, Logged.value_bind, h]
  rfl

theorem restart_of_select {sources : List Source} {i : Nat}
    (h : (resolveSources tree pump.pattern).value = .ok sources)
    (hs : Merge.select sources = some i) :
    (pump.restart tree).value = (pump.renew sources, .ready) := by
  simp only [restart, Logged.value_bind, h, hs]
  rfl

theorem restart_of_none {sources : List Source}
    (h : (resolveSources tree pump.pattern).value = .ok sources)
    (hs : Merge.select sources = none) :
    (pump.restart tree).value = ((pump.renew sources).closeAll, .ended .exhausted) := by
  simp only [restart, Logged.value_bind, h, hs]
  rfl

/-- The pump of a replay that loops, when no record of the round is left. -/
structure RoundOver (pattern : String) (speed : Float) (emitted restarts : Nat) (pump : Pump) :
    Prop where
  select : Merge.select pump.sources = none
  looping : pump.looping = true
  pattern : pump.pattern = pattern
  speed : pump.pacing.speed = speed
  emitted : pump.emitted = emitted
  restarts : pump.restarts = restarts

/-- A round that has just begun goes through its turns, with waits that know of no record before. -/
theorem exists_round {items : List (Nat × Record)} {speed : Float} (hl : pump.looping = true)
    (hp : pump.pacing = .new speed) (h : Merge.Loop pump.sources items) :
    ∃ final, Turns pump ((Pacing.new speed).offers items) final ∧
      RoundOver pump.pattern speed (pump.emitted + items.length) pump.restarts final := by
  obtain ⟨final, hturns, hnone⟩ := turns_of_loop h
  rw [hp] at hturns
  have hadvanced := hturns.advanced
  rw [Pacing.length_offers] at hadvanced
  exact ⟨final, hturns, hnone, hadvanced.looping.trans hl, hadvanced.pattern,
    hadvanced.speed.trans (congrArg Pacing.speed hp), hadvanced.emitted, hadvanced.restarts⟩

end Pump

namespace Session

variable {session : Session} {pump : Pump} {tree : FileTree}

/-! ## The end of a round -/

/-- The first offer of the next round comes out of the move that ends the round before. -/
theorem settled_of_renewal {sources : List Source} {item : Nat × Record}
    {items : List (Nat × Record)} (hn : Merge.select pump.sources = none) (hl : pump.looping = true)
    (hr : (resolveSources tree pump.pattern).value = .ok sources)
    (hm : Merge.Loop sources (item :: items)) :
    session.settled tree pump = session.settled tree (pump.renew sources) := by
  cases hm with
  | next ht _ =>
    have hstep : (pump.step tree).value = (pump.renew sources, .ready) := by
      rw [Pump.step_of_loop hn hl, Pump.restart_of_select hr ht.select]
    obtain ⟨taken, hoffer, -⟩ := @Pump.moves_of_turn (pump.renew sources) _ _ _ ht
    rw [settled_of_offer (hoffer tree), settled]
    simp only [settle, Logged.value_bind, hstep, hoffer tree]
    rw [Logged.value_pure, elapse_phaseOf]

theorem concludes_of_resolution_error {e : ReplayError} (hc : session.collected = false)
    (hn : Merge.select pump.sources = none) (hl : pump.looping = true)
    (hr : (resolveSources tree pump.pattern).value = .error e) :
    (session.settled tree pump).Concludes [.error e]
      ⟨pump.emitted, pump.restarts, .failed e.message, 0⟩ := by
  have hstep : (pump.step tree).value = (pump.closeAll, .failing e) := by
    rw [Pump.step_of_loop hn hl, Pump.restart_of_error hr]
  rw [settled_of_step hstep (fun h => nomatch h)]
  exact concludes_of_failing hc

theorem concludes_of_fruitless (hc : session.collected = false)
    (hn : Merge.select pump.sources = none) (hl : pump.looping = true)
    (hr : Fruitless tree pump.pattern) :
    (session.settled tree pump).Concludes [] ⟨pump.emitted, pump.restarts + 1, .exhausted, 0⟩ := by
  obtain ⟨sources, hs, hempty⟩ := hr
  have hstep : (pump.step tree).value = ((pump.renew sources).closeAll, .ended .exhausted) := by
    rw [Pump.step_of_loop hn hl, Pump.restart_of_none hs (Merge.select_eq_none hempty)]
  rw [settled_of_step hstep (fun h => nomatch h)]
  exact concludes_of_ended hc

/-! ## The rounds of a replay -/

section Rounds

variable {pattern : String} {speed : Float} {snapshots moments : Nat → FileTree}
  {rounds : Nat → List (Nat × Record)} {last : Nat}

theorem plays_round {pump : Pump} {items : List (Nat × Record)} (hl : pump.looping = true)
    (hp : pump.pacing = .new speed) (hm : Merge.Loop pump.sources items) (session : Session)
    (moments : Nat → FileTree) (n : Nat) :
    ∃ final, Pump.RoundOver pump.pattern speed (pump.emitted + items.length) pump.restarts final ∧
      (session.settled (moments n) pump).Plays ((List.range' (n + 1) items.length).map moments)
        (((Pacing.new speed).offers items).map Offer.taken)
        (session.settled (moments (n + items.length)) final) := by
  obtain ⟨final, hturns, hover⟩ := Pump.exists_round hl hp hm
  have hplays := plays_of_turns hturns session moments n
  rw [Pacing.length_offers] at hplays
  exact ⟨final, hover, hplays⟩

/-- **Reads take the offers of all rounds up to the last of these**, each round with waits of its
own. -/
theorem plays_rounds (h : Rounds pattern snapshots moments rounds last) (session : Session)
    {sources : List Source} (hs : (resolveSources (snapshots 0) pattern).value = .ok sources) :
    ∃ final, Pump.RoundOver pattern speed (recordsThrough rounds last) last final ∧
      (session.settled (moments 0) ⟨pattern, true, sources, .new speed, 0, 0⟩).Plays
        ((List.range' 1 (recordsThrough rounds last)).map moments)
        ((List.range (last + 1)).flatMap
          fun k => ((Pacing.new speed).offers (rounds k)).map Offer.taken)
        (session.settled (moments (recordsThrough rounds last)) final) := by
  induction last with
  | zero =>
    obtain ⟨sources', hs', hm⟩ := h.merges 0 (Nat.le_refl 0)
    rw [hs] at hs'
    cases hs'
    have hround := @plays_round speed ⟨pattern, true, sources, .new speed, 0, 0⟩ _ rfl rfl hm
      session moments 0
    rw [recordsThrough_zero, Nat.zero_add, List.range_one, List.flatMap_singleton]
    rwa [Nat.zero_add] at hround
  | succ last ih =>
    obtain ⟨pump, hover, hplays⟩ := ih h.pred
    obtain ⟨sources', hs', hm⟩ := h.merges (last + 1) (Nat.le_refl _)
    have hmoment := h.taken last (Nat.le_succ last)
    rw [← hover.pattern, ← hmoment] at hs'
    obtain ⟨item, items, hitems⟩ :=
      List.exists_cons_of_ne_nil (h.nonempty (last + 1) (Nat.zero_lt_succ last) (Nat.le_refl _))
    -- the move that handed the last record over has opened the captures of the next round
    have hrenewal := @settled_of_renewal session pump _ _ _ _ hover.select hover.looping hs'
      (hitems ▸ hm)
    have hspeed : (pump.renew sources').pacing = .new speed := congrArg Pacing.new hover.speed
    obtain ⟨final, hover', hplays'⟩ := @plays_round speed (pump.renew sources') _ hover.looping
      hspeed hm session moments (recordsThrough rounds last)
    rw [← hrenewal] at hplays'
    rw [recordsThrough_succ, ← List.range'_append_1, Nat.add_comm 1, List.map_append,
      @List.range_succ (last + 1), List.flatMap_append, List.flatMap_singleton]
    exact ⟨final, ⟨hover'.select, hover'.looping, hover'.pattern.trans hover.pattern, hover'.speed,
      hover'.emitted.trans (congrArg (· + _) hover.emitted),
      hover'.restarts.trans (congrArg (· + 1) hover.restarts)⟩, hplays.append hplays'⟩

/-- While the files stay as they are, all rounds are the same: reads go through the records of one
again and again. -/
theorem reads_cycle {tree : FileTree} {items : List (Nat × Record)} {sources : List Source}
    (hs : (resolveSources tree pattern).value = .ok sources) (hm : Merge.Loop sources items)
    (hne : items ≠ []) (session : Session) (n : Nat) :
    ((session.settled tree ⟨pattern, true, sources, .new speed, 0, 0⟩).reads
        (List.replicate n tree)).1
      = (List.range n).map fun m => .ok (items.map (·.2))[m % (items.map (·.2)).length]? := by
  have hrounds : Rounds pattern (fun _ => tree) (fun _ => tree) (fun _ => items) n :=
    ⟨fun _ _ => ⟨sources, hs, hm⟩, fun _ _ _ => hne, fun _ _ => rfl⟩
  obtain ⟨final, -, hplays⟩ := @plays_rounds _ speed _ _ _ _ hrounds session _ hs
  have hreads := hplays.paced
  generalize session.settled tree ⟨pattern, true, sources, .new speed, 0, 0⟩ = start at hreads ⊢
  have hcount : recordsThrough (fun _ => items) n = (n + 1) * items.length := by
    rw [recordsThrough, List.map_const', List.length_range, List.sum_replicate_nat]
  have hle : n ≤ (n + 1) * items.length :=
    Nat.le_trans (Nat.le_succ n) (Nat.le_mul_of_pos_right _ (List.length_pos_iff.mpr hne))
  -- the reads in question come first among those of `n + 1` rounds
  rw [hcount, List.map_const', List.length_range', ← Nat.add_sub_cancel' hle, List.replicate_add]
    at hreads
  have hresults := congrArg (List.map (·.2)) hreads
  rw [map_snd_pacedReads, reads_append, List.map_flatMap] at hresults
  simp only [Pacing.map_snd_taken_offers] at hresults
  have hlen : (start.reads (List.replicate n tree)).1.length = n := by
    rw [length_reads, List.length_replicate]
  refine List.ext_getElem? fun m => ?_
  rcases Nat.lt_or_ge m n with hlt | hge
  · have hmod : m % items.length < items.length := Nat.mod_lt _ (List.length_pos_iff.mpr hne)
    rw [getElem?_of_append_cycle hresults (hlen.symm ▸ hlt), List.getElem?_map, List.getElem?_map,
      List.length_map, List.length_map, List.getElem?_range hlt, List.getElem?_eq_getElem hmod,
      Option.map_some, Option.map_some, List.getElem?_map, List.getElem?_eq_getElem hmod]
    rfl
  · rw [List.getElem?_eq_none (hlen.symm ▸ hge), List.getElem?_eq_none (by simpa using hge)]

theorem prepare_of_resolve {tree : FileTree} {settings : Settings} {sources : List Source}
    (hv : settings.validate = .ok ()) (hs : (resolveSources tree pattern).value = .ok sources) :
    (prepare tree pattern settings).value
      = .ok ⟨⟨pattern, settings.looping, sources, .new settings.speed, 0, 0⟩, .ready, false⟩ := by
  obtain ⟨hpump, -⟩ := start_of_resolve hv hs rfl
  simp only [prepare, Logged.value_bind, hpump]
  rfl

/-- **A replay that loops is one round after the other.** `moments n` is how the files are after `n`
reads, from the first move on. The waits and the results of the reads are those of the rounds, the
waits of each round counted from its own first record. If the captures then cannot be opened, that
error is read and nothing after it; if they hold no record, nothing more is read. While the files
stay as they are, reads go through the records of the replay that does not loop again and again. -/
theorem loop_gives_rounds {settings : Settings} (hv : settings.validate = .ok ())
    (hl : settings.looping = true) (h : Rounds pattern snapshots moments rounds last) :
    ∃ prepared session, (prepare (snapshots 0) pattern settings).value = .ok prepared ∧
      (prepared.proceed (moments 0)).value = session ∧
      session.pacedReads ((List.range' 1 (recordsThrough rounds last)).map moments)
        = (List.range (last + 1)).flatMap
            (fun k => ((Pacing.new settings.speed).offers (rounds k)).map Offer.taken) ∧
      (∀ e, (resolveSources (snapshots (last + 1)) pattern).value = .error e →
        (session.reads ((List.range' 1 (recordsThrough rounds last)).map moments)).2.Concludes
          [.error e] ⟨recordsThrough rounds last, last, .failed e.message, 0⟩) ∧
      (Fruitless (snapshots (last + 1)) pattern →
        (session.reads ((List.range' 1 (recordsThrough rounds last)).map moments)).2.Concludes
          [] ⟨recordsThrough rounds last, last + 1, .exhausted, 0⟩) ∧
      ((∀ n, moments n = snapshots 0) → rounds 0 ≠ [] →
        ∃ plain records,
          (start (snapshots 0) pattern { settings with looping := false }).value = .ok plain ∧
          plain.Delivers records ∧ records ≠ [] ∧
          ∀ n, (session.reads (List.replicate n (snapshots 0))).1
            = (List.range n).map fun m => .ok records[m % records.length]?) := by
  obtain ⟨sources, hs, hm⟩ := h.merges 0 (Nat.zero_le last)
  have hprepared := prepare_of_resolve hv hs
  rw [hl] at hprepared
  generalize hbegun : (⟨_, .ready, false⟩ : Session) = begun at hprepared
  have hc : begun.collected = false := congrArg collected hbegun.symm
  obtain ⟨final, hover, hplays⟩ := @plays_rounds _ settings.speed _ _ _ _ h begun _ hs
  have hmoment := h.taken last (Nat.le_refl last)
  have hproceed : (begun.proceed (moments 0)).value
      = begun.settled (moments 0) ⟨pattern, true, sources, .new settings.speed, 0, 0⟩ := by
    subst hbegun
    rfl
  refine ⟨begun, _, hprepared, hproceed, hplays.paced, ?_, ?_, ?_⟩
  · intro e he
    rw [← hmoment, ← hover.pattern] at he
    have hfailed := @concludes_of_resolution_error _ _ _ _ hc hover.select hover.looping he
    rw [hover.emitted, hover.restarts, ← hplays.last] at hfailed
    exact hfailed
  · intro hempty
    rw [← hmoment, ← hover.pattern] at hempty
    have hended := @concludes_of_fruitless _ _ _ hc hover.select hover.looping hempty
    rw [hover.emitted, hover.restarts, ← hplays.last] at hended
    exact hended
  · intro hsame hne
    obtain ⟨plain, hstart, hdelivers⟩ :=
      @delivers_of_loop _ _ { settings with looping := false } _ _ hv rfl hs hm
    refine ⟨_, _, hstart, hdelivers, fun hnil => hne (List.map_eq_nil_iff.mp hnil), fun n => ?_⟩
    have hcycle := @reads_cycle pattern settings.speed _ _ _ hs hm hne begun n
    rw [← hsame 0] at hcycle ⊢
    exact hcycle

/-- Files that change from one round to the next: two records, then one of another capture, then no
capture at all. -/
def changingFiles : Nat → FileTree
  | 0 => ⟨.directory [("a", .file (captureOf ["1 a 5\n", "2 a 9\n"]))], []⟩
  | 1 => ⟨.directory [("b", .file (captureOf ["1 b 20\n"]))], []⟩
  | _ => ⟨.directory [], []⟩

def changingMoments (n : Nat) : FileTree :=
  changingFiles (n - 1)

def changingRounds : Nat → List (Nat × Record)
  | 0 => [(0, Record.ofBytes (Utf8.encode "1 a 5\n")), (0, Record.ofBytes (Utf8.encode "2 a 9\n"))]
  | _ => [(0, Record.ofBytes (Utf8.encode "1 b 20\n"))]

theorem merges_changingFiles {k : Nat} (h : k ≤ 1) :
    Merges (changingFiles k) "*" (changingRounds k) := by
  have hended := fun path => @Source.advance_of_ended path _ _ none _ Framing.readRecord_empty
  rcases Nat.le_one_iff_eq_zero_or_eq_one.mp h with rfl | rfl
  · have hnext : Framing.readRecord [.portion (captureOf ["2 a 9\n"])]
        = (.record (Utf8.encode "2 a 9\n"), [.portion []]) := by decide +kernel
    refine ⟨[⟨"a", some [.portion (captureOf ["2 a 9\n"])],
      some (Record.ofBytes (Utf8.encode "1 a 5\n"))⟩], by cbv, ?_⟩
    refine .next (.mk (by decide +kernel) rfl rfl (Source.advance_of_record hnext)) ?_
    refine .next (.mk (by decide +kernel) rfl rfl (hended "a")) ?_
    exact .done (by decide +kernel)
  · refine ⟨[⟨"b", some [.portion []], some (Record.ofBytes (Utf8.encode "1 b 20\n"))⟩], by cbv, ?_⟩
    refine .next (.mk (by decide +kernel) rfl rfl (hended "b")) ?_
    exact .done (by decide +kernel)

theorem rounds_changingFiles : Rounds "*" changingFiles changingMoments changingRounds 1 where
  merges k hk := merges_changingFiles hk
  nonempty k hpos hk := by
    obtain rfl : k = 1 := Nat.le_antisymm hk hpos
    exact List.cons_ne_nil _ _
  taken k hk := by
    rcases Nat.le_one_iff_eq_zero_or_eq_one.mp hk with rfl | rfl
    · rfl
    · rfl

/-- The request of the second round is not waited for, though it comes later than all records of the
first. Then there is no capture any more. -/
theorem loop_gives_rounds_two :
    ∃ prepared session,
      (prepare (changingFiles 0) "*" { looping := true }).value = .ok prepared ∧
      (prepared.proceed (changingMoments 0)).value = session ∧
      session.pacedReads ([1, 2, 3].map changingMoments)
        = ["1 a 5\n", "2 a 9\n", "1 b 20\n"].map
            (fun text => (none, .ok (some (Record.ofBytes (Utf8.encode text))))) ∧
      (session.reads ([1, 2, 3].map changingMoments)).2.Concludes [.error (.noSources "*")]
        ⟨3, 1, .failed (ReplayError.noSources "*").message, 0⟩ := by
  obtain ⟨prepared, session, hprepared, hsession, hreads, hfailed, -⟩ :=
    @loop_gives_rounds "*" _ _ _ 1 { looping := true } rfl rfl rounds_changingFiles
  have hnone : (resolveSources (changingFiles 2) "*").value = .error (.noSources "*") := by cbv
  refine ⟨prepared, session, hprepared, hsession, hreads.trans ?_, hfailed _ hnone⟩
  have hkind : (Record.ofBytes (Utf8.encode "2 a 9\n")).kind = .response := by decide +kernel
  rw [List.range_succ, List.range_one]
  simp only [List.cons_append, List.nil_append, List.flatMap_cons, List.flatMap_nil, changingRounds,
    Pacing.offers, Pacing.wait?_new, hkind]
  rfl

end Rounds

end Session

end TrafficReplay
