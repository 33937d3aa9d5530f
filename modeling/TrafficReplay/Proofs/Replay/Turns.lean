/-
# Turns of a session

The pump of a session goes round in turns of the merge (`Pump.Turns`), and each read takes the offer
of one turn. `Session.settled` is a session at the moment when its pump was ready and has moved on
by itself; from there the reads take the offers of the turns ahead, whatever happens to the files on
the way, and leave the session settled behind these turns (`Session.plays_of_turns`). What a session
comes to when all reads ahead are known is `Session.Concludes`.
-/
import TrafficReplay.Proofs.Replay.Reads

namespace TrafficReplay

/-- What a read gives when it takes the offer, with the wait that was asked for in front of it. -/
def Offer.taken (offer : Offer) : Option Nat × ReadResult :=
  (offer.wait, .ok (some offer.record))

theorem Pacing.map_snd_taken_offers (pacing : Pacing) (items : List (Nat × Record)) :
    ((pacing.offers items).map Offer.taken).map (·.2)
      = items.map fun item => .ok (some item.2) := by
  have hrecords := congrArg (List.map fun record => (.ok (some record) : ReadResult))
    (pacing.map_record_offers items)
  rw [List.map_map, List.map_map] at hrecords
  rw [List.map_map]
  exact hrecords

namespace Session

/-- What reads give, each with the wait that was asked for in front of it, the files being so at
each read. -/
def pacedReads (session : Session) : List FileTree → List (Option Nat × ReadResult)
  | [] => []
  | tree :: trees =>
    let (result, next) := (session.read tree).value
    (session.phase.offer?.bind Offer.wait, result) :: next.pacedReads trees

/-- Reads with the files being so give these results, each with this wait in front of it, and leave
the session so. -/
structure Plays (session : Session) (trees : List FileTree)
    (results : List (Option Nat × ReadResult)) (next : Session) : Prop where
  paced : session.pacedReads trees = results
  last : (session.reads trees).2 = next

/-- Reads give these results one by one, whatever happens to the files, and then nothing more; the
summary after them is this one. -/
def Concludes (session : Session) (results : List ReadResult) (summary : Summary) : Prop :=
  ∀ trees,
    (session.reads trees).1 = (List.range trees.length).map (fun n => results[n]?.getD (.ok none)) ∧
    (results.length ≤ trees.length → (session.reads trees).2.wait.1 = some summary)

/-- The session whose pump was ready and has moved on, the files being so at that moment. -/
def settled (session : Session) (tree : FileTree) (pump : Pump) : Session :=
  session.moved (settle tree (pump, .ready)).value

variable {session : Session} {tree : FileTree} {pump next final : Pump} {offer : Offer}
  {offers : List Offer}

theorem map_snd_pacedReads (session : Session) (trees : List FileTree) :
    (session.pacedReads trees).map (·.2) = (session.reads trees).1 := by
  induction trees generalizing session with
  | nil => rfl
  | cons tree trees ih => exact congrArg ((session.read tree).value.1 :: ·) (ih _)

theorem reads_append (session : Session) (trees more : List FileTree) :
    session.reads (trees ++ more)
      = ((session.reads trees).1 ++ ((session.reads trees).2.reads more).1,
        ((session.reads trees).2.reads more).2) := by
  induction trees generalizing session with
  | nil => rfl
  | cons tree trees ih =>
    simp only [List.cons_append, reads, ih]

theorem length_reads (session : Session) (trees : List FileTree) :
    (session.reads trees).1.length = trees.length := by
  induction trees generalizing session with
  | nil => rfl
  | cons tree trees ih => exact congrArg (· + 1) (ih _)

theorem pacedReads_append (session : Session) (trees more : List FileTree) :
    session.pacedReads (trees ++ more)
      = session.pacedReads trees ++ (session.reads trees).2.pacedReads more := by
  induction trees generalizing session with
  | nil => rfl
  | cons tree trees ih =>
    exact congrArg ((session.phase.offer?.bind Offer.wait, (session.read tree).value.1) :: ·) (ih _)

theorem Plays.append {middle last : Session} {trees more : List FileTree}
    {results others : List (Option Nat × ReadResult)} (h : session.Plays trees results middle)
    (h' : middle.Plays more others last) :
    session.Plays (trees ++ more) (results ++ others) last := by
  constructor
  · rw [pacedReads_append, h.last, h.paced, h'.paced]
  · rw [reads_append, h.last, h'.last]

/-! ## One turn -/

theorem settled_of_step {phase : Phase} (h : (pump.step tree).value = (next, phase))
    (hp : phase ≠ .ready) : session.settled tree pump = session.moved (next, elapse phase) := by
  rw [settled, settle_of_step h hp]

theorem settled_of_offer (h : (pump.step tree).value = (next, Pump.phaseOf offer)) :
    session.settled tree pump = session.moved (next, .holding offer) := by
  rw [settled_of_step h (phaseOf_ne_ready offer), elapse_phaseOf]

theorem read_of_handOver (h : (pump.handOver offer).value = (next, .ready)) :
    ((session.moved (pump, .holding offer)).read tree).value
      = (.ok (some offer.record), session.settled tree next) := by
  rw [settled, ← h]
  rfl

/-- **Reads take the offers of the turns ahead**, one by one; `moments n` is how the files are after
`n` reads. -/
theorem plays_of_turns (h : Pump.Turns pump offers final) (session : Session)
    (moments : Nat → FileTree) (n : Nat) :
    (session.settled (moments n) pump).Plays ((List.range' (n + 1) offers.length).map moments)
      (offers.map Offer.taken) (session.settled (moments (n + offers.length)) final) := by
  induction h generalizing n with
  | done => exact ⟨rfl, rfl⟩
  | @turn pump final i record after offers ht _ ih =>
    obtain ⟨taken, hstep, hhand⟩ := Pump.moves_of_turn ht
    have hread := @read_of_handOver session (moments (n + 1)) _ _ _ hhand
    have hcount : n + (offers.length + 1) = n + 1 + offers.length := by omega
    rw [settled_of_offer (hstep (moments n)), List.length_cons, List.range'_succ, List.map_cons,
      hcount]
    constructor
    · simp only [pacedReads, hread, (ih (n + 1)).paced]
      rfl
    · simp only [reads, hread]
      exact (ih (n + 1)).last

/-! ## What a session concludes with -/

theorem concludes_of_ended {reason : StopReason} {pump : Pump} (hc : session.collected = false) :
    (session.moved (pump.closeAll, .ended reason)).Concludes []
      ⟨pump.emitted, pump.restarts, reason, 0⟩ := by
  have hwait : (session.moved (pump.closeAll, .ended reason)).wait.1
      = some ⟨pump.emitted, pump.restarts, reason, 0⟩ := by
    rw [← Pump.summary_closeAll]
    simp only [wait, moved, hc]
    rfl
  intro trees
  induction trees with
  | nil => exact ⟨rfl, fun _ => hwait⟩
  | cons tree trees ih =>
    refine ⟨?_, fun _ => ih.2 (Nat.zero_le _)⟩
    rw [List.length_cons, List.range_succ_eq_map, List.map_cons, List.map_map]
    exact congrArg (.ok none :: ·) ih.1

theorem concludes_cons {result : ReadResult} {results : List ReadResult} {summary : Summary}
    (h : ∀ tree, (session.read tree).value.1 = result ∧
      (session.read tree).value.2.Concludes results summary) :
    session.Concludes (result :: results) summary := by
  intro trees
  cases trees with
  | nil => exact ⟨rfl, fun hlen => absurd hlen (by simp)⟩
  | cons tree trees =>
    obtain ⟨hresult, hnext⟩ := h tree
    obtain ⟨hresults, hwait⟩ := hnext trees
    constructor
    · rw [List.length_cons, List.range_succ_eq_map, List.map_cons, List.map_map]
      simp only [reads, hresult, hresults]
      rfl
    · intro hlen
      exact hwait (Nat.le_of_succ_le_succ hlen)

/-- A read gives the first of the results, and the session concludes with the others. -/
theorem Concludes.read {results : List ReadResult} {summary : Summary}
    (h : session.Concludes results summary) (tree : FileTree) :
    (session.read tree).value.1 = results.head?.getD (.ok none) ∧
      (session.read tree).value.2.Concludes results.tail summary := by
  constructor
  · have hresults := (h [tree]).1
    rw [List.length_singleton, List.range_one, List.map_singleton, ← List.head?_eq_getElem?]
      at hresults
    exact (List.cons.inj hresults).1
  · intro trees
    obtain ⟨hresults, hwait⟩ := h (tree :: trees)
    rw [List.length_cons, List.range_succ_eq_map, List.map_cons, List.map_map] at hresults
    refine ⟨(List.cons.inj hresults).2.trans (List.map_congr_left fun n _ => ?_), fun hlen => ?_⟩
    · simp
    · rw [List.length_tail] at hlen
      exact hwait (by rw [List.length_cons]; omega)

theorem Awaits.concludes (h : session.Awaits offers final) :
    session.Concludes ((offers.map Offer.taken).map (·.2))
      ⟨final.emitted, final.restarts, .exhausted, 0⟩ := by
  intro trees
  obtain ⟨hresults, hlast⟩ := h.reads trees
  refine ⟨hresults.trans (List.map_congr_left fun n _ => ?_), fun hlen => ?_⟩
  · rw [List.getElem?_map, List.getElem?_map, List.getElem?_map]
    cases offers[n]? with
    | none => rfl
    | some offer => rfl
  · rw [List.length_map, List.length_map] at hlen
    rw [List.drop_of_length_le hlen] at hlast
    exact hlast.wait

theorem concludes_of_turns (h : Pump.Turns pump offers final) {results : List ReadResult}
    {summary : Summary} (hf : ∀ tree, (session.settled tree final).Concludes results summary)
    (tree : FileTree) :
    (session.settled tree pump).Concludes ((offers.map Offer.taken).map (·.2) ++ results)
      summary := by
  induction h generalizing tree with
  | done => exact hf tree
  | turn ht _ ih =>
    obtain ⟨taken, hstep, hhand⟩ := Pump.moves_of_turn ht
    rw [settled_of_offer (hstep tree)]
    refine concludes_cons fun tree => ?_
    rw [read_of_handOver hhand]
    exact ⟨rfl, ih hf tree⟩

theorem concludes_of_failing {error : ReplayError} (hc : session.collected = false) :
    (session.moved (pump, .failing error)).Concludes [.error error]
      ⟨pump.emitted, pump.restarts, .failed error.message, 0⟩ :=
  concludes_cons fun _ => ⟨rfl, concludes_of_ended hc⟩

end Session

end TrafficReplay
