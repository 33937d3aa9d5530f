/-
# What a playback keeps

Whichever way reader and writer take turns, nothing is lost between them: what the output has taken,
and what is still in the buffer, in framing, in the queue and in the reader's hand, is together what
the session gave (`Transfer.Kept`). The reader knows how the session stands (`Transfer.Heard`), and
what it tells in the end is what has happened (`Transfer.Concluded`). All of that holds along every
run (`Transfer.Run.sound`), and none gets stuck on the way (`Transfer.Sound.exists_step`).
-/
import TrafficReplay.Proofs.Playback.Transfer

namespace TrafficReplay.CommandLine.Transfer

variable {t next : Transfer} {deed : Deed} {deeds : List Deed}

/-! ## What the reader knows -/

/-- What the reader has heard of the session. While it reads, no error has come and all records were
counted; when it waits for the writer the session is over, and if neither its end nor an error has
come, the output had a fault. -/
def Heard (deeds : List Deed) (session : Session) : Reader → Prop
  | .reading | .sending _ =>
    errorsRead deeds = [] ∧ session.Underway (recordsRead deeds).length
  | .joining none =>
    (errorsRead deeds = [] ∧ session.phase = .ended .exhausted ∧
      session.Underway (recordsRead deeds).length) ∨ faults deeds ≠ []
  | .joining (some e) => errorsRead deeds = [e] ∧ ∃ reason, session.phase = .ended reason
  | .ended _ => True

/-! ## What the writer keeps -/

/-- How far the writer has come. It flushes only when nothing is left to come, and it is done when
nothing is left in its buffer. -/
def OnTime (t : Transfer) : Writer → Prop
  | .idle | .framing _ => True
  | .flushing => t.ahead = [] ∧ t.reader.hasClosed = true
  | .done (.ok written) =>
    t.ahead = [] ∧ t.reader.hasClosed = true ∧ t.buffer = [] ∧ written = t.written
  | .done (.error _) => False

/-- Nothing is lost between the session and the output, unless the output has a fault, which ends
the writer. -/
inductive Kept (deeds : List Deed) (t : Transfer) : Prop
  | sound : faults deeds = [] →
      t.output ++ t.buffer ++ t.writer.unframed ++ framed t.ahead = framed (recordsRead deeds) →
      t.written + t.writer.begun + t.ahead.length = (recordsRead deeds).length →
      OnTime t t.writer → Kept deeds t
  | broken {fault : Fault} : faults deeds = [fault] → t.writer = .done (.error fault) → Kept deeds t

/-! ## What is told in the end -/

/-- What the ending of a playback says of it: a fault of the output, whatever else has happened; or
an error of the session, all records before it being written; or that all records were written and
counted. -/
inductive Concluded (deeds : List Deed) (t : Transfer) : Ending → Prop
  | refused {fault : Fault} : faults deeds = [fault] → t.writer = .done (.error fault) →
      Concluded deeds t (.failed (Playback.writeFailure fault))
  | failed {e : ReplayError} : faults deeds = [] → t.writer = .done (.ok t.written) →
      errorsRead deeds = [e] → t.output = framed (recordsRead deeds) →
      Concluded deeds t (.failed (Playback.replayFailure e))
  | done {summary : Summary} : faults deeds = [] → t.writer = .done (.ok t.written) →
      errorsRead deeds = [] → t.output = framed (recordsRead deeds) →
      t.written = (recordsRead deeds).length → summary.emitted = t.written →
      summary.reason = .exhausted →
      Concluded deeds t (.done t.written (some summary))

/-- What holds throughout a playback. -/
structure Sound (deeds : List Deed) (t : Transfer) : Prop where
  framable : ∀ record ∈ recordsRead deeds, record.Framable
  heard : Heard deeds t.session t.reader
  kept : Kept deeds t
  concluded : ∀ ending, t.reader = .ended ending → Concluded deeds t ending

theorem sound_begin {session : Session} (h : session.Underway 0) : Sound [] (begin session) :=
  ⟨fun _ h => (nomatch h), ⟨rfl, h⟩, .sound rfl rfl rfl trivial, fun _ h => (nomatch h)⟩

/-! ## The writer's steps -/

theorem Heard.writer {session : Session} {reader : Reader} (h : Heard deeds session reader)
    (hrecord : deed.record? = none) (herror : deed.error? = none) :
    Heard (deeds ++ [deed]) session reader := by
  have hrecords : recordsRead (deeds ++ [deed]) = recordsRead deeds := by
    rw [recordsRead_snoc, hrecord, Option.toList_none, List.append_nil]
  have herrors : errorsRead (deeds ++ [deed]) = errorsRead deeds := by
    rw [errorsRead_snoc, herror, Option.toList_none, List.append_nil]
  have hfaults (hne : faults deeds ≠ []) : faults (deeds ++ [deed]) ≠ [] := by
    rw [faults_snoc]
    exact List.append_ne_nil_of_left_ne_nil hne _
  cases reader with
  | reading => simpa only [Heard, hrecords, herrors] using h
  | sending record => simpa only [Heard, hrecords, herrors] using h
  | ended ending => trivial
  | joining error =>
    cases error with
    | some e => simpa only [Heard, herrors] using h
    | none =>
      rcases h with h | h
      · exact .inl (by simpa only [hrecords, herrors] using h)
      · exact .inr (hfaults h)

theorem Kept.writer (h : Kept deeds t) (hs : WriterStep t deed next) :
    Kept (deeds ++ [deed]) next := by
  have hquiet := faults_quiet deeds
  have hread := recordsRead_quiet deeds
  cases h with
  | broken hf hw =>
    obtain ⟨-, rfl, hw'⟩ := hs.of_done hw
    exact .broken (hquiet.trans hf) hw'
  | sound hf hbytes hcount htime =>
    cases hs with
    | @take record queue hw hq =>
      refine .sound (hquiet.trans hf) ?_ ?_ trivial
      · rw [hread, ← hbytes]
        simp [ahead, hw, hq, Writer.unframed]
      · rw [hread, ← hcount]
        simp only [ahead, hw, hq, Writer.begun, List.length_append, List.length_cons]
        omega
    | @put front rest hw _ =>
      refine .sound (hquiet.trans hf) ?_ ?_ trivial
      · rw [hread, ← hbytes]
        simp [ahead, hw, Writer.unframed]
      · rw [hread, ← hcount, hw]
        rfl
    | count hw =>
      refine .sound (hquiet.trans hf) ?_ ?_ trivial
      · rw [hread, ← hbytes, hw]
        rfl
      · rw [hread, ← hcount, hw]
        rfl
    | flush hw hq hc =>
      have hahead : t.ahead = [] := by
        rw [ahead, hq]
        cases hr : t.reader with
        | sending record => rw [hr] at hc; cases hc
        | reading => rfl
        | joining error => rfl
        | ended ending => rfl
      refine .sound (hquiet.trans hf) ?_ ?_ ⟨hahead, hc⟩
      · rw [hread, ← hbytes, hw]
        rfl
      · rw [hread, ← hcount, hw]
        rfl
    | finish hw hb =>
      rw [hw] at htime
      refine .sound (hquiet.trans hf) ?_ ?_ ⟨htime.1, htime.2, hb, rfl⟩
      · rw [hread, ← hbytes, hw]
        rfl
      · rw [hread, ← hcount, hw]
        rfl
    | @pass front rest hw hb _ =>
      refine .sound (hquiet.trans hf) ?_ (hread ▸ hcount) ?_
      · rw [hread, ← hbytes, hb]
        simp [ahead]
      · -- a writer that is at its output is not done
        dsimp only
        cases hwriter : t.writer with
        | idle => trivial
        | framing rest => trivial
        | flushing =>
          rw [hwriter] at htime
          exact htime
        | done result => rw [hwriter] at hw; cases hw
    | refuse fault hw =>
      refine .broken ?_ rfl
      rw [faults_snoc, hf]
      rfl
    | spill hw _ _ =>
      rw [hw] at htime
      exact htime.elim

theorem Concluded.writer {ending : Ending} (h : Concluded deeds t ending)
    (hs : WriterStep t deed next) : Concluded (deeds ++ [deed]) next ending := by
  cases h with
  | refused hf hw =>
    obtain ⟨-, rfl, hw'⟩ := hs.of_done hw
    refine .refused ?_ hw'
    rw [faults_snoc, hf]
    rfl
  | failed _ hw _ _ =>
    obtain ⟨⟨_, hresult⟩, -⟩ := hs.of_done hw
    cases hresult
  | done _ hw _ _ _ _ _ =>
    obtain ⟨⟨_, hresult⟩, -⟩ := hs.of_done hw
    cases hresult

theorem Sound.writer (h : Sound deeds t) (hs : WriterStep t deed next) :
    Sound (deeds ++ [deed]) next := by
  obtain ⟨hreader, hsession, hrecord, herror⟩ := hs.frame
  refine ⟨?_, ?_, h.kept.writer hs, ?_⟩
  · rw [recordsRead_snoc, hrecord, Option.toList_none, List.append_nil]
    exact h.framable
  · rw [hreader, hsession]
    exact h.heard.writer hrecord herror
  · intro ending hended
    rw [hreader] at hended
    exact (h.concluded ending hended).writer hs

/-! ## The reader's steps -/

theorem OnTime.of_open {writer : Writer} (h : OnTime t writer) (hc : t.reader.hasClosed = false) :
    writer.isDone = false ∧ ∀ other, OnTime other writer := by
  cases writer with
  | idle => exact ⟨rfl, fun _ => trivial⟩
  | framing rest => exact ⟨rfl, fun _ => trivial⟩
  | flushing => exact absurd (hc.symm.trans h.2) Bool.false_ne_true
  | done result =>
    cases result with
    | error fault => exact h.elim
    | ok written => exact absurd (hc.symm.trans h.2.1) Bool.false_ne_true

theorem Heard.reader (h : Heard deeds t.session t.reader) (hk : Kept deeds t)
    (hs : ReaderStep t deed next) : Heard (deeds ++ [deed]) next.session next.reader := by
  cases hs with
  | @read files result after hr hread =>
    rw [hr] at h
    obtain ⟨herrors, hunderway⟩ := h
    cases result with
    | error e =>
      rw [hunderway.of_read_error hread]
      refine ⟨?_, _, rfl⟩
      rw [errorsRead_snoc, herrors]
      rfl
    | ok record? =>
      have hnoerror : errorsRead (deeds ++ [.read files (.ok record?)]) = [] := by
        rw [errorsRead_snoc, herrors]
        rfl
      cases record? with
      | none =>
        obtain ⟨hend, rfl⟩ := hunderway.of_read_none hread
        refine .inl ⟨hnoerror, hend, ?_⟩
        rw [recordsRead_snoc]
        simpa [Deed.record?] using hunderway
      | some record =>
        refine ⟨hnoerror, ?_⟩
        rw [recordsRead_snoc, List.length_append]
        exact (hunderway.of_read hread).2
  | send hr _ _ =>
    rw [hr] at h
    simpa only [Heard, recordsRead_quiet, errorsRead_quiet] using h
  | forgo hr hdone =>
    -- only a fault of the output ends the writer while records are still to come
    refine .inr ?_
    rw [faults_quiet]
    cases hk with
    | broken hf _ => simp [hf]
    | sound _ _ _ htime =>
      have hopen := (htime.of_open (by rw [hr]; rfl)).1
      rw [hdone] at hopen
      cases hopen
  | joinFailed _ _ => trivial
  | join hr _ _ =>
    unfold Ending.ofSession
    trivial

theorem Kept.reader (h : Kept deeds t) (hs : ReaderStep t deed next) :
    Kept (deeds ++ [deed]) next := by
  obtain ⟨hwriter, hbuffer, hwritten, houtput, hfault⟩ := hs.frame
  have hfaults : faults (deeds ++ [deed]) = faults deeds := by
    rw [faults_snoc, hfault]
    exact List.append_nil _
  cases h with
  | broken hf hw => exact .broken (hfaults.trans hf) (hwriter.trans hw)
  | sound hf hbytes hcount htime =>
    have hahead : framed next.ahead = framed t.ahead ++ framed deed.record?.toList ∧
        next.ahead.length = t.ahead.length + deed.record?.toList.length ∧
        OnTime next t.writer := by
      cases hs with
      | @read files result after hr hread =>
        have hopen := (htime.of_open (by rw [hr]; rfl)).2
        rw [ahead, ahead, hr]
        cases result with
        | error e => exact ⟨by simp [Reader.after, Reader.inHand, Deed.record?], rfl, hopen _⟩
        | ok record =>
          cases record with
          | none => exact ⟨by simp [Reader.after, Reader.inHand, Deed.record?], rfl, hopen _⟩
          | some record =>
            refine ⟨by simp [Reader.after, Reader.inHand, Deed.record?], ?_, hopen _⟩
            simp [Reader.after, Reader.inHand, Deed.record?]
      | send hr _ _ =>
        have hopen := (htime.of_open (by rw [hr]; rfl)).2
        rw [ahead, ahead, hr]
        exact ⟨by simp [Reader.inHand, Deed.record?], by simp [Reader.inHand, Deed.record?],
          hopen _⟩
      | forgo hr hdone =>
        have hopen := (htime.of_open (by rw [hr]; rfl)).1
        rw [hdone] at hopen
        cases hopen
      | joinFailed _ hw =>
        rw [hw] at htime
        exact htime.elim
      | join hr hw _ =>
        rw [hw] at htime ⊢
        rw [ahead, ahead, hr]
        refine ⟨by simp [Reader.inHand, Deed.record?], by simp [Reader.inHand, Deed.record?], ?_⟩
        obtain ⟨hnone, -, hdone⟩ := htime
        rw [ahead, hr] at hnone
        exact ⟨hnone, rfl, hdone⟩
    obtain ⟨hframed, hlength, hnext⟩ := hahead
    refine .sound (hfaults.trans hf) ?_ ?_ (hwriter ▸ hnext)
    · rw [houtput, hbuffer, hwriter, hframed, recordsRead_snoc, framed_append, ← hbytes,
        List.append_assoc _ _ (framed deed.record?.toList)]
    · rw [hwritten, hwriter, hlength, recordsRead_snoc, List.length_append, ← hcount]
      omega

theorem Sound.ending {ending : Ending} (h : Sound deeds t) (hs : ReaderStep t deed next)
    (he : next.reader = .ended ending) : Concluded (deeds ++ [deed]) next ending := by
  have hrecords := recordsRead_quiet deeds
  have herrors := errorsRead_quiet deeds
  have hfaults := faults_quiet deeds
  have hheard := h.heard
  cases hs with
  | @read files result after _ _ =>
    cases result with
    | error e => cases he
    | ok record => cases record <;> cases he
  | send _ _ _ => cases he
  | forgo _ _ => cases he
  | joinFailed _ hw =>
    cases he
    cases h.kept with
    | broken hf hw' =>
      rw [hw] at hw'
      cases hw'
      exact .refused (hfaults.trans hf) hw
    | sound _ _ _ htime =>
      rw [hw] at htime
      exact htime.elim
  | @join error written reason hr hw hphase =>
    cases he
    cases h.kept with
    | broken _ hw' =>
      rw [hw] at hw'
      cases hw'
    | sound hf hbytes hcount htime =>
      rw [hw] at htime
      obtain ⟨hnone, -, hbuffer, rfl⟩ := htime
      rw [hnone, hbuffer, hw] at hbytes
      rw [hnone, hw] at hcount
      have houtput : t.output = framed (recordsRead deeds) := by
        simpa [Writer.unframed] using hbytes
      rw [hr] at hheard
      cases error with
      | some e =>
        exact .failed (hfaults.trans hf) hw (herrors.trans hheard.1)
          (houtput.trans (hrecords ▸ rfl))
      | none =>
        rcases hheard with ⟨hnoerror, hend, hunderway⟩ | hbroken
        · obtain ⟨summary, hsummary, hemitted, hreason⟩ := hunderway.wait hend
          have hlength : t.written = (recordsRead deeds).length := by
            simpa [Writer.begun] using hcount
          rw [Ending.ofSession, hsummary]
          exact .done (hfaults.trans hf) hw (herrors.trans hnoerror)
            (houtput.trans (hrecords ▸ rfl))
            (hlength.trans (hrecords ▸ rfl)) (hemitted.trans hlength.symm) hreason
        · exact absurd hf hbroken

theorem Sound.reader (h : Sound deeds t) (hs : ReaderStep t deed next) :
    Sound (deeds ++ [deed]) next := by
  refine ⟨?_, h.heard.reader h.kept hs, h.kept.reader hs, fun ending he => h.ending hs he⟩
  intro record hrecord
  rw [recordsRead_snoc, List.mem_append, Option.mem_toList] at hrecord
  rcases hrecord with hrecord | hrecord
  · exact h.framable record hrecord
  · cases hs with
    | @read files result after hr hread =>
      have hheard := h.heard
      rw [hr] at hheard
      cases result with
      | error e => cases hrecord
      | ok record? =>
        cases hrecord
        exact (hheard.2.of_read hread).1
    | send _ _ _ => cases hrecord
    | forgo _ _ => cases hrecord
    | joinFailed _ _ => cases hrecord
    | join _ _ _ => cases hrecord

/-! ## Whole playbacks -/

/-- **Whichever way reader and writer take turns**, the invariants hold from the beginning on. -/
theorem Run.sound {session : Session} (hsession : session.Underway 0)
    (h : Run (begin session) deeds t) : Sound deeds t := by
  induction h with
  | nil => exact sound_begin hsession
  | snoc _ hs ih =>
    cases hs with
    | reader hs => exact ih.reader hs
    | writer hs => exact ih.writer hs

theorem exists_writerStep (hw : t.writer.isDone = false)
    (hq : t.queue ≠ [] ∨ t.reader.hasClosed = true) :
    ∃ next, WriterStep t .quiet next := by
  cases hwriter : t.writer with
  | done result => rw [hwriter] at hw; cases hw
  | framing rest =>
    cases rest with
    | nil => exact ⟨_, .count hwriter⟩
    | cons b rest =>
      have hall : t.writer = .framing ((b :: rest) ++ []) := by rw [hwriter, List.append_nil]
      exact ⟨_, .put hall (List.cons_ne_nil _ _)⟩
  | flushing =>
    cases hbuffer : t.buffer with
    | nil => exact ⟨_, .finish hwriter hbuffer⟩
    | cons b rest =>
      have hall : t.buffer = (b :: rest) ++ [] := by rw [hbuffer, List.append_nil]
      exact ⟨_, .pass (by rw [hwriter]; rfl) hall (List.cons_ne_nil _ _)⟩
  | idle =>
    cases hqueue : t.queue with
    | cons record queue => exact ⟨_, .take hwriter hqueue⟩
    | nil =>
      rcases hq with hq | hq
      · exact absurd hqueue hq
      · exact ⟨_, .flush hwriter hqueue hq⟩

/-- **Reader and writer never wait for each other without an end**: until everything is over
something can happen, and the output need not have a fault for it. -/
theorem Sound.exists_step (h : Sound deeds t) (he : ∀ ending, t.reader ≠ .ended ending) :
    ∃ deed next, Step t deed next ∧ deed.fault? = none := by
  cases hr : t.reader with
  | ended ending => exact absurd hr (he ending)
  | reading => exact ⟨_, _, .reader (.read ⟨.directory [], []⟩ hr rfl), rfl⟩
  | sending record =>
    cases hdone : t.writer.isDone with
    | true => exact ⟨_, _, .reader (.forgo hr hdone), rfl⟩
    | false =>
      by_cases hroom : t.queue.length < queueSize
      · exact ⟨_, _, .reader (.send hr hroom hdone), rfl⟩
      · have hq : t.queue ≠ [] := by
          rintro hnil
          rw [hnil] at hroom
          exact hroom (by decide)
        obtain ⟨next, hs⟩ := exists_writerStep hdone (.inl hq)
        exact ⟨_, _, .writer hs, rfl⟩
  | joining error =>
    cases hdone : t.writer.isDone with
    | false =>
      obtain ⟨next, hs⟩ := exists_writerStep hdone (.inr (by rw [hr]; rfl))
      exact ⟨_, _, .writer hs, rfl⟩
    | true =>
      cases hw : t.writer with
      | idle => rw [hw] at hdone; cases hdone
      | framing rest => rw [hw] at hdone; cases hdone
      | flushing => rw [hw] at hdone; cases hdone
      | done result =>
        cases result with
        | error fault => exact ⟨_, _, .reader (.joinFailed hr hw), rfl⟩
        | ok written =>
          have hphase : ∃ reason, t.session.phase = .ended reason := by
            have hheard := h.heard
            rw [hr] at hheard
            cases error with
            | some e => exact hheard.2
            | none =>
              rcases hheard with ⟨-, hend, -⟩ | hbroken
              · exact ⟨_, hend⟩
              · cases h.kept with
                | sound hf _ _ _ => exact absurd hf hbroken
                | broken _ hw' => rw [hw] at hw'; cases hw'
          obtain ⟨reason, hphase⟩ := hphase
          exact ⟨_, _, .reader (.join hr hw hphase), rfl⟩

end TrafficReplay.CommandLine.Transfer
