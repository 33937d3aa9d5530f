/-
# Playbacks from beginning to end

`Playback.readTimes` reads a session to its end; when there is time enough for all that the session
has left, it gets there (`Playback.exists_playback`). What it has read can be written by a run in
which nothing is in anybody's way (`Transfer.exists_smooth`). And an output may refuse the very
first record (`Transfer.exists_refused`).
-/
import TrafficReplay.Proofs.Playback.Keeping
import TrafficReplay.Proofs.Replay.Budget

namespace TrafficReplay.CommandLine

namespace Playback

variable {tree : FileTree} {session : Session}

/-- The first of some reads gives a record, and the others come behind it; or it is the last. -/
theorem readTimes_succ (tree : FileTree) (times : Nat) (session : Session) :
    (∃ record next, (session.read tree).value = (.ok (some record), next) ∧
      (readTimes tree (times + 1) session).value
        = (readTimes tree times next).value.map (addRecord record)) ∨
    (∃ next, (session.read tree).value = (.ok none, next) ∧
      (readTimes tree (times + 1) session).value = some ⟨[], none, next⟩) ∨
    ∃ e next, (session.read tree).value = (.error e, next) ∧
      (readTimes tree (times + 1) session).value = some ⟨[], some e, next⟩ := by
  rcases hread : (session.read tree).value with ⟨result, next⟩
  simp only [readTimes, Logged.value_bind, hread]
  cases result with
  | error e => exact .inr (.inr ⟨e, next, rfl, rfl⟩)
  | ok record? =>
    cases record? with
    | none => exact .inr (.inl ⟨next, rfl, rfl⟩)
    | some record => exact .inl ⟨record, next, rfl, rfl⟩

theorem records_ne_nil_of_read {times : Nat} (htimes : 0 < times) {record : Record} {next : Session}
    (hread : (session.read tree).value = (.ok (some record), next)) {playback : Playback}
    (h : (readTimes tree times session).value = some playback) : playback.records ≠ [] := by
  obtain ⟨times, rfl⟩ := Nat.exists_eq_succ_of_ne_zero (Nat.ne_of_gt htimes)
  simp only [readTimes, Logged.value_bind, hread, Logged.value_pure] at h
  obtain ⟨later, -, rfl⟩ := Option.map_eq_some_iff.mp h
  exact List.cons_ne_nil _ _

/-- Where some records were read, or more than there was time for, the first read gave one. -/
theorem read_of_readTimes {times : Nat} (htimes : 0 < times)
    (h : ∀ playback, (readTimes tree times session).value = some playback → playback.records ≠ []) :
    ∃ record next, (session.read tree).value = (.ok (some record), next) := by
  obtain ⟨times, rfl⟩ := Nat.exists_eq_succ_of_ne_zero (Nat.ne_of_gt htimes)
  rcases readTimes_succ tree times session with
    ⟨record, next, hread, -⟩ | ⟨next, -, hlast⟩ | ⟨e, next, -, hlast⟩
  · exact ⟨record, next, hread⟩
  · exact absurd rfl (h _ hlast)
  · exact absurd rfl (h _ hlast)

theorem readsLeft_eq (session : Session) :
    readsLeft session
      = 3 + (session.pump.sources.map fun source =>
          source.stream.elim 0 Delivery.remaining + 1).sum := by
  have hfoldl (sources : List Source) (total : Nat) :
      sources.foldl (fun total source => total + source.stream.elim 0 Delivery.remaining + 1) total
        = total + (sources.map fun source =>
            source.stream.elim 0 Delivery.remaining + 1).sum := by
    induction sources generalizing total with
    | nil => rfl
    | cons source sources ih =>
      rw [List.foldl_cons, ih, List.map_cons, List.sum_cons]
      omega
  exact hfoldl _ 3

theorem readsLeft_pos (session : Session) : 0 < readsLeft session := by
  rw [readsLeft_eq]
  omega

theorem exists_playback {n most times : Nat} (h : session.Underway n)
    (hb : Bounded most (session.pump, session.phase)) (ht : most < times) :
    ∃ playback, (readTimes tree times session).value = some playback := by
  induction times generalizing session n most with
  | zero => exact absurd ht (Nat.not_lt_zero most)
  | succ times ih =>
    rcases readTimes_succ tree times session with
      ⟨record, next, hread, htimes⟩ | ⟨next, -, htimes⟩ | ⟨e, next, -, htimes⟩
    · obtain ⟨fewer, rfl, hfewer⟩ := h.read_bounded hb hread
      obtain ⟨later, hlater⟩ := ih (h.of_read hread).2 hfewer (Nat.lt_of_succ_lt_succ ht)
      exact ⟨addRecord record later, by rw [htimes, hlater]; rfl⟩
    · exact ⟨_, htimes⟩
    · exact ⟨_, htimes⟩

/-- What reading a session to its end has given: records that can be framed, a session that is over,
and, unless an error was read, a summary that counts the records. -/
structure Complete (n : Nat) (playback : Playback) : Prop where
  framable : ∀ record ∈ playback.records, record.Framable
  isOver : ∃ reason, playback.session.phase = .ended reason
  summary : playback.error = none → ∃ summary, playback.session.wait.1 = some summary ∧
    summary.emitted = n + playback.records.length ∧ summary.reason = .exhausted

theorem complete_of_readTimes {n times : Nat} {playback : Playback} (h : session.Underway n)
    (hp : (readTimes tree times session).value = some playback) : Complete n playback := by
  induction times generalizing session n playback with
  | zero => cases hp
  | succ times ih =>
    rcases readTimes_succ tree times session with
      ⟨record, next, hread, htimes⟩ | ⟨next, hread, htimes⟩ | ⟨e, next, hread, htimes⟩
    · obtain ⟨hrecord, hnext⟩ := h.of_read hread
      rw [htimes, Option.map_eq_some_iff] at hp
      obtain ⟨later, hlater, rfl⟩ := hp
      obtain ⟨hframable, hover, hsummary⟩ := ih hnext hlater
      refine ⟨List.forall_mem_cons.mpr ⟨hrecord, hframable⟩, hover, fun he => ?_⟩
      obtain ⟨summary, hwait, hemitted, hreason⟩ := hsummary he
      refine ⟨summary, hwait, ?_, hreason⟩
      rw [hemitted, addRecord, List.length_cons]
      omega
    · rw [htimes] at hp
      cases hp
      obtain ⟨hend, rfl⟩ := h.of_read_none hread
      exact ⟨fun _ hmem => absurd hmem List.not_mem_nil, ⟨_, hend⟩, fun _ => h.wait hend⟩
    · rw [htimes] at hp
      cases hp
      refine ⟨fun _ hmem => absurd hmem List.not_mem_nil, ?_, fun he => nomatch he⟩
      rw [h.of_read_error hread]
      exact ⟨_, rfl⟩

theorem of_concludes {times : Nat} {playback : Playback} {records : List Record}
    {error : Option ReplayError} {summary : Summary}
    (h : session.Concludes
      (records.map (fun record => .ok (some record)) ++ error.toList.map .error) summary)
    (hp : (readTimes tree times session).value = some playback) :
    playback.records = records ∧ playback.error = error := by
  induction times generalizing session playback records with
  | zero => cases hp
  | succ times ih =>
    obtain ⟨hresult, hnext⟩ := h.read tree
    rcases readTimes_succ tree times session with
      ⟨record, next, hread, htimes⟩ | ⟨next, hread, htimes⟩ | ⟨e, next, hread, htimes⟩
    all_goals rw [hread] at hresult hnext; rw [htimes] at hp
    · cases records with
      | nil =>
        cases error with
        | none => cases hresult
        | some e => cases hresult
      | cons first records =>
        cases hresult
        obtain ⟨later, hlater, rfl⟩ := Option.map_eq_some_iff.mp hp
        obtain ⟨hrecords, herror⟩ := ih hnext hlater
        exact ⟨congrArg (record :: ·) hrecords, herror⟩
    · cases hp
      cases records with
      | nil =>
        cases error with
        | none => exact ⟨rfl, rfl⟩
        | some e => cases hresult
      | cons first records => cases hresult
    · cases hp
      cases records with
      | nil =>
        cases error with
        | none => cases hresult
        | some e =>
          cases hresult
          exact ⟨rfl, rfl⟩
      | cons first records => cases hresult

variable {items : List (Nat × Record)} {times : Nat} {playback : Playback} {summary : Summary}

theorem of_concludes_exhausted
    (h : session.Concludes (items.map fun item => .ok (some item.2)) summary)
    (hp : (readTimes tree times session).value = some playback) :
    playback.records = items.map (·.2) ∧ playback.error = none := by
  have hshape : (items.map fun item => .ok (some item.2))
      = (items.map (·.2)).map (fun record => (.ok (some record) : ReadResult))
        ++ (none : Option ReplayError).toList.map .error := by
    rw [List.map_map, Option.toList_none, List.map_nil, List.append_nil]
    rfl
  exact of_concludes (hshape ▸ h) hp

theorem of_concludes_error {e : ReplayError}
    (h : session.Concludes (items.map (fun item => .ok (some item.2)) ++ [.error e]) summary)
    (hp : (readTimes tree times session).value = some playback) :
    playback.records = items.map (·.2) ∧ playback.error = some e := by
  have hshape : items.map (fun item => .ok (some item.2)) ++ [.error e]
      = (items.map (·.2)).map (fun record => (.ok (some record) : ReadResult))
        ++ (some e).toList.map .error := by
    rw [List.map_map]
    rfl
  exact of_concludes (hshape ▸ h) hp

theorem bounded_readsLeft (h : session.pump.looping = false) :
    Bounded (readsLeft session - 1) (session.pump, session.phase) := by
  have hbudget : session.pump.budget ≤ (session.pump.sources.map fun source =>
      source.stream.elim 0 Delivery.remaining + 1).sum :=
    List.sum_le_sum fun source _ => source.budget_le
  have hdue : session.phase.due ≤ 1 := by
    cases session.phase with
    | waiting offer => exact Nat.le_refl 1
    | holding offer => exact Nat.le_refl 1
    | ready => exact Nat.zero_le 1
    | failing error => exact Nat.zero_le 1
    | ended reason => exact Nat.zero_le 1
  refine ⟨h, ?_⟩
  rw [readsLeft_eq]
  dsimp only
  omega

end Playback

namespace Transfer

/-! ## Runs without faults -/

/-- A run in which the session is read with the files being so, and the output takes everything. -/
structure Smooth (files : FileTree) (first : Transfer) (deeds : List Deed) (last : Transfer) :
    Prop where
  run : Run first deeds last
  faults : faults deeds = []
  files : ∀ seen ∈ filesRead deeds, seen = files

variable {files : FileTree} {first middle last : Transfer} {deeds others : List Deed}

theorem Smooth.append (h : Smooth files first deeds middle) (h' : Smooth files middle others last) :
    Smooth files first (deeds ++ others) last := by
  refine ⟨h.run.append h'.run, ?_, ?_⟩
  · rw [faults_append, h.faults, h'.faults]
    rfl
  · rw [filesRead_append]
    exact List.forall_mem_append.mpr ⟨h.files, h'.files⟩

theorem Smooth.read {t : Transfer} {result : ReadResult} {next : Session} (hr : t.reader = .reading)
    (h : (t.session.read files).value = (result, next)) :
    Smooth files t [.read files result] { t with reader := .after result, session := next } :=
  ⟨.single (.reader (.read files hr h)), rfl, fun _ hseen => List.mem_singleton.mp hseen⟩

def clear (reader : Reader) (session : Session) (written : Nat) (output : Bytes) : Transfer :=
  ⟨reader, session, [], .idle, [], written, output⟩

theorem queueSize_pos : 0 < queueSize := by
  decide

theorem frame_ne_nil (raw : Bytes) : Framing.frame raw ≠ [] := by
  intro h
  have hlen := congrArg List.length h
  simp [Framing.frame] at hlen

theorem smooth_record (files : FileTree) (record : Record) (session : Session) (written : Nat)
    (output : Bytes) :
    ∃ deeds, Smooth files (clear (.sending record) session written output) deeds
      (clear .reading session (written + 1) (output ++ Framing.frame record.bytes)) := by
  have hne := frame_ne_nil record.bytes
  have hsend : Step (clear (.sending record) session written output) .quiet
      ⟨.reading, session, [record], .idle, [], written, output⟩ :=
    .reader (.send rfl queueSize_pos rfl)
  have htake : Step ⟨.reading, session, [record], .idle, [], written, output⟩ .quiet
      ⟨.reading, session, [], .framing (Framing.frame record.bytes), [], written, output⟩ :=
    .writer (.take rfl rfl)
  have hput : Step
      ⟨.reading, session, [], .framing (Framing.frame record.bytes), [], written, output⟩ .quiet
      ⟨.reading, session, [], .framing [], Framing.frame record.bytes, written, output⟩ :=
    .writer (.put (congrArg Writer.framing (List.append_nil _).symm) hne)
  have hpass : Step
      ⟨.reading, session, [], .framing [], Framing.frame record.bytes, written, output⟩ .quiet
      ⟨.reading, session, [], .framing [], [], written, output ++ Framing.frame record.bytes⟩ :=
    .writer (.pass rfl (List.append_nil _).symm hne)
  have hcount : Step
      ⟨.reading, session, [], .framing [], [], written, output ++ Framing.frame record.bytes⟩ .quiet
      (clear .reading session (written + 1) (output ++ Framing.frame record.bytes)) :=
    .writer (.count rfl)
  exact ⟨_, (((((Run.nil.snoc hsend).snoc htake).snoc hput).snoc hpass).snoc hcount), rfl,
    fun _ hseen => nomatch hseen⟩

theorem smooth_of_readTimes {times : Nat} {session : Session} {playback : Playback}
    (h : (Playback.readTimes files times session).value = some playback) (written : Nat)
    (output : Bytes) :
    ∃ deeds, Smooth files (clear .reading session written output) deeds
      (clear (.joining playback.error) playback.session (written + playback.records.length)
        (output ++ framed playback.records)) := by
  induction times generalizing session playback written output with
  | zero => cases h
  | succ times ih =>
    rcases Playback.readTimes_succ files times session with
      ⟨record, next, hread, htimes⟩ | ⟨next, hread, htimes⟩ | ⟨e, next, hread, htimes⟩
    · rw [htimes, Option.map_eq_some_iff] at h
      obtain ⟨later, hlater, rfl⟩ := h
      have hstep := @Smooth.read files (clear .reading session written output) _ _ rfl hread
      obtain ⟨deeds, hrecord⟩ := smooth_record files record next written output
      obtain ⟨others, hothers⟩ := ih hlater (written + 1) (output ++ Framing.frame record.bytes)
      rw [List.append_assoc, Nat.add_assoc, Nat.add_comm 1] at hothers
      exact ⟨_, (hstep.append hrecord).append hothers⟩
    · rw [htimes] at h
      cases h
      refine ⟨[.read files (.ok none)], ?_⟩
      rw [framed_nil, List.append_nil]
      exact .read rfl hread
    · rw [htimes] at h
      cases h
      refine ⟨[.read files (.error e)], ?_⟩
      rw [framed_nil, List.append_nil]
      exact .read rfl hread

theorem smooth_end (files : FileTree) (error : Option ReplayError) {session : Session}
    {reason : StopReason} (h : session.phase = .ended reason) (written : Nat) (output : Bytes) :
    ∃ deeds t, Smooth files (clear (.joining error) session written output) deeds t ∧
      t.reader = .ended (.ofSession error written session) ∧ t.output = output := by
  have hflush : Step (clear (.joining error) session written output) .quiet
      ⟨.joining error, session, [], .flushing, [], written, output⟩ :=
    .writer (.flush rfl rfl rfl)
  have hfinish : Step ⟨.joining error, session, [], .flushing, [], written, output⟩ .quiet
      ⟨.joining error, session, [], .done (.ok written), [], written, output⟩ :=
    .writer (.finish rfl rfl)
  have hjoin : Step ⟨.joining error, session, [], .done (.ok written), [], written, output⟩ .quiet
      ⟨.ended (.ofSession error written session), session, [], .done (.ok written), [], written,
        output⟩ :=
    .reader (.join rfl rfl h)
  exact ⟨_, _, ⟨((Run.nil.snoc hflush).snoc hfinish).snoc hjoin, rfl, fun _ hseen => nomatch hseen⟩,
    rfl, rfl⟩

theorem exists_smooth {times : Nat} {session : Session} {playback : Playback}
    (hsession : session.Underway 0)
    (h : (Playback.readTimes files times session).value = some playback) :
    ∃ deeds t, Smooth files (begin session) deeds t ∧ t.output = framed playback.records ∧
      t.reader = .ended (.ofSession playback.error playback.records.length playback.session) := by
  obtain ⟨deeds, hread⟩ := smooth_of_readTimes h 0 []
  rw [Nat.zero_add, List.nil_append] at hread
  obtain ⟨reason, hphase⟩ := (Playback.complete_of_readTimes hsession h).isOver
  obtain ⟨others, t, hend, hreader, houtput⟩ := smooth_end files playback.error hphase
    playback.records.length (framed playback.records)
  exact ⟨_, t, hread.append hend, houtput, hreader⟩

theorem exists_refused {session next : Session} {record : Record}
    (h : (session.read files).value = (.ok (some record), next)) (fault : Fault) :
    ∃ deeds t, Run (begin session) deeds t ∧ faults deeds = [fault] ∧
      (∀ seen ∈ filesRead deeds, seen = files) ∧
      t.reader = .ended (.failed (Playback.writeFailure fault)) := by
  have hread : Step (begin session) (.read files (.ok (some record)))
      ⟨.sending record, next, [], .idle, [], 0, []⟩ := .reader (.read files rfl h)
  have hsend : Step ⟨.sending record, next, [], .idle, [], 0, []⟩ .quiet
      ⟨.reading, next, [record], .idle, [], 0, []⟩ := .reader (.send rfl queueSize_pos rfl)
  have htake : Step ⟨.reading, next, [record], .idle, [], 0, []⟩ .quiet
      ⟨.reading, next, [], .framing (Framing.frame record.bytes), [], 0, []⟩ :=
      .writer (.take rfl rfl)
  have hrefuse : Step ⟨.reading, next, [], .framing (Framing.frame record.bytes), [], 0, []⟩
      (.refuse fault) ⟨.reading, next, [], .done (.error fault), [], 0, []⟩ :=
    .writer (.refuse fault rfl)
  have hrun := (((Run.nil.snoc hread).snoc hsend).snoc htake).snoc hrefuse
  -- the reader learns of it when it has another record for the queue, or when it waits for the writer
  rcases hagain : (next.read files).value with ⟨result, last⟩
  have hsecond : Step ⟨.reading, next, [], .done (.error fault), [], 0, []⟩ (.read files result)
      ⟨.after result, last, [], .done (.error fault), [], 0, []⟩ := .reader (.read files rfl hagain)
  cases result with
  | error e =>
    have hjoin : Step ⟨.joining (some e), last, [], .done (.error fault), [], 0, []⟩ .quiet
        ⟨.ended (.failed (Playback.writeFailure fault)), last, [], .done (.error fault), [], 0,
          []⟩ :=
      .reader (.joinFailed rfl rfl)
    exact ⟨_, _, (hrun.snoc hsecond).snoc hjoin, rfl, by simp [filesRead, Deed.files?], rfl⟩
  | ok record? =>
    cases record? with
    | none =>
      have hjoin : Step ⟨.joining none, last, [], .done (.error fault), [], 0, []⟩ .quiet
          ⟨.ended (.failed (Playback.writeFailure fault)), last, [], .done (.error fault), [], 0,
            []⟩ :=
        .reader (.joinFailed rfl rfl)
      exact ⟨_, _, (hrun.snoc hsecond).snoc hjoin, rfl, by simp [filesRead, Deed.files?], rfl⟩
    | some another =>
      have hforgo : Step ⟨.sending another, last, [], .done (.error fault), [], 0, []⟩ .quiet
          ⟨.joining none, last.stop.value, [], .done (.error fault), [], 0, []⟩ :=
        .reader (.forgo rfl rfl)
      have hjoin : Step ⟨.joining none, last.stop.value, [], .done (.error fault), [], 0, []⟩ .quiet
          ⟨.ended (.failed (Playback.writeFailure fault)), last.stop.value, [],
            .done (.error fault), [], 0, []⟩ :=
        .reader (.joinFailed rfl rfl)
      exact ⟨_, _, ((hrun.snoc hsecond).snoc hforgo).snoc hjoin,
        rfl, by simp [filesRead, Deed.files?],
        rfl⟩

end Transfer

end TrafficReplay.CommandLine
