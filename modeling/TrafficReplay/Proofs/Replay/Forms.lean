/-
# Forms of reading

A session is read record by record, into a buffer, or by an iteration. The three forms take from one
stream: whichever of them a call has, it consumes what a plain read would have given in its place,
tells it in its own form (`Session.Consumes`), and leaves the session as the plain read would have
left it (`Session.readAs_consumes`). So any mix of them, with requests to stop in between, goes
through the items of plain reads alone (`Session.carryOut_consumes`), and what a buffer has no room
for is gone.
-/
import Mathlib
import TrafficReplay.Replay.Session

namespace TrafficReplay

namespace Session

/-- How a reader asks. -/
inductive Form
  | plain
  /-- For a record's bytes in front of a buffer, and the length of the record. -/
  | into (buffer : Bytes)
  /-- For the next item of an iteration. -/
  | item

/-- What a reader is told: the result in the form that was asked for, and the buffer as it is
afterwards. -/
inductive Reply
  | plain (result : ReadResult)
  | into (length : Except ReplayError (Option Nat)) (buffer : Bytes)
  | item (next : Option (Except ReplayError Record))

def readAs (tree : FileTree) (session : Session) : Form → Logged (Reply × Session)
  | .plain => do
    let (result, session) ← session.read tree
    return (.plain result, session)
  | .into buffer => do
    let ((length, buffer), session) ← session.readInto tree buffer
    return (.into length buffer, session)
  | .item => do
    let (next, session) ← session.nextRecord tree
    return (.item next, session)

/-- What a reader does: it reads, with the files as they are then, or it requests a stop. -/
inductive Act
  | read (tree : FileTree) (form : Form)
  | stop

def Act.form? : Act → Option Form
  | read _ form => some form
  | stop => none

def Act.plainly : Act → Act
  | read tree _ => .read tree .plain
  | stop => .stop

/-- Does one act after the other, and collects what is told. -/
def carryOut (session : Session) : List Act → Logged (List Reply × Session)
  | [] => pure ([], session)
  | .read tree form :: acts => do
    let (reply, session) ← session.readAs tree form
    let (replies, session) ← session.carryOut acts
    return (reply :: replies, session)
  | .stop :: acts => do
    let session ← session.stop
    session.carryOut acts

/-- A reply tells, in the form that was asked for, what a plain read would have given. -/
inductive Consumes : Form → ReadResult → Reply → Prop
  | plain {result : ReadResult} : Consumes .plain result (.plain result)
  /-- The buffer starts with the first bytes of the record, as many as it has room for. Its other
  bytes are as they were. -/
  | filled {buffer after : Bytes} {record : Record} :
      after.length = buffer.length →
      (∀ i < min record.bytes.length buffer.length, after[i]? = record.bytes[i]?) →
      (∀ i, min record.bytes.length buffer.length ≤ i → after[i]? = buffer[i]?) →
      Consumes (.into buffer) (.ok (some record)) (.into (.ok (some record.bytes.length)) after)
  | intoEnd {buffer : Bytes} : Consumes (.into buffer) (.ok none) (.into (.ok none) buffer)
  | intoError {buffer : Bytes} {error : ReplayError} :
      Consumes (.into buffer) (.error error) (.into (.error error) buffer)
  | item {record : Record} : Consumes .item (.ok (some record)) (.item (some (.ok record)))
  | itemEnd : Consumes .item (.ok none) (.item none)
  | itemError {error : ReplayError} :
      Consumes .item (.error error) (.item (some (.error error)))

/-! ## Buffers -/

section Buffers

variable (buffer bytes : Bytes)

theorem length_fill : (fill buffer bytes).length = buffer.length := by
  rw [fill, List.length_append, List.length_take, List.length_drop]
  omega

theorem getElem?_fill_of_lt {i : Nat} (h : i < min bytes.length buffer.length) :
    (fill buffer bytes)[i]? = bytes[i]? := by
  have hroom : i < buffer.length := h.trans_le (Nat.min_le_right _ _)
  have hfront : i < (bytes.take buffer.length).length := by
    rw [List.length_take, Nat.min_comm]
    exact h
  rw [fill, List.getElem?_append_left hfront, List.getElem?_take_of_lt hroom]

theorem getElem?_fill_of_le {i : Nat} (h : min bytes.length buffer.length ≤ i) :
    (fill buffer bytes)[i]? = buffer[i]? := by
  have hfront : (bytes.take buffer.length).length ≤ i := by
    rw [List.length_take, Nat.min_comm]
    exact h
  rw [fill, List.getElem?_append_right hfront, List.getElem?_drop, List.length_take]
  rcases Nat.le_total bytes.length buffer.length with hfits | hcut
  · rw [Nat.min_eq_right hfits, Nat.add_sub_of_le (by omega)]
  · -- nothing of the buffer is left, and behind its end there is nothing either
    rw [List.getElem?_eq_none (by omega), List.getElem?_eq_none (by omega)]

end Buffers

example : fill [1, 2, 3, 4] [7, 8] = [7, 8, 3, 4] ∧ fill [1, 2] [7, 8, 9] = [7, 8] ∧
    fill [] [7] = [] := by
  decide

/-! ## One call -/

theorem log_readAs (tree : FileTree) (session : Session) (form : Form) :
    (session.readAs tree form).log = (session.read tree).log := by
  cases form with
  | plain => exact List.append_nil _
  | into buffer =>
    simp only [readAs, readInto, Logged.log_bind]
    split <;> simp only [Logged.log_pure, List.append_nil]
  | item =>
    simp only [readAs, nextRecord, Logged.log_bind]
    split <;> simp only [Logged.log_pure, List.append_nil]

/-- **A call in any form consumes what a plain read gives**, and it leaves the session as that
leaves it. -/
theorem readAs_consumes (tree : FileTree) (session : Session) (form : Form) :
    ∃ reply, (session.readAs tree form).value = (reply, (session.read tree).value.2) ∧
      Consumes form (session.read tree).value.1 reply := by
  cases form with
  | plain => exact ⟨_, rfl, .plain⟩
  | into buffer =>
    simp only [readAs, readInto, Logged.value_bind]
    rcases (session.read tree).value.1 with e | _ | record
    · exact ⟨_, rfl, .intoError⟩
    · exact ⟨_, rfl, .intoEnd⟩
    · exact ⟨_, rfl, .filled (length_fill buffer record.bytes)
        (fun _ hi => getElem?_fill_of_lt buffer record.bytes hi)
        (fun _ hi => getElem?_fill_of_le buffer record.bytes hi)⟩
  | item =>
    simp only [readAs, nextRecord, Logged.value_bind]
    rcases (session.read tree).value.1 with e | _ | record
    · exact ⟨_, rfl, .itemError⟩
    · exact ⟨_, rfl, .itemEnd⟩
    · exact ⟨_, rfl, .item⟩

/-! ## The end -/

/-- Nothing is left to read. -/
def Over (session : Session) : Prop :=
  ∀ tree, session.read tree = pure (.ok none, session)

theorem over_of_ended {session : Session} {reason : StopReason}
    (h : session.phase = .ended reason) :
    session.Over := by
  intro tree
  rw [read, h]

theorem over_of_read {tree : FileTree} {session : Session}
    (h : ∀ record, (session.read tree).value.1 ≠ .ok (some record)) :
    (session.read tree).value.2.Over := by
  obtain ⟨pump, phase, collected⟩ := session
  cases phase with
  | holding offer => exact absurd rfl (h offer.record)
  | waiting offer => exact absurd rfl (h offer.record)
  | failing error => exact over_of_ended rfl
  | ready => exact fun _ => rfl
  | ended reason => exact fun _ => rfl

theorem over_stop (session : Session) : session.stop.value.Over := by
  obtain ⟨pump, phase, collected⟩ := session
  cases phase with
  | holding offer => exact over_of_ended rfl
  | waiting offer => exact over_of_ended rfl
  | failing error => exact over_of_ended rfl
  | ready => exact over_of_ended rfl
  | ended reason => exact fun _ => rfl

/-! ## Any number of calls -/

def items (session : Session) : List Act → List ReadResult
  | [] => []
  | .read tree _ :: acts =>
    (session.read tree).value.1 :: (session.read tree).value.2.items acts
  | .stop :: acts => session.stop.value.items acts

theorem Over.items {session : Session} (h : session.Over) (acts : List Act) :
    ∀ item ∈ session.items acts, item = .ok none := by
  induction acts generalizing session with
  | nil => exact fun _ hitem => absurd hitem List.not_mem_nil
  | cons act acts ih =>
    cases act with
    | stop => exact ih (over_stop session)
    | read tree form =>
      intro item hitem
      simp only [Session.items, h tree, Logged.value_pure, List.mem_cons] at hitem
      exact hitem.elim id (ih h item)

theorem pairwise_items (session : Session) (acts : List Act) :
    (session.items acts).Pairwise fun earlier later =>
      (∀ record, earlier ≠ .ok (some record)) → later = .ok none := by
  induction acts generalizing session with
  | nil => exact .nil
  | cons act acts ih =>
    cases act with
    | stop => exact ih session.stop.value
    | read tree form =>
      refine List.pairwise_cons.mpr ⟨fun later hlater hend => ?_, ih _⟩
      exact (over_of_read hend).items acts later hlater

theorem carryOut_read (session : Session) (tree : FileTree) (form : Form) (acts : List Act) :
    let call := session.readAs tree form
    let rest := call.value.2.carryOut acts
    (session.carryOut (.read tree form :: acts)).value
        = (call.value.1 :: rest.value.1, rest.value.2) ∧
      (session.carryOut (.read tree form :: acts)).log = call.log ++ rest.log :=
  ⟨rfl, congrArg (_ ++ ·) (List.append_nil _)⟩

theorem carryOut_items (session : Session) (acts : List Act) :
    ∃ replies last,
      (session.carryOut (acts.map Act.plainly)).value
        = ((session.items acts).map Reply.plain, last) ∧
      (session.carryOut acts).value = (replies, last) ∧
      (session.carryOut acts).log = (session.carryOut (acts.map Act.plainly)).log ∧
      (session.items acts).length = (acts.filterMap Act.form?).length ∧
      List.Forall₂ (fun asked reply => Consumes asked.1 asked.2 reply)
        ((acts.filterMap Act.form?).zip (session.items acts)) replies := by
  induction acts generalizing session with
  | nil => exact ⟨[], session, rfl, rfl, rfl, rfl, .nil⟩
  | cons act acts ih =>
    cases act with
    | stop =>
      obtain ⟨replies, last, hplain, hmixed, hlog, hlength, hall⟩ := ih session.stop.value
      exact ⟨replies, last, hplain, hmixed, congrArg (session.stop.log ++ ·) hlog, hlength, hall⟩
    | read tree form =>
      obtain ⟨reply, hvalue, hreply⟩ := readAs_consumes tree session form
      obtain ⟨replies, last, hplain, hmixed, hlog, hlength, hall⟩ :=
        ih (session.read tree).value.2
      obtain ⟨hcall, hcallLog⟩ := carryOut_read session tree form acts
      obtain ⟨hread, hreadLog⟩ := carryOut_read session tree .plain (acts.map Act.plainly)
      simp only [hvalue, hmixed, log_readAs] at hcall hcallLog
      have hasked : (session.readAs tree .plain).value
          = (.plain (session.read tree).value.1, (session.read tree).value.2) := rfl
      simp only [hasked, hplain, log_readAs] at hread hreadLog
      refine ⟨reply :: replies, last, hread, hcall, ?_, congrArg (· + 1) hlength,
        .cons hreply hall⟩
      exact hcallLog.trans ((congrArg (_ ++ ·) hlog).trans hreadLog.symm)

/-- **All forms of reading consume the same stream.** Whatever mix of them a reader uses, with
buffers of any sizes and with requests to stop in between, there are the items that plain reads
alone would have given: the replies tell them one after the other, each in the form that was asked
for, and nothing else is different afterwards. Once an item is no record, nothing comes behind it.
-/
theorem carryOut_consumes (session : Session) (acts : List Act) :
    ∃ items replies last,
      (session.carryOut (acts.map Act.plainly)).value = (items.map Reply.plain, last) ∧
      (session.carryOut acts).value = (replies, last) ∧
      (session.carryOut acts).log = (session.carryOut (acts.map Act.plainly)).log ∧
      items.length = (acts.filterMap Act.form?).length ∧
      List.Forall₂ (fun asked reply => Consumes asked.1 asked.2 reply)
        ((acts.filterMap Act.form?).zip items) replies ∧
      items.Pairwise fun earlier later =>
        (∀ record, earlier ≠ .ok (some record)) → later = .ok none := by
  obtain ⟨replies, last, hplain, hmixed, hlog, hlength, hall⟩ := carryOut_items session acts
  exact ⟨session.items acts, replies, last, hplain, hmixed, hlog, hlength, hall,
    pairwise_items session acts⟩

/-- What does not fit is not read later. -/
example (tree : FileTree) (pump : Pump) (h : pump.sources = []) (hl : pump.looping = false) :
    let session : Session := ⟨pump, .holding ⟨0, .ofBytes [0x31, 0x20, 0x61], none⟩, false⟩
    (session.carryOut [.read tree (.into [0, 0]), .read tree .item]).value.1
      = [.into (.ok (some 3)) [0x31, 0x20], .item none] := by
  obtain ⟨pattern, looping, sources, pacing, emitted, restarts⟩ := pump
  cases h
  cases hl
  rfl

end Session

end TrafficReplay
