/-
# Reading and writing side by side

A program that plays captures back reads records from its session and hands them over to a writer
through a queue that holds only so many. The writer frames them into a buffer, which the output
takes piece by piece, whenever it likes and as much as it likes, or refuses. A `Transfer` is a
moment of that, and `Transfer.Step` is what can happen next.

* The reader stops at the end of the records, at an error, or when nobody takes its records any
  more. It closes the queue then and waits for the writer, and last for the session
  (`Transfer.ReaderStep`).
* The writer goes on until the queue is closed and empty, flushes its buffer and is done; a fault of
  the output ends it at once. What is in its buffer then may still reach the output
  (`Transfer.WriterStep`).

Neither side touches what is the other's own (`Transfer.ReaderStep.frame`,
`Transfer.WriterStep.frame`).
-/
import TrafficReplay.CommandLine.Playback
import TrafficReplay.Proofs.Replay.Counting

namespace TrafficReplay.CommandLine

/-- How a playback ends. -/
inductive Ending
  /-- It fails. -/
  | failed (failure : Failure)
  /-- It is done: how many records were written, and the summary of the session. -/
  | done (written : Nat) (summary : Option Summary)

namespace Ending

def code : Ending → Nat
  | failed _ => 1
  | done _ _ => 0

/-- What the program leaves behind: `output` and `tree` are what writing has made of the standard
output and of the files, and `said` was said before. -/
def outcome (output said : Bytes) (tree : FileTree) : Ending → Outcome
  | failed failure => .failed output said failure tree
  | done written (some summary) =>
    .done output (said ++ Utf8.encode (Playback.closing written summary)) tree
  | done _ none => .done output said tree

/-- The ending when all was written: an error of the session is reported, or its summary. -/
def ofSession (error : Option ReplayError) (written : Nat) (session : Session) : Ending :=
  match error with
  | some e => .failed (Playback.replayFailure e)
  | none => .done written session.wait.1

@[simp] theorem code_outcome (ending : Ending) (output said : Bytes) (tree : FileTree) :
    (ending.outcome output said tree).code = ending.code := by
  cases ending with
  | failed failure => rfl
  | done written summary =>
    cases summary with
    | none => rfl
    | some summary => rfl

end Ending

/-- What the reader of the session is about. -/
inductive Reader
  /-- About to read. -/
  | reading
  /-- Has a record for the queue. -/
  | sending (record : Record)
  /-- Has closed the queue and waits for the writer; an error may have ended the session. -/
  | joining (error : Option ReplayError)
  /-- Everything is over. -/
  | ended (ending : Ending)

namespace Reader

def after : ReadResult → Reader
  | .ok (some record) => sending record
  | .ok none => joining none
  | .error e => joining (some e)

def inHand : Reader → List Record
  | sending record => [record]
  | reading | joining _ | ended _ => []

def hasClosed : Reader → Bool
  | joining _ | ended _ => true
  | reading | sending _ => false

end Reader

/-- What the writer is about. -/
inductive Writer
  /-- Waits for a record. -/
  | idle
  /-- Frames a record; these bytes of it do not stand in the buffer yet. -/
  | framing (rest : Bytes)
  /-- Has the last bytes in its buffer and waits for the output to take them. -/
  | flushing
  /-- Done, with the number of records written or the fault of the output. -/
  | done (result : Except Fault Nat)

namespace Writer

/-- What does not stand in the buffer yet of the record that is being framed. -/
def unframed : Writer → Bytes
  | framing rest => rest
  | idle | flushing | done _ => []

def begun : Writer → Nat
  | framing _ => 1
  | idle | flushing | done _ => 0

def isWriting : Writer → Bool
  | framing _ | flushing => true
  | idle | done _ => false

def isDone : Writer → Bool
  | done _ => true
  | idle | framing _ | flushing => false

end Writer

/-- A moment of a playback. -/
structure Transfer where
  reader : Reader
  session : Session
  /-- The records between reader and writer. -/
  queue : List Record
  writer : Writer
  /-- What was framed and not taken by the output yet. -/
  buffer : Bytes
  /-- How many records were framed. -/
  written : Nat
  /-- What the output has taken. -/
  output : Bytes

namespace Transfer

def queueSize : Nat := 1024

def begin (session : Session) : Transfer :=
  ⟨.reading, session, [], .idle, [], 0, []⟩

def ahead (t : Transfer) : List Record :=
  t.queue ++ t.reader.inHand

/-- What happens in a step, as far as the session or the output take part. -/
inductive Deed
  /-- The session is read, the files being so at that moment. -/
  | read (files : FileTree) (result : ReadResult)
  /-- The output has a fault. -/
  | refuse (fault : Fault)
  /-- Neither. -/
  | quiet

namespace Deed

def record? : Deed → Option Record
  | read _ (.ok record) => record
  | read _ (.error _) | refuse _ | quiet => none

def error? : Deed → Option ReplayError
  | read _ (.error e) => some e
  | read _ (.ok _) | refuse _ | quiet => none

def fault? : Deed → Option Fault
  | refuse fault => some fault
  | read _ _ | quiet => none

def files? : Deed → Option FileTree
  | read files _ => some files
  | refuse _ | quiet => none

end Deed

/-- What the reader can do. -/
inductive ReaderStep : Transfer → Deed → Transfer → Prop
  | read {t : Transfer} (files : FileTree) {result : ReadResult} {next : Session} :
      t.reader = .reading → (t.session.read files).value = (result, next) →
      ReaderStep t (.read files result) { t with reader := .after result, session := next }
  | send {t : Transfer} {record : Record} :
      t.reader = .sending record → t.queue.length < queueSize → t.writer.isDone = false →
      ReaderStep t .quiet { t with reader := .reading, queue := t.queue ++ [record] }
  /-- Nobody is left to take the record: the session is stopped. -/
  | forgo {t : Transfer} {record : Record} :
      t.reader = .sending record → t.writer.isDone = true →
      ReaderStep t .quiet { t with reader := .joining none, session := t.session.stop.value }
  | joinFailed {t : Transfer} {error : Option ReplayError} {fault : Fault} :
      t.reader = .joining error → t.writer = .done (.error fault) →
      ReaderStep t .quiet { t with reader := .ended (.failed (Playback.writeFailure fault)) }
  | join {t : Transfer} {error : Option ReplayError} {written : Nat} {reason : StopReason} :
      t.reader = .joining error → t.writer = .done (.ok written) →
      t.session.phase = .ended reason →
      ReaderStep t .quiet { t with reader := .ended (.ofSession error written t.session) }

/-- What the writer can do, and the output with it. -/
inductive WriterStep : Transfer → Deed → Transfer → Prop
  | take {t : Transfer} {record : Record} {queue : List Record} :
      t.writer = .idle → t.queue = record :: queue →
      WriterStep t .quiet { t with writer := .framing (Framing.frame record.bytes), queue := queue }
  | put {t : Transfer} {front rest : Bytes} :
      t.writer = .framing (front ++ rest) → front ≠ [] →
      WriterStep t .quiet { t with writer := .framing rest, buffer := t.buffer ++ front }
  | count {t : Transfer} :
      t.writer = .framing [] →
      WriterStep t .quiet { t with writer := .idle, written := t.written + 1 }
  | flush {t : Transfer} :
      t.writer = .idle → t.queue = [] → t.reader.hasClosed = true →
      WriterStep t .quiet { t with writer := .flushing }
  | finish {t : Transfer} :
      t.writer = .flushing → t.buffer = [] →
      WriterStep t .quiet { t with writer := .done (.ok t.written) }
  | pass {t : Transfer} {front rest : Bytes} :
      t.writer.isWriting = true → t.buffer = front ++ rest → front ≠ [] →
      WriterStep t .quiet { t with buffer := rest, output := t.output ++ front }
  | refuse {t : Transfer} (fault : Fault) :
      t.writer.isWriting = true →
      WriterStep t (.refuse fault) { t with writer := .done (.error fault) }
  /-- What is in the buffer when the writer gives up may still be taken. -/
  | spill {t : Transfer} {fault : Fault} {front rest : Bytes} :
      t.writer = .done (.error fault) → t.buffer = front ++ rest → front ≠ [] →
      WriterStep t .quiet { t with buffer := rest, output := t.output ++ front }

/-- What can happen next. -/
inductive Step (t : Transfer) (deed : Deed) (next : Transfer) : Prop
  | reader : ReaderStep t deed next → Step t deed next
  | writer : WriterStep t deed next → Step t deed next

/-- What can happen one step after the other. -/
inductive Run (first : Transfer) : List Deed → Transfer → Prop
  | nil : Run first [] first
  | snoc {deeds : List Deed} {deed : Deed} {t next : Transfer} :
      Run first deeds t → Step t deed next → Run first (deeds ++ [deed]) next

theorem Run.append {first middle last : Transfer} {deeds others : List Deed}
    (h : Run first deeds middle) (h' : Run middle others last) :
    Run first (deeds ++ others) last := by
  induction h' with
  | nil => rwa [List.append_nil]
  | snoc _ hs ih =>
    rw [← List.append_assoc]
    exact ih.snoc hs

theorem Run.single {t next : Transfer} {deed : Deed} (h : Step t deed next) : Run t [deed] next :=
  Run.nil.snoc h

def recordsRead (deeds : List Deed) : List Record :=
  deeds.filterMap Deed.record?

def errorsRead (deeds : List Deed) : List ReplayError :=
  deeds.filterMap Deed.error?

def faults (deeds : List Deed) : List Fault :=
  deeds.filterMap Deed.fault?

def filesRead (deeds : List Deed) : List FileTree :=
  deeds.filterMap Deed.files?

section Traces

variable (deeds : List Deed) (deed : Deed)

theorem recordsRead_snoc :
    recordsRead (deeds ++ [deed]) = recordsRead deeds ++ deed.record?.toList :=
  filterMap_snoc _ _ _

theorem errorsRead_snoc : errorsRead (deeds ++ [deed]) = errorsRead deeds ++ deed.error?.toList :=
  filterMap_snoc _ _ _

theorem faults_snoc : faults (deeds ++ [deed]) = faults deeds ++ deed.fault?.toList :=
  filterMap_snoc _ _ _

@[simp] theorem recordsRead_quiet : recordsRead (deeds ++ [.quiet]) = recordsRead deeds :=
  (recordsRead_snoc deeds .quiet).trans (List.append_nil _)

@[simp] theorem errorsRead_quiet : errorsRead (deeds ++ [.quiet]) = errorsRead deeds :=
  (errorsRead_snoc deeds .quiet).trans (List.append_nil _)

@[simp] theorem faults_quiet : faults (deeds ++ [.quiet]) = faults deeds :=
  (faults_snoc deeds .quiet).trans (List.append_nil _)

theorem faults_append (others : List Deed) :
    faults (deeds ++ others) = faults deeds ++ faults others :=
  List.filterMap_append

theorem filesRead_append (others : List Deed) :
    filesRead (deeds ++ others) = filesRead deeds ++ filesRead others :=
  List.filterMap_append

end Traces

variable {t next : Transfer} {deed : Deed} {deeds : List Deed}

/-- What the writer does leaves the reader and the session alone, and nothing is read in it. -/
theorem WriterStep.frame (h : WriterStep t deed next) :
    next.reader = t.reader ∧ next.session = t.session ∧ deed.record? = none ∧
    deed.error? = none := by
  cases h <;> exact ⟨rfl, rfl, rfl, rfl⟩

theorem WriterStep.of_done {result : Except Fault Nat} (hs : WriterStep t deed next)
    (hw : t.writer = .done result) :
    (∃ fault, result = .error fault) ∧ deed = .quiet ∧ next.writer = .done result := by
  cases hs with
  | spill hw' _ _ =>
    rw [hw] at hw'
    cases hw'
    exact ⟨⟨_, rfl⟩, rfl, hw⟩
  | take hw' _ => rw [hw] at hw'; cases hw'
  | put hw' _ => rw [hw] at hw'; cases hw'
  | count hw' => rw [hw] at hw'; cases hw'
  | flush hw' _ _ => rw [hw] at hw'; cases hw'
  | finish hw' _ => rw [hw] at hw'; cases hw'
  | pass hw' _ _ => rw [hw] at hw'; cases hw'
  | refuse _ hw' => rw [hw] at hw'; cases hw'

theorem ReaderStep.frame (h : ReaderStep t deed next) :
    next.writer = t.writer ∧ next.buffer = t.buffer ∧ next.written = t.written ∧
      next.output = t.output ∧ deed.fault? = none := by
  cases h <;> exact ⟨rfl, rfl, rfl, rfl, rfl⟩

end Transfer

end TrafficReplay.CommandLine
