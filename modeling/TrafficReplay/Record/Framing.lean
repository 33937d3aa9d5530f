/-
# Framing of records

A capture is a row of records, each one followed by a line that holds nothing but the separator.
`Framing.frame` writes a record that way. `Framing.readRecord` reads one from a stream; the line
break in front of the separator belongs to the framing, and bytes that no separator follows belong
to no record. `Framing.readings` is all that reading a stream to its end gives.
-/
import TrafficReplay.Delivery
import TrafficReplay.Log

namespace TrafficReplay

/-- What reading a record comes to. -/
inductive RecordReading
  /-- The bytes of a record. -/
  | record (raw : Bytes)
  /-- The end of the stream, and the number of bytes in front of it that no separator follows. -/
  | ended (discarded : Nat)
  /-- A fault; the bytes of the record that it interrupts are lost. -/
  | fault (fault : Fault)
  deriving Repr, DecidableEq

/-- What is to be reported about reading a record. -/
def RecordReading.notices : RecordReading → List Event
  | ended discarded => if discarded = 0 then [] else [.discardedTail discarded]
  | record _ | fault _ => []

namespace Framing

/-- The separator, three signs that no traffic holds: 🐵🙈🙉. -/
def separator : Bytes :=
  [0xF0, 0x9F, 0x90, 0xB5, 0xF0, 0x9F, 0x99, 0x88, 0xF0, 0x9F, 0x99, 0x89]

def withoutFinalBreak (bytes : Bytes) : Bytes :=
  if bytes.getLast? = some newline then bytes.dropLast else bytes

/-- Whether the line holds the separator and nothing else. -/
def isSeparatorLine (line : Bytes) : Bool :=
  withoutFinalBreak line = separator

/-- A record the way captures hold it. -/
def frame (raw : Bytes) : Bytes :=
  raw ++ newline :: separator ++ [newline]

/-- Reads the rest of a record, of which `read` holds what was read already, last byte first. -/
def readRecordAfter (read : Bytes) (deliveries : List Delivery) : RecordReading × List Delivery :=
  match _h : Delivery.readLine deliveries with
  | (.fault fault, rest) => (.fault fault, rest)
  | (.line [], rest) => (.ended read.length, rest)
  | (.line (b :: line), rest) =>
    if isSeparatorLine (b :: line) then
      (.record (if read.head? = some newline then read.tail else read).reverse, rest)
    else readRecordAfter ((b :: line).reverseAux read) rest
termination_by Delivery.remaining deliveries
decreasing_by
  have := Delivery.remaining_readLine_of_line _h
  simp only [List.length_cons] at this
  omega

/-- Reads one record. -/
def readRecord (deliveries : List Delivery) : RecordReading × List Delivery :=
  readRecordAfter [] deliveries

theorem remaining_readRecordAfter {deliveries : List Delivery} {read : Bytes}
    {reading : RecordReading}
    {rest : List Delivery} (h : readRecordAfter read deliveries = (reading, rest))
    (hr : ∀ n, reading ≠ .ended n) : Delivery.remaining rest < Delivery.remaining deliveries := by
  fun_induction readRecordAfter read deliveries with
  | case1 read deliveries fault rest' hl =>
    cases h
    exact Delivery.remaining_readLine_of_fault hl
  | case2 read deliveries rest' hl =>
    cases h
    exact absurd rfl (hr _)
  | case3 read deliveries b line rest' hl hs =>
    have := Delivery.remaining_readLine_of_line hl
    cases h
    simp only [List.length_cons] at this
    omega
  | case4 read deliveries b line rest' hl hs ih =>
    have := Delivery.remaining_readLine_of_line hl
    have := ih h
    simp only [List.length_cons] at *
    omega

/-- Each record and each fault leaves less to read. -/
theorem remaining_readRecord {deliveries rest : List Delivery} {reading : RecordReading}
    (h : readRecord deliveries = (reading, rest)) (hr : ∀ n, reading ≠ .ended n) :
    Delivery.remaining rest < Delivery.remaining deliveries :=
  remaining_readRecordAfter h hr

/-- All that reading a stream to its end gives, the end included. -/
def readings (deliveries : List Delivery) : List RecordReading :=
  match _h : readRecord deliveries with
  | (.ended discarded, _) => [.ended discarded]
  | (.record raw, rest) => .record raw :: readings rest
  | (.fault fault, rest) => .fault fault :: readings rest
termination_by Delivery.remaining deliveries
decreasing_by
  · exact remaining_readRecord _h (by simp)
  · exact remaining_readRecord _h (by simp)

/-- The records of a stream that gives these bytes. -/
def split (bytes : Bytes) : List Bytes :=
  (readings [.portion bytes]).filterMap fun
    | .record raw => some raw
    | .ended _ | .fault _ => none

end Framing

end TrafficReplay
