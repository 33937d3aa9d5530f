/-
# Deliveries of a stream

A stream hands its bytes over in portions, and a portion may fail to come: an interrupted read is
simply tried again, any other fault reaches the reader, who may go on afterwards. A list of
deliveries says all that a stream will ever give. `Delivery.readLine` reads one line across
portions. Reading gets on: what a line or a fault has used up is no longer among the deliveries
(`remaining_readLine_of_line`, `remaining_readLine_of_fault`).
-/
import TrafficReplay.Fault
import TrafficReplay.Text.Utf8

namespace TrafficReplay

def newline : UInt8 := 0x0A

/-- What one read of a stream comes to. -/
inductive Delivery
  /-- Some bytes; none at all is nothing read. -/
  | portion (bytes : Bytes)
  /-- A read to be tried again. -/
  | interrupted
  /-- A read that fails. -/
  | failed (fault : Fault)
  deriving Repr, DecidableEq

/-- What reading a line comes to: its bytes, line break included, or a fault. The empty line says
that the stream is at its end. -/
inductive LineReading
  | line (bytes : Bytes)
  | fault (fault : Fault)
  deriving Repr, DecidableEq

namespace Delivery

/-- What a delivery counts towards what is left to read: one, and one for each byte. -/
def weight : Delivery → Nat
  | portion bytes => bytes.length + 1
  | interrupted | failed _ => 1

def remaining : List Delivery → Nat
  | [] => 0
  | delivery :: rest => delivery.weight + remaining rest

@[simp] theorem remaining_nil : remaining [] = 0 := rfl

@[simp] theorem remaining_cons (delivery : Delivery) (rest : List Delivery) :
    remaining (delivery :: rest) = delivery.weight + remaining rest := rfl

/-- Reads the rest of a line, of which `read` holds what was read already, last byte first. What a
fault interrupts is lost. -/
def readLineAfter (read : Bytes) : List Delivery → LineReading × List Delivery
  | [] => (.line read.reverse, [])
  | interrupted :: rest => readLineAfter read rest
  | failed fault :: rest => (.fault fault, rest)
  | portion bytes :: rest =>
    let read := (bytes.takeWhile (· ≠ newline)).reverseAux read
    match bytes.dropWhile (· ≠ newline) with
    | [] => readLineAfter read rest
    | b :: after => (.line (b :: read).reverse, portion after :: rest)

def readLine (deliveries : List Delivery) : LineReading × List Delivery :=
  readLineAfter [] deliveries

theorem remaining_readLineAfter_of_line {deliveries rest : List Delivery} {read line : Bytes}
    (h : readLineAfter read deliveries = (.line line, rest)) :
    line.length + remaining rest ≤ read.length + remaining deliveries := by
  induction deliveries generalizing read with
  | nil =>
    simp only [readLineAfter, Prod.mk.injEq, LineReading.line.injEq] at h
    simp [← h.1, ← h.2]
  | cons delivery deliveries ih =>
    cases delivery with
    | interrupted =>
      have hrest : readLineAfter read deliveries = (.line line, rest) := by
        simpa [readLineAfter] using h
      have := ih hrest
      simp only [remaining_cons]
      omega
    | failed fault => simp [readLineAfter] at h
    | portion bytes =>
      have hlen : (bytes.takeWhile (· ≠ newline)).length + (bytes.dropWhile (· ≠ newline)).length
          = bytes.length := by
        rw [← List.length_append, List.takeWhile_append_dropWhile]
      simp only [readLineAfter] at h
      split at h
      · next hd =>
        have := ih h
        simp only [List.reverseAux_eq, List.length_append, List.length_reverse] at this
        simp only [hd, List.length_nil] at hlen
        simp only [remaining_cons, weight]
        omega
      · next b after hd =>
        simp only [Prod.mk.injEq, LineReading.line.injEq] at h
        rw [← h.1, ← h.2]
        simp only [hd, List.length_cons] at hlen
        simp only [remaining_cons, weight, List.length_reverse, List.length_cons,
          List.reverseAux_eq, List.length_append]
        omega

/-- What a line holds is no longer left to read. -/
theorem remaining_readLine_of_line {deliveries rest : List Delivery} {line : Bytes}
    (h : readLine deliveries = (.line line, rest)) :
    line.length + remaining rest ≤ remaining deliveries := by
  simpa using remaining_readLineAfter_of_line h

theorem remaining_readLineAfter_of_fault {deliveries rest : List Delivery} {read : Bytes}
    {fault : Fault}
    (h : readLineAfter read deliveries = (.fault fault, rest)) :
    remaining rest < remaining deliveries := by
  induction deliveries generalizing read with
  | nil => simp [readLineAfter] at h
  | cons delivery deliveries ih =>
    cases delivery with
    | interrupted =>
      have hrest : readLineAfter read deliveries = (.fault fault, rest) := by
        simpa [readLineAfter] using h
      have := ih hrest
      simp only [remaining_cons]
      omega
    | failed fault =>
      simp only [readLineAfter, Prod.mk.injEq] at h
      rw [← h.2]
      simp [weight]
    | portion bytes =>
      simp only [readLineAfter] at h
      split at h
      · have := ih h
        simp only [remaining_cons]
        omega
      · simp at h

/-- A fault that was met is no longer ahead. -/
theorem remaining_readLine_of_fault {deliveries rest : List Delivery} {fault : Fault}
    (h : readLine deliveries = (.fault fault, rest)) : remaining rest < remaining deliveries :=
  remaining_readLineAfter_of_fault h

end Delivery

end TrafficReplay
