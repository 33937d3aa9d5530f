/-
# Where the faults of a stream are

What a reader can tell of a stream: the bytes that it gives, and at which of them a read fails
(`Delivery.Delivers`). Where its portions end and how often a read is interrupted is left open by
this. Faults come in order and within the bytes, and wherever they are to come, in portions of
whatever size, there is a stream with these faults (`Delivery.delivers_scheduled`).

A stream is without faults, or it has a first one, and behind that one there is a stream again:
`Delivery.faults_induction` follows it from fault to fault.
-/
import TrafficReplay.Delivery.Schedule
import TrafficReplay.Proofs.Record.Lines

namespace TrafficReplay.Delivery

/-- The faults of a stream, each with the number of bytes in front of it, of which `place` were
given before. -/
def faultsFrom (place : Nat) : List Delivery → List (Nat × Fault)
  | [] => []
  | portion bytes :: rest => faultsFrom (place + bytes.length) rest
  | interrupted :: rest => faultsFrom place rest
  | failed fault :: rest => (place, fault) :: faultsFrom place rest

/-- The stream gives these bytes and fails at these places. -/
structure Delivers (deliveries : List Delivery) (bytes : Bytes) (faults : List (Nat × Fault)) :
    Prop where
  contents_eq : contents deliveries = bytes
  faults_eq : faultsFrom 0 deliveries = faults

instance (deliveries : List Delivery) (bytes : Bytes) (faults : List (Nat × Fault)) :
    Decidable (Delivers deliveries bytes faults) :=
  decidable_of_iff (contents deliveries = bytes ∧ faultsFrom 0 deliveries = faults)
    ⟨fun h => ⟨h.1, h.2⟩, fun h => ⟨h.contents_eq, h.faults_eq⟩⟩

theorem contents_append (before after : List Delivery) :
    contents (before ++ after) = contents before ++ contents after := by
  induction before with
  | nil => rfl
  | cons delivery before ih =>
    cases delivery with
    | portion bytes => rw [List.cons_append, contents, contents, ih, List.append_assoc]
    | interrupted => exact ih
    | failed fault => exact ih

theorem faultsFrom_append {before : List Delivery} (h : FaultFree before) (place : Nat)
    (after : List Delivery) :
    faultsFrom place (before ++ after) = faultsFrom (place + (contents before).length) after := by
  induction before generalizing place with
  | nil => rfl
  | cons delivery before ih =>
    cases delivery with
    | portion bytes =>
      rw [List.cons_append, faultsFrom, ih h.tail, contents, List.length_append, Nat.add_assoc]
    | interrupted => exact ih h.tail place
    | failed fault => exact absurd rfl (h _ List.mem_cons_self fault)

theorem faultsFrom_of_faultFree {deliveries : List Delivery} (h : FaultFree deliveries)
    (place : Nat) : faultsFrom place deliveries = [] := by
  have hfaults := faultsFrom_append h place []
  rwa [List.append_nil] at hfaults

theorem exists_first_fault (deliveries : List Delivery) :
    FaultFree deliveries ∨
      ∃ before fault after, deliveries = before ++ failed fault :: after ∧ FaultFree before := by
  have hnil : FaultFree [] := fun _ hmem => absurd hmem List.not_mem_nil
  induction deliveries with
  | nil => exact .inl hnil
  | cons delivery rest ih =>
    cases hd : delivery.isSound with
    | false =>
      cases delivery with
      | portion bytes => cases hd
      | interrupted => cases hd
      | failed fault => exact .inr ⟨[], fault, rest, rfl, hnil⟩
    | true =>
      have hsound := isSound_iff.mp hd
      rcases ih with hfree | ⟨before, fault, after, rfl, hfree⟩
      · exact .inl (hfree.cons hsound)
      · exact .inr ⟨delivery :: before, fault, after, rfl, hfree.cons hsound⟩

/-- What holds of streams without faults, and of a stream from its first fault on if it holds of
what comes behind, holds of all streams. -/
@[elab_as_elim]
theorem faults_induction {motive : List Delivery → Prop}
    (free : ∀ deliveries, FaultFree deliveries → motive deliveries)
    (fault : ∀ before fault after, FaultFree before → motive after →
      motive (before ++ failed fault :: after))
    (deliveries : List Delivery) : motive deliveries := by
  generalize hn : deliveries.length = n
  induction n using Nat.strong_induction_on generalizing deliveries with
  | _ n ih =>
    rcases exists_first_fault deliveries with hfree | ⟨before, first, after, rfl, hfree⟩
    · exact free deliveries hfree
    · have hlt : after.length < n := by
        rw [← hn, List.length_append, List.length_cons]
        omega
      exact fault before first after hfree (ih after.length hlt after rfl)

/-! ## Schedules -/

theorem contents_portions (size : Nat) (bytes : Bytes) :
    contents (portions size bytes) = bytes := by
  fun_induction portions size bytes with
  | case1 => rfl
  | case2 b rest ih => rw [contents, ih, List.cons_append, List.take_append_drop]

theorem faultFree_portions (size : Nat) (bytes : Bytes) : FaultFree (portions size bytes) := by
  fun_induction portions size bytes with
  | case1 => exact fun _ hmem => absurd hmem List.not_mem_nil
  | case2 b rest ih => exact ih.cons fun _ h => nomatch h

theorem scheduled_faults (size : Nat) {faults : List (Nat × Fault)} {position : Nat} {bytes : Bytes}
    (hsorted : faults.Pairwise fun p q => p.1 ≤ q.1)
    (hwithin : ∀ p ∈ faults, position ≤ p.1 ∧ p.1 ≤ position + bytes.length) :
    contents (scheduled size position bytes (faults.map fun p => (p.1, failed p.2))) = bytes ∧
      faultsFrom position (scheduled size position bytes (faults.map fun p => (p.1, failed p.2)))
        = faults := by
  induction faults generalizing position bytes with
  | nil =>
    exact ⟨contents_portions size bytes,
      faultsFrom_of_faultFree (faultFree_portions size bytes) position⟩
  | cons p later ih =>
    obtain ⟨place, fault⟩ := p
    obtain ⟨hfirst, hlater⟩ := List.pairwise_cons.mp hsorted
    obtain ⟨hge, hle⟩ := hwithin (place, fault) List.mem_cons_self
    have hwithin' : ∀ q ∈ later, place ≤ q.1 ∧
        q.1 ≤ place + (bytes.drop (place - position)).length := by
      intro q hq
      have hq' := (hwithin q (List.mem_cons_of_mem _ hq)).2
      rw [List.length_drop]
      exact ⟨hfirst q hq, by omega⟩
    obtain ⟨hcontents, hfaults⟩ := ih hlater hwithin'
    have htaken : position + (bytes.take (place - position)).length = place := by
      rw [List.length_take]
      omega
    rw [List.map_cons, scheduled, if_neg (by omega), Nat.max_eq_right hge]
    constructor
    · rw [contents_append, contents_portions, contents, hcontents, List.take_append_drop]
    · rw [faultsFrom_append (faultFree_portions _ _), contents_portions, htaken, faultsFrom,
        hfaults]

/-- Faults may come at any places within the bytes, several at one place included, and in between
there may be portions of any size. -/
theorem delivers_scheduled (size : Nat) {bytes : Bytes} {faults : List (Nat × Fault)}
    (hsorted : faults.Pairwise fun p q => p.1 ≤ q.1) (hwithin : ∀ p ∈ faults, p.1 ≤ bytes.length) :
    Delivers (scheduled size 0 bytes (faults.map fun p => (p.1, failed p.2))) bytes faults := by
  have hwithin' : ∀ p ∈ faults, 0 ≤ p.1 ∧ p.1 ≤ 0 + bytes.length := by
    intro p hp
    rw [Nat.zero_add]
    exact ⟨Nat.zero_le _, hwithin p hp⟩
  obtain ⟨hcontents, hfaults⟩ := scheduled_faults size hsorted hwithin'
  exact ⟨hcontents, hfaults⟩

end TrafficReplay.Delivery
