/-
# Schedules of deliveries

Ways to hand the same bytes over: in portions of a given size, and with interruptions and faults at
given places. A fault at a place is met by the first read from there on.
-/
import TrafficReplay.Delivery

namespace TrafficReplay.Delivery

/-- The bytes in portions of at most `size`, and of one byte at least. -/
def portions (size : Nat) (bytes : Bytes) : List Delivery :=
  match bytes with
  | [] => []
  | b :: rest => portion (b :: rest.take (size - 1)) :: portions size (rest.drop (size - 1))
termination_by bytes.length
decreasing_by
  simp only [List.length_drop, List.length_cons]
  omega

/-- The bytes from `position` on in portions of at most `size`, with other deliveries at the places
where they are due. What is due behind the last byte never comes. -/
def scheduled (size position : Nat) (bytes : Bytes) : List (Nat × Delivery) → List Delivery
  | [] => portions size bytes
  | (place, delivery) :: later =>
    if position + bytes.length < place then portions size bytes
    else
      portions size (bytes.take (place - position)) ++
        delivery :: scheduled size (max position place) (bytes.drop (place - position)) later

end TrafficReplay.Delivery
