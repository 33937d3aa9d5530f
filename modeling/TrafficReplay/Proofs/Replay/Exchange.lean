/-
# Pump, readers and stop requests side by side

A `Session` is a replay whose calls come one after the other. Here the pump, any number of read
calls and any number of stop requests go on side by side: an `Exchange` is a moment of that, and
`Exchange.Step` is what can happen next.

* Between the pump and the reads there is a channel that holds nothing. What the pump holds passes
  to a call in one step of both, and only while the call is blocked (`Step.handOver`, `Step.fail`).
* Stop requests go through a channel that holds one of them. A request never waits, and one that
  finds another pending, or the pump done, adds nothing (`Exchange.requested`).
* Wherever the pump waits, a pending stop can end it (`Step.heed`). If a call is blocked at the same
  time, either may come first. Only a wait in front of a record is not over in time once a stop is
  pending (`Step.wake`).

The pump by itself sees little of all that: what a step does to it is one of its moves
(`Exchange.Step.moves`), and what these keep up holds along every run (`Exchange.Run.follow`).
-/
import TrafficReplay.Proofs.Replay.Looping

namespace TrafficReplay

/-- Who requests a stop: the owner of the session, a handle, or the owner in giving the session
up. -/
inductive Requester
  | owner
  | handle (n : Nat)
  | drop

/-- How the owner stands to the session. -/
inductive Standing
  /-- The session can be called. -/
  | inUse
  /-- It was given up, and its pump is waited for. -/
  | dropped
  /-- It was given up, and the ends of its channels are gone. -/
  | gone

/-- What happens in a step. -/
inductive Deed
  /-- A read is called. -/
  | call (n : Nat)
  /-- A read returns. -/
  | returns (n : Nat) (result : ReadResult)
  /-- A stop is requested. -/
  | request (who : Requester)
  /-- The pump goes on, and maybe tries to open the captures anew. -/
  | step (reopening : Option (Except ReplayError (List Source)))
  /-- The wait in front of a record is over. -/
  | wake
  /-- The pump takes the stop that is pending. -/
  | heed
  /-- The pump finds that nobody is left to read. -/
  | forsake
  /-- The owner has waited for the pump. -/
  | collect (summary : Option Summary)
  /-- The owner, who has given the session up, has waited for the pump. -/
  | release

/-- What a read was given, unless it only learnt that the replay is over. -/
def item? : ReadResult → Option ReadResult
  | .ok none => none
  | result => some result

namespace Deed

def returned? : Deed → Option (Nat × ReadResult)
  | returns n result => some (n, result)
  | _ => none

def delivery? (deed : Deed) : Option ReadResult :=
  deed.returned?.bind fun answer => item? answer.2

def record? : Deed → Option Record
  | returns _ (.ok record?) => record?
  | _ => none

def reopened? : Deed → Option (List Source)
  | step (some (.ok sources)) => some sources
  | _ => none

def collected? : Deed → Option (Option Summary)
  | collect summary => some summary
  | _ => none

def ofPump : Deed → Bool
  | step _ | wake | heed | forsake => true
  | _ => false

def aside : Deed → Bool
  | call _ | request _ | collect _ | release => true
  | _ => false

end Deed

/-- What the reads return, in order, each with the number of its call. -/
def returned (deeds : List Deed) : List (Nat × ReadResult) :=
  deeds.filterMap Deed.returned?

def delivered (deeds : List Deed) : List ReadResult :=
  deeds.filterMap Deed.delivery?

/-- The records that pass from the pump to the reads, in order. -/
def handedOver (deeds : List Deed) : List Record :=
  deeds.filterMap Deed.record?

def reopenings (deeds : List Deed) : List (List Source) :=
  deeds.filterMap Deed.reopened?

/-- The answers to those who asked for the summary, in order. -/
def collections (deeds : List Deed) : List (Option Summary) :=
  deeds.filterMap Deed.collected?

section Traces

theorem filterMap_split {α β : Type} (f : α → Option β) (xs ys : List α) (x : α) :
    (xs ++ x :: ys).filterMap f = xs.filterMap f ++ ((f x).toList ++ ys.filterMap f) := by
  rw [List.filterMap_append, List.filterMap_cons]
  cases f x with
  | none => rfl
  | some y => rfl

theorem filterMap_snoc {α β : Type} (f : α → Option β) (xs : List α) (x : α) :
    (xs ++ [x]).filterMap f = xs.filterMap f ++ (f x).toList := by
  rw [filterMap_split, List.filterMap_nil, List.append_nil]

variable (deeds : List Deed) (deed : Deed)

theorem returned_append (later : List Deed) :
    returned (deeds ++ later) = returned deeds ++ returned later :=
  List.filterMap_append

theorem returned_snoc : returned (deeds ++ [deed]) = returned deeds ++ deed.returned?.toList :=
  filterMap_snoc _ _ _

theorem delivered_snoc :
    delivered (deeds ++ [deed]) = delivered deeds ++ deed.delivery?.toList :=
  filterMap_snoc _ _ _

theorem handedOver_snoc :
    handedOver (deeds ++ [deed]) = handedOver deeds ++ deed.record?.toList :=
  filterMap_snoc _ _ _

theorem reopenings_snoc :
    reopenings (deeds ++ [deed]) = reopenings deeds ++ deed.reopened?.toList :=
  filterMap_snoc _ _ _

theorem collections_snoc :
    collections (deeds ++ [deed]) = collections deeds ++ deed.collected?.toList :=
  filterMap_snoc _ _ _

variable {deed}

theorem Deed.returned?_of_aside (h : deed.aside = true) : deed.returned? = none := by
  cases deed with
  | returns n result => cases h
  | _ => rfl

theorem Deed.record?_of_returned? (h : deed.returned? = none) : deed.record? = none := by
  cases deed with
  | returns n result => cases h
  | _ => rfl

theorem Deed.delivery?_of_returned? (h : deed.returned? = none) : deed.delivery? = none := by
  rw [delivery?, h]
  rfl

/-- What is delivered is all that the reads return but the news that the replay is over. -/
theorem delivered_eq (deeds : List Deed) :
    delivered deeds = ((returned deeds).map (·.2)).filterMap item? := by
  rw [returned, List.map_filterMap, List.filterMap_filterMap]
  refine List.filterMap_congr fun deed _ => ?_
  rw [Deed.delivery?]
  cases deed.returned? with
  | none => rfl
  | some answer => rfl

theorem Deed.reopened?_of_aside (h : deed.aside = true) : deed.reopened? = none := by
  cases deed with
  | step reopening => cases h
  | _ => rfl

theorem Deed.record?_of_aside (h : deed.aside = true) : deed.record? = none :=
  Deed.record?_of_returned? (Deed.returned?_of_aside h)

theorem Deed.eq_step_of_reopened? {sources : List Source}
    (h : deed.reopened? = some sources) : deed = .step (some (.ok sources)) := by
  cases deed with
  | step reopening =>
    cases reopening with
    | none => cases h
    | some result =>
      cases result with
      | error error => cases h
      | ok others =>
        cases h
        rfl
  | _ => cases h

end Traces

namespace Phase

/-- Whether the pump waits, be it for time to pass or for a reader, and so watches for a stop. -/
def heeds : Phase → Bool
  | waiting _ | holding _ | failing _ => true
  | ready | ended _ => false

def isOver : Phase → Bool
  | ended _ => true
  | ready | waiting _ | holding _ | failing _ => false

theorem isOver_iff {phase : Phase} : phase.isOver = true ↔ ∃ reason, phase = .ended reason := by
  cases phase with
  | ended reason => exact ⟨fun _ => ⟨reason, rfl⟩, fun _ => rfl⟩
  | ready => exact ⟨fun h => (nomatch h), fun ⟨_, h⟩ => (nomatch h)⟩
  | waiting offer => exact ⟨fun h => (nomatch h), fun ⟨_, h⟩ => (nomatch h)⟩
  | holding offer => exact ⟨fun h => (nomatch h), fun ⟨_, h⟩ => (nomatch h)⟩
  | failing error => exact ⟨fun h => (nomatch h), fun ⟨_, h⟩ => (nomatch h)⟩

theorem isOver_of_offer? {phase : Phase} {offer : Offer} (h : phase.offer? = some offer) :
    phase.isOver = false := by
  cases phase with
  | ended reason => cases h
  | _ => rfl

end Phase

/-- The captures as they are opened anew in a step from here, if the step does that. -/
def Pump.reopening (tree : FileTree) (pump : Pump) : Option (Except ReplayError (List Source)) :=
  if Merge.select pump.sources = none ∧ pump.looping = true then
    some (resolveSources tree pump.pattern).value
  else none

/-- A session with its pump, its readers and its stop requests at one moment. -/
structure Exchange where
  session : Session
  /-- Whether the channel of the stop requests holds one. -/
  stopPending : Bool
  /-- How many reads were called. -/
  calls : Nat
  /-- The calls that have not returned. -/
  blocked : List Nat
  standing : Standing

namespace Exchange

def begin (session : Session) : Exchange :=
  ⟨session, false, 0, [], .inUse⟩

def state (s : Exchange) : Pump × Phase :=
  (s.session.pump, s.session.phase)

def moved (s : Exchange) (state : Pump × Phase) : Exchange :=
  { s with session := s.session.moved state }

def answered (s : Exchange) (n : Nat) : Exchange :=
  { s with blocked := s.blocked.erase n }

/-- Who can request a stop. Handles outlive the session, and an owner who gives it up has no call
under way. -/
def Admits (s : Exchange) : Requester → Prop
  | .owner => s.standing = .inUse
  | .handle _ => True
  | .drop => s.standing = .inUse ∧ s.blocked = []

/-- The exchange once a stop was requested: no second request is held, and none once the pump is
done. -/
def requested (s : Exchange) (who : Requester) : Exchange :=
  { s with
      stopPending := s.stopPending || !s.session.phase.isOver
      standing := match who with
        | .drop => .dropped
        | .owner | .handle _ => s.standing }

/-- The pump can take a stop: one is pending, or nobody is left to request one. -/
def StopReady (s : Exchange) : Prop :=
  s.stopPending = true ∨ s.standing = .gone

/-- What can happen next. `files k` is how the files are when the captures are opened anew and that
was done `k` times before. -/
inductive Step (files : Nat → FileTree) : Exchange → Deed → Exchange → Prop
  /-- Calls are numbered as they come. -/
  | call {s : Exchange} : s.standing = .inUse →
      Step files s (.call s.calls)
        { s with calls := s.calls + 1, blocked := s.calls :: s.blocked }
  | request {s : Exchange} {who : Requester} : s.Admits who →
      Step files s (.request who) (s.requested who)
  | step {s : Exchange} : s.session.phase = .ready →
      Step files s (.step (s.session.pump.reopening (files s.session.pump.restarts)))
        (s.moved (s.session.pump.step (files s.session.pump.restarts)).value)
  /-- Time alone ends the wait only while there is no stop to be taken. -/
  | wake {s : Exchange} {offer : Offer} : s.session.phase = .waiting offer → ¬ s.StopReady →
      Step files s .wake (s.moved (s.session.pump, Pump.wake offer))
  | heed {s : Exchange} : s.session.phase.heeds = true → s.StopReady →
      Step files s .heed { s with session := s.session.stop.value, stopPending := false }
  /-- Any of the blocked calls may get the record, whether or not a stop is pending. -/
  | handOver {s : Exchange} {offer : Offer} {n : Nat} : s.session.phase = .holding offer →
      n ∈ s.blocked →
      Step files s (.returns n (.ok (some offer.record)))
        ((s.answered n).moved (s.session.pump.handOver offer).value)
  | fail {s : Exchange} {error : ReplayError} {n : Nat} : s.session.phase = .failing error →
      n ∈ s.blocked →
      Step files s (.returns n (.error error))
        ((s.answered n).moved (s.session.pump.fail error).value)
  | finish {s : Exchange} {reason : StopReason} {n : Nat} : s.session.phase = .ended reason →
      n ∈ s.blocked → Step files s (.returns n (.ok none)) (s.answered n)
  | forsakeRecord {s : Exchange} {offer : Offer} : s.session.phase = .holding offer →
      s.standing = .gone → Step files s .forsake (s.moved s.session.pump.disconnect.value)
  | forsakeError {s : Exchange} {error : ReplayError} : s.session.phase = .failing error →
      s.standing = .gone → Step files s .forsake (s.moved (s.session.pump.fail error).value)
  /-- An owner who waits for the pump has no other call under way. -/
  | collect {s : Exchange} {reason : StopReason} : s.session.phase = .ended reason →
      s.standing = .inUse → s.blocked = [] →
      Step files s (.collect s.session.wait.1) { s with session := s.session.wait.2 }
  /-- Only when the pump is done do its owner's ends of the channels go. -/
  | release {s : Exchange} {reason : StopReason} : s.session.phase = .ended reason →
      s.standing = .dropped →
      Step files s .release { s with session := s.session.wait.2, standing := .gone }

/-- Some steps, one after the other. -/
inductive Run (files : Nat → FileTree) : Exchange → List Deed → Exchange → Prop
  | done {s : Exchange} : Run files s [] s
  | next {s mid t : Exchange} {deeds : List Deed} {deed : Deed} : Run files s deeds mid →
      Step files mid deed t → Run files s (deeds ++ [deed]) t

variable {files : Nat → FileTree} {s mid t : Exchange} {deed : Deed} {deeds later : List Deed}

theorem Run.single (h : Step files s deed t) : Run files s [deed] t :=
  .next .done h

theorem Run.append (h : Run files s deeds mid) (h' : Run files mid later t) :
    Run files s (deeds ++ later) t := by
  induction h' with
  | done =>
    rw [List.append_nil]
    exact h
  | next _ hs ih =>
    rw [← List.append_assoc]
    exact .next ih hs

theorem Run.cons (h : Step files s deed mid) (h' : Run files mid later t) :
    Run files s (deed :: later) t :=
  (Run.single h).append h'

theorem Run.split (h : Run files s (deeds ++ later) t) :
    ∃ mid, Run files s deeds mid ∧ Run files mid later t := by
  -- a run grows at its end, so the later deeds are taken off from there
  induction later using List.reverseRecOn generalizing t with
  | nil =>
    rw [List.append_nil] at h
    exact ⟨t, h, .done⟩
  | append_singleton later deed ih =>
    rw [← List.append_assoc] at h
    generalize hall : deeds ++ later ++ [deed] = all at h
    cases h with
    | done => exact absurd hall (by simp)
    | @next last _ before other hb hs =>
      obtain ⟨rfl, hdeed⟩ := List.append_inj' hall rfl
      cases hdeed
      obtain ⟨mid, hmid, hlast⟩ := ih hb
      exact ⟨mid, hmid, .next hlast hs⟩

theorem Run.uncons (h : Run files s (deed :: later) t) :
    ∃ mid, Step files s deed mid ∧ Run files mid later t := by
  obtain ⟨mid, hfirst, hlater⟩ := @Run.split files s t [deed] later h
  generalize hall : [deed] = all at hfirst
  cases hfirst with
  | done => cases hall
  | @next last _ before other hb hs =>
    have hall : [] ++ [deed] = before ++ [other] := hall
    obtain ⟨rfl, hdeed⟩ := List.append_inj' hall rfl
    cases hdeed
    generalize hnil : ([] : List Deed) = none at hb
    cases hb with
    | done => exact ⟨mid, hs, hlater⟩
    | next _ _ => exact absurd hnil (by simp)

end Exchange

end TrafficReplay
