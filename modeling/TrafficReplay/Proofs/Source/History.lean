/-
# What a source has been through

A source is a cursor over the records of its file: what it shows depends on the requests that were
made of it only through their number of advances, whether a closing is among them, and whether the
record in hand was taken since the last advance. `Source.Reached` is where a source stands after
some requests, its stream at the record behind the one that is in hand or was taken; each request
leads from one such place to the next (`Source.Reached.respond`), so every row of requests ends at
one (`Source.Reached.after`).
-/
import TrafficReplay.Proofs.Replay.Faults
import TrafficReplay.Proofs.Source.Alike

namespace TrafficReplay

deriving instance DecidableEq for Source.Request

namespace Source

def after (source : Source) (requests : List Request) : Source :=
  requests.foldl (fun source request => (source.respond request).2) source

def advances (requests : List Request) : Nat :=
  requests.count .advance

@[simp] theorem advances_nil : advances [] = 0 := rfl

@[simp] theorem advances_advance (requests : List Request) :
    advances (requests ++ [.advance]) = advances requests + 1 := by
  simp [advances]

@[simp] theorem advances_take (requests : List Request) :
    advances (requests ++ [.take]) = advances requests := by
  simp [advances]

theorem advances_le_append (requests others : List Request) :
    advances requests ≤ advances (requests ++ others) := by
  rw [advances, advances, List.count_append]
  exact Nat.le_add_right _ _

/-- The record in hand was taken, and the source has not advanced since. -/
def TakenSince (requests : List Request) : Prop :=
  ∃ before later, requests = before ++ .take :: later ∧ .advance ∉ later

theorem takenSince_take (requests : List Request) : TakenSince (requests ++ [.take]) :=
  ⟨requests, [], rfl, List.not_mem_nil⟩

theorem not_takenSince_nil : ¬TakenSince [] := by
  rintro ⟨before, later, h, -⟩
  exact List.append_ne_nil_of_right_ne_nil before (List.cons_ne_nil _ later) h.symm

theorem not_takenSince_advance (requests : List Request) :
    ¬TakenSince (requests ++ [.advance]) := by
  rintro ⟨before, later, h, hnone⟩
  rcases List.eq_nil_or_concat later with rfl | ⟨later, last, rfl⟩
  · cases (List.append_inj' h rfl).2
  · rw [List.concat_eq_append, ← List.cons_append, ← List.append_assoc] at h
    cases (List.append_inj' h rfl).2
    exact hnone (by simp)

/-- What advancing over the last record comes to: the end of the stream, or the fault in its place.
-/
def ending (path : String) (fault : Option Fault) : Except ReplayError Unit :=
  match fault with
  | none => .ok ()
  | some fault => .error (.cannotRead path fault)

/-- What a source over some records shows after some requests. -/
structure Cursor (path : String) (raws : List Bytes) (fault : Option Fault)
    (requests : List Request) (source : Source) : Prop where
  /-- While there are records left, the next of them is in hand unless it was taken. -/
  reading : .close ∉ requests → ∀ h : advances requests < raws.length,
    source.isOpen = true ∧
      (TakenSince requests → source.lookahead = none) ∧
      (¬TakenSince requests →
        source.lookahead = some (Record.ofBytes raws[advances requests]))
  /-- Advancing to a record works out. -/
  moves : .close ∉ requests → advances requests + 1 < raws.length →
    source.advance.value.1 = .ok ()
  /-- Advancing over the last record meets the end, or the fault. -/
  ends : .close ∉ requests → advances requests + 1 = raws.length →
    source.advance.value.1 = ending path fault
  /-- Behind the records, and once it was closed, the source is empty and advancing does nothing. -/
  closed : .close ∈ requests ∨ raws.length ≤ advances requests →
    source.isOpen = false ∧ source.lookahead = none ∧ source.advance = pure (.ok (), source)
  /-- What is in hand comes from a stream that is open. -/
  backed : source.lookahead ≠ none → source.isOpen = true
  /-- Nothing is in hand after a fault. -/
  emptied : ∀ e, source.advance.value.1 = .error e →
    source.advance.value.2.lookahead = none ∧ source.advance.value.2.isOpen = false

variable {path : String} {raws : List Bytes} {fault : Option Fault} {requests : List Request}
  {source : Source}

/-- Where a source stands after some requests. -/
inductive Reached (path : String) (raws : List Bytes) (fault : Option Fault) :
    List Request → Source → Prop
  /-- The stream goes on behind the record that is in hand or was taken. -/
  | reading {requests : List Request} {deliveries : List Delivery} {lookahead : Option Record} :
      .close ∉ requests → (h : advances requests < raws.length) →
      Framing.Yields deliveries (raws.drop (advances requests + 1)) fault →
      (TakenSince requests → lookahead = none) →
      (¬TakenSince requests → lookahead = some (Record.ofBytes raws[advances requests])) →
      Reached path raws fault requests ⟨path, some deliveries, lookahead⟩
  /-- All records were passed, or the source was closed. -/
  | closed {requests : List Request} :
      .close ∈ requests ∨ raws.length ≤ advances requests →
      Reached path raws fault requests ⟨path, none, none⟩

theorem Reached.opened {deliveries : List Delivery} (hy : Framing.Yields deliveries raws fault)
    (hs : (onStream path deliveries).value = .ok source) : Reached path raws fault [] source := by
  have ha := advance_of_onStream hs
  cases hy with
  | ended hr =>
    rw [advance_of_ended hr] at ha
    cases ha
    exact .closed (.inr (Nat.zero_le _))
  | failed hr =>
    rw [advance_of_fault hr] at ha
    cases ha
  | record hr hrest =>
    rw [advance_of_record hr] at ha
    cases ha
    exact .reading List.not_mem_nil (Nat.succ_pos _) hrest
      (fun h => absurd h not_takenSince_nil) (fun _ => rfl)

theorem Reached.respond (h : Reached path raws fault requests source) (request : Request) :
    Reached path raws fault (requests ++ [request]) (source.respond request).2 := by
  cases h with
  | closed h =>
    have hstays : .close ∈ requests ++ [request] ∨ raws.length ≤ advances (requests ++ [request]) :=
      h.imp (List.mem_append_left _) fun hle => hle.trans (advances_le_append requests [request])
    cases request with
    | advance => exact .closed hstays
    | take => exact .closed hstays
    | close => exact .closed hstays
  | reading hopen hlt hy htaken hheld =>
    cases request with
    | close => exact .closed (.inl (by simp))
    | take =>
      simp only [Source.respond, take]
      refine .reading (by simpa using hopen) (by simpa using hlt) (by simpa using hy)
        (fun _ => rfl) fun h => ?_
      exact absurd (takenSince_take requests) h
    | advance =>
      simp only [Source.respond]
      generalize hleft : raws.drop (advances requests + 1) = left at hy
      cases hy with
      | ended hr =>
        rw [advance_of_ended hr]
        exact .closed (.inr (by simpa using hleft))
      | failed hr =>
        rw [advance_of_fault hr]
        exact .closed (.inr (by simpa using hleft))
      | @record _ _ raw left _ hr hrest =>
        rw [advance_of_record hr]
        have hget : raws[advances requests + 1]? = some raw := by
          rw [← List.head?_drop, hleft, List.head?_cons]
        obtain ⟨hlt', hget'⟩ := List.getElem?_eq_some_iff.mp hget
        refine .reading (by simpa using hopen) (by simpa using hlt') ?_
          (fun h => absurd h (not_takenSince_advance requests)) (fun _ => ?_)
        · rwa [advances_advance, ← List.tail_drop, hleft, List.tail_cons]
        · simp only [advances_advance, hget']

theorem Reached.after (h : Reached path raws fault [] source) (requests : List Request) :
    Reached path raws fault requests (source.after requests) := by
  induction requests using List.reverseRecOn with
  | nil => exact h
  | append_singleton requests request ih =>
    rw [Source.after, List.foldl_append]
    exact ih.respond request

theorem advance_of_nil {deliveries : List Delivery} {lookahead : Option Record}
    (hy : Framing.Yields deliveries [] fault) :
    (advance ⟨path, some deliveries, lookahead⟩).value
      = (ending path fault, ⟨path, none, none⟩) := by
  cases hy with
  | ended hr => exact advance_of_ended hr
  | failed hr => exact advance_of_fault hr

theorem Reached.cursor (h : Reached path raws fault requests source) :
    Cursor path raws fault requests source := by
  cases h with
  | closed h =>
    exact
      { reading := fun hopen hlt => absurd h (not_or.mpr ⟨hopen, Nat.not_le.mpr hlt⟩)
        moves := fun hopen hlt => absurd h (not_or.mpr ⟨hopen, by omega⟩)
        ends := fun hopen hlast => absurd h (not_or.mpr ⟨hopen, by omega⟩)
        closed := fun _ => ⟨rfl, rfl, rfl⟩
        backed := fun hheld => absurd rfl hheld
        emptied := fun e he => nomatch he }
  | @reading deliveries lookahead hopen hlt hy htaken hheld =>
    have hcases := advance_cases path lookahead hy
    refine
      { reading := fun _ _ => ⟨rfl, htaken, hheld⟩
        moves := fun _ hmore => ?_
        ends := fun _ hlast => ?_
        closed := fun h => absurd h (not_or.mpr ⟨hopen, Nat.not_le.mpr hlt⟩)
        backed := fun _ => rfl
        emptied := fun e he => ?_ }
    · rcases hcases with ⟨next, ha, -, -⟩ | ⟨f, hnone, -, -⟩
      · rw [ha]
      · exact absurd (List.drop_eq_nil_iff.mp hnone) (Nat.not_le.mpr hmore)
    · rw [hlast, List.drop_length] at hy
      rw [advance_of_nil hy]
    · rcases hcases with ⟨next, ha, -, -⟩ | ⟨f, -, -, ha⟩
      · rw [ha] at he
        cases he
      · rw [ha]
        exact ⟨rfl, rfl⟩

/-- **A source is a cursor over the records of its stream**, whether that is plain or decompressed
and wherever it fails. It cannot be opened just when its stream fails at once, and otherwise shows
after any requests what their number of advances says. -/
theorem onStream_cursor (path : String) {deliveries : List Delivery}
    (hy : Framing.Yields deliveries raws fault) :
    (∀ tree, openStream tree path = .ok deliveries →
      (openAt tree path).value = (onStream path deliveries).value) ∧
    (∀ e, (onStream path deliveries).value = .error e ↔
      raws = [] ∧ ∃ f, fault = some f ∧ e = .cannotRead path f) ∧
    (raws ≠ [] ∨ fault = none → ∃ source, (onStream path deliveries).value = .ok source ∧
      ∀ requests, Cursor path raws fault requests (source.after requests)) := by
  refine ⟨fun tree ho => congrArg Logged.value (openAt_eq ho), fun e => onStream_error_iff path hy,
    fun hsound => ?_⟩
  rcases onStream_cases path hy with ⟨source, hs, -⟩ | ⟨f, hnone, hfault, -⟩
  · exact ⟨source, hs, fun requests => ((Reached.opened hy hs).after requests).cursor⟩
  · rw [hnone, hfault] at hsound
    simp at hsound

/-- A source on a plain capture that cannot be read behind its two records: the second advance meets
the fault, and nothing is left to be taken then. -/
theorem onStream_cursor_damaged :
    ∃ source, (openAt Session.faultyFiles "b").value = .ok source ∧
      (source.after []).lookahead = some (Record.ofBytes (Utf8.encode "1 b 7\n")) ∧
      (source.after [.take]).lookahead = none ∧
      (source.after [.take, .advance]).lookahead
        = some (Record.ofBytes (Utf8.encode "1 d 8\n")) ∧
      (source.after [.take, .advance]).advance.value.1
        = .error (.cannotRead "b" .inputOutput) ∧
      (source.after [.take, .advance, .advance]).isOpen = false ∧
      (source.after [.take, .advance, .advance]).lookahead = none := by
  obtain ⟨heq, -, hopen⟩ := onStream_cursor "b" Session.yields_damaged
  obtain ⟨source, hs, hcursor⟩ := hopen (.inl (List.cons_ne_nil _ _))
  obtain ⟨-, -, hfirst⟩ := (hcursor []).reading (by decide) (by decide)
  obtain ⟨-, htaken, -⟩ := (hcursor [.take]).reading (by decide) (by decide)
  obtain ⟨-, -, hsecond⟩ := (hcursor [.take, .advance]).reading (by decide) (by decide)
  obtain ⟨hclosed, hempty, -⟩ :=
    (hcursor [.take, .advance, .advance]).closed (.inr (by decide))
  exact ⟨source, (heq _ Session.openStream_damaged).trans hs, hfirst not_takenSince_nil,
    htaken (takenSince_take []), hsecond (not_takenSince_advance [.take]),
    (hcursor [.take, .advance]).ends (by decide) rfl, hclosed, hempty⟩

end Source

end TrafficReplay
