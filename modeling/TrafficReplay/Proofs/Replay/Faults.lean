/-
# Replays that meet a fault

A replay that does not loop delivers the merge of all records that its captures have to give, or, if
some of them are faulty, that merge up to the cut, and then the error of the fault that was met
(`Session.until_cut`). The fault of a capture is met in the move that hands its last record
over, so records of other captures that were read ahead are never delivered.
-/
import TrafficReplay.Proofs.Merge.Cut
import TrafficReplay.Proofs.Replay.Emission
import TrafficReplay.Proofs.Replay.Turns

namespace TrafficReplay

namespace Pump

variable {pump : Pump} {i : Nat} {record : Record} {error : ReplayError}

/-- The record before a fault is offered and handed over like any other, and then the error is
held. -/
theorem moves_of_break (h : Merge.Break pump.sources i record error) :
    ∃ taken after,
      (∀ tree, (pump.step tree).value = (taken, phaseOf (pump.offerOf i record))) ∧
      (taken.handOver (pump.offerOf i record)).value
        = (pump.afterTurn record after, .failing error) := by
  cases h with
  | @mk source taken closed _ _ hs hget ht ha =>
    refine ⟨pump.afterTake i record taken, pump.sources.set i closed, fun tree => ?_, ?_⟩
    · rw [step_of_select hs, take_of_take hget ht]
      rfl
    · have hi : i < pump.sources.length := (List.getElem?_eq_some_iff.mp hget).1
      have htaken : (pump.sources.set i taken)[i]? = some taken := List.getElem?_set_self hi
      simp only [handOver, afterTake, offerOf, htaken, Logged.value_bind, ha, List.set_set]
      rfl

end Pump

namespace Session

variable {session : Session} {pump : Pump} {contents : List Content}
  {items : List (Nat × Record)}

theorem concludes_of_break {i : Nat} {record : Record} {error : ReplayError}
    (hc : session.collected = false) (h : Merge.Break pump.sources i record error)
    (tree : FileTree) :
    (session.settled tree pump).Concludes [.ok (some record), .error error]
      ⟨pump.emitted + 1, pump.restarts, .failed error.message, 0⟩ := by
  obtain ⟨taken, after, hstep, hhand⟩ := Pump.moves_of_break h
  rw [settled_of_offer (hstep tree)]
  refine concludes_cons fun tree => ?_
  have hread : ((session.moved (taken, .holding (pump.offerOf i record))).read tree).value
      = (.ok (some record), session.moved (pump.afterTurn record after, .failing error)) := by
    have hsettle : (settle tree (pump.afterTurn record after, .failing error)).value
        = (pump.afterTurn record after, .failing error) := rfl
    rw [← hsettle, ← hhand]
    rfl
  rw [hread]
  exact ⟨rfl, concludes_of_failing hc⟩

theorem concludes_of_faultFree (hc : session.collected = false) (hl : pump.looping = false)
    (h : Stocked pump.sources contents) (hf : ∀ content ∈ contents, content.fault = none)
    (hd : Merge.Drained Merge.Wins (contents.map Content.records) items) (tree : FileTree) :
    (session.settled tree pump).Concludes (items.map fun item => .ok (some item.2))
      ⟨pump.emitted + items.length, pump.restarts, .exhausted, 0⟩ := by
  obtain ⟨others, hloop⟩ := Merge.exists_loop (h.holding hf)
  obtain rfl := hd.unique (hloop.drained (h.holding hf))
  obtain ⟨final, hturns, hnone⟩ := Pump.turns_of_loop hloop
  have hadvanced := hturns.advanced
  rw [Pacing.length_offers] at hadvanced
  have hend : ∀ tree, (session.settled tree final).Concludes []
      ⟨pump.emitted + others.length, pump.restarts, .exhausted, 0⟩ := by
    intro tree
    have hstep := (Pump.Round.done hnone).finish (hadvanced.looping.trans hl) tree
    rw [settled_of_step hstep (fun h => nomatch h), ← hadvanced.emitted, ← hadvanced.restarts]
    exact concludes_of_ended hc
  have hconcludes := concludes_of_turns hturns hend tree
  rw [Pacing.map_snd_taken_offers, List.append_nil] at hconcludes
  exact hconcludes

/-- **A fault cuts the replay.** -/
theorem concludes_of_cut (hc : session.collected = false)
    (h : Stocked pump.sources contents)
    (hd : Merge.Drained Merge.Wins (contents.map Content.records) items)
    {first : List (Nat × Record)} {path : String} {fault : Fault}
    (hcut : Merge.Cut contents items first path fault) (tree : FileTree) :
    (session.settled tree pump).Concludes
      (first.map (fun item => .ok (some item.2)) ++ [.error (.cannotRead path fault)])
      ⟨pump.emitted + first.length, pump.restarts,
        .failed (ReplayError.cannotRead path fault).message, 0⟩ := by
  -- along the merge, which knows of no fault: each of its items is a turn or the break
  generalize hqueues : contents.map Content.records = queues at hd
  induction hd generalizing pump contents first tree with
  | done _ =>
    obtain ⟨item, after, more, hitems, -⟩ := hcut.exists_cons h.recordsFirst
    cases hitems
  | @next queues i record rest' items hw hq _ ih =>
    subst hqueues
    obtain ⟨content, rest, hcontent, hrecords, hturn⟩ := h.turn hw
    rw [List.getElem?_map, hcontent, Option.map_some, hrecords] at hq
    cases hq
    rcases hturn with ⟨after, ht, hnext⟩ | ⟨f, rfl, hf, hbreak⟩
    · obtain ⟨item, after', more, hitems, rfl⟩ := hcut.exists_cons h.recordsFirst
      cases hitems
      have hcut' := (Merge.cut_cons_iff h.recordsFirst hcontent hrecords).mp hcut
      obtain ⟨taken, hstep, hhand⟩ := Pump.moves_of_turn ht
      rw [settled_of_offer (hstep tree), List.length_cons]
      refine concludes_cons fun tree => ?_
      rw [read_of_handOver hhand]
      refine ⟨rfl, ?_⟩
      have hcount : pump.emitted + (more.length + 1) = pump.emitted + 1 + more.length := by omega
      rw [hcount]
      exact @ih (pump.afterTurn record after) _ hnext _ hcut' tree List.map_set
    · obtain ⟨rfl, rfl, rfl⟩ := hcut.eq_singleton h.recordsFirst hcontent hrecords hf
      exact concludes_of_break hc hbreak tree

def pumpOver (pattern : String) (settings : Settings) (sources : List Source) : Pump :=
  ⟨pattern, settings.looping, sources, .new settings.speed, 0, 0⟩

/-- A replay over these sources at the moment when its reader gets it. -/
def begun (tree : FileTree) (pattern : String) (settings : Settings) (sources : List Source) :
    Session :=
  (proceed tree ⟨pumpOver pattern settings sources, .ready, false⟩).value

variable {pattern : String} {settings : Settings} {sources : List Source}

theorem begun_of_faultFree (hl : settings.looping = false) (h : Stocked sources contents)
    (hf : ∀ content ∈ contents, content.fault = none)
    (hd : Merge.Drained Merge.Wins (contents.map Content.records) items) (tree : FileTree) :
    (begun tree pattern settings sources).Concludes
      (items.map fun item => .ok (some item.2)) ⟨items.length, 0, .exhausted, 0⟩ := by
  have hall := @concludes_of_faultFree ⟨pumpOver pattern settings sources, .ready, false⟩
    (pumpOver pattern settings sources) _ _ rfl hl h hf hd tree
  have hcount : (pumpOver pattern settings sources).emitted + items.length = items.length :=
    Nat.zero_add _
  rwa [hcount] at hall

theorem begun_of_cut (h : Stocked sources contents)
    (hd : Merge.Drained Merge.Wins (contents.map Content.records) items)
    {first : List (Nat × Record)} {path : String} {fault : Fault}
    (hcut : Merge.Cut contents items first path fault) (tree : FileTree) :
    (begun tree pattern settings sources).Concludes
      (first.map (fun item => .ok (some item.2)) ++ [.error (.cannotRead path fault)])
      ⟨first.length, 0, .failed (ReplayError.cannotRead path fault).message, 0⟩ := by
  have hfirst := @concludes_of_cut ⟨pumpOver pattern settings sources, .ready, false⟩
    (pumpOver pattern settings sources) _ _ rfl h hd _ _ _ hcut tree
  have hcount : (pumpOver pattern settings sources).emitted + first.length = first.length :=
    Nat.zero_add _
  rwa [hcount] at hfirst

/-- **A replay delivers the merge of all that its captures have to give, or that merge up to the
cut.** Whatever streams its sources were opened on, plain or decompressed, these have definite
contents, and the contents one merge. If none of them is faulty, all of it is read and the replay is
exhausted. If some are, there is a cut; up to it the merge is read, then the error of the fault that
was met, and then nothing more, and no source is left open. -/
theorem until_cut {streams : List (String × List Delivery)} (hl : settings.looping = false)
    (hopened : OpenedOn streams sources) :
    ∃ contents items,
      (∀ others, List.Forall₂ Content.IsOf others streams ↔ others = contents) ∧
      (∀ content ∈ contents, content.fault ≠ none → content.records ≠ []) ∧
      (∀ others, Merge.Drained Merge.Wins (contents.map Content.records) others ↔ others = items) ∧
      ((∃ content ∈ contents, content.fault ≠ none) →
        ∃ first path fault, Merge.Cut contents items first path fault) ∧
      ∀ tree,
        (settings.validate = .ok () → (resolveSources tree pattern).value = .ok sources →
          (start tree pattern settings).value = .ok (begun tree pattern settings sources)) ∧
        ((∀ content ∈ contents, content.fault = none) →
          (begun tree pattern settings sources).Concludes (items.map fun item => .ok (some item.2))
            ⟨items.length, 0, .exhausted, 0⟩) ∧
        ∀ first path fault, Merge.Cut contents items first path fault →
          (begun tree pattern settings sources).Concludes
            (first.map (fun item => .ok (some item.2)) ++ [.error (.cannotRead path fault)])
            ⟨first.length, 0, .failed (ReplayError.cannotRead path fault).message, 0⟩ := by
  obtain ⟨contents, hcontents, hstocked⟩ := hopened.exists_contents
  obtain ⟨items, hd⟩ := Merge.exists_drained (contents.map Content.records)
  have hunique (others : List Content) (h : List.Forall₂ Content.IsOf others streams) :
      others = contents :=
    List.left_unique_forall₂' (fun _ _ _ ho hc => ho.unique hc) h hcontents
  refine ⟨contents, items, fun others => ⟨hunique others, fun h => h ▸ hcontents⟩,
    hstocked.recordsFirst, fun others => ⟨hd.unique, fun h => h ▸ hd⟩, Merge.exists_cut hd,
    fun tree => ⟨fun hv hs => (start_of_resolve hv hs rfl).2, fun hf => ?_, fun _ _ _ hcut => ?_⟩⟩
  · exact begun_of_faultFree hl hstocked hf hd tree
  · exact begun_of_cut hstocked hd hcut tree

/-- A compressed capture with two records that was cut off behind them. -/
def truncatedCapture : Bytes :=
  [0x1F, 0x8B, 0x08, 0x00, 0x00, 0x00, 0x00, 0x00, 0x00, 0x03, 0x00, 0x28, 0x00, 0xD7, 0xFF]
    ++ captureOf ["1 a 5\n", "1 c 9\n"]

/-- The files with this capture and a plain one that cannot be read behind its two records. -/
def faultyFiles : FileTree :=
  ⟨.directory [("a.gz", .file truncatedCapture),
    ("b", .damaged (captureOf ["1 b 7\n", "1 d 8\n"]) .inputOutput 0)], []⟩

def faultyStreams : List (String × List Delivery) :=
  [("a.gz", [.portion (captureOf ["1 a 5\n", "1 c 9\n"]), .failed .incompleteData]),
    ("b", [.portion (captureOf ["1 b 7\n", "1 d 8\n"]), .failed .inputOutput])]

def faultyContents : List Content :=
  [⟨"a.gz", ["1 a 5\n", "1 c 9\n"].map fun text => Record.ofBytes (Utf8.encode text),
      some .incompleteData⟩,
    ⟨"b", ["1 b 7\n", "1 d 8\n"].map fun text => Record.ofBytes (Utf8.encode text),
      some .inputOutput⟩]

def faultyItems : List (Nat × Record) :=
  [(0, "1 a 5\n"), (1, "1 b 7\n"), (1, "1 d 8\n"), (0, "1 c 9\n")].map fun item =>
    (item.1, Record.ofBytes (Utf8.encode item.2))

theorem openStream_truncated : Source.openStream faultyFiles "a.gz"
    = .ok [.portion (captureOf ["1 a 5\n", "1 c 9\n"]), .failed .incompleteData] := by
  have hunpack : Gzip.unpack? truncatedCapture
      = some ⟨captureOf ["1 a 5\n", "1 c 9\n"], some .incompleteData⟩ := by decide +kernel
  have hlookup : faultyFiles.lookup "a.gz" = .ok (.file truncatedCapture) := by cbv
  have hcompressed : Source.isCompressed (Utf8.encode "a.gz") = true := by cbv
  simp only [Source.openStream, hlookup, hcompressed, if_true, Source.unpackNode?, hunpack]
  rfl

theorem openStream_damaged : Source.openStream faultyFiles "b"
    = .ok [.portion (captureOf ["1 b 7\n", "1 d 8\n"]), .failed .inputOutput] := by
  cbv

theorem yields_of_two {first second : String} {fault : Fault}
    (h₁ : Framing.readRecord [.portion (captureOf [first, second]), .failed fault]
      = (.record (Utf8.encode first), [.portion (captureOf [second]), .failed fault]))
    (h₂ : Framing.readRecord [.portion (captureOf [second]), .failed fault]
      = (.record (Utf8.encode second), [.portion [], .failed fault]))
    (h₃ : Framing.readRecord [.portion [], .failed fault] = (.fault fault, [])) :
    Framing.Yields [.portion (captureOf [first, second]), .failed fault]
      ([first, second].map Utf8.encode) (some fault) :=
  .record h₁ (.record h₂ (.failed h₃))

theorem yields_truncated : Framing.Yields
    [.portion (captureOf ["1 a 5\n", "1 c 9\n"]), .failed .incompleteData]
    (["1 a 5\n", "1 c 9\n"].map Utf8.encode) (some .incompleteData) :=
  yields_of_two (by decide +kernel) (by decide +kernel) (by decide +kernel)

theorem yields_damaged : Framing.Yields
    [.portion (captureOf ["1 b 7\n", "1 d 8\n"]), .failed .inputOutput]
    (["1 b 7\n", "1 d 8\n"].map Utf8.encode) (some .inputOutput) :=
  yields_of_two (by decide +kernel) (by decide +kernel) (by decide +kernel)

theorem resolve_faultyFiles : ∃ sources, (resolveSources faultyFiles "*").value = .ok sources ∧
    OpenedOn faultyStreams sources := by
  rcases Source.onStream_cases "a.gz" yields_truncated with ⟨a, ha, -⟩ | ⟨-, hnone, -⟩
  swap
  · cases hnone
  rcases Source.onStream_cases "b" yields_damaged with ⟨b, hb, -⟩ | ⟨-, hnone, -⟩
  swap
  · cases hnone
  have hopenA := (congrArg Logged.value (Source.openAt_eq openStream_truncated)).trans ha
  have hopenB := (congrArg Logged.value (Source.openAt_eq openStream_damaged)).trans hb
  have hopen := openSources_cons (by decide +kernel) hopenA
    (@openSources_cons _ _ [] _ _ (by decide +kernel) hopenB rfl)
  exact ⟨[a, b], resolveSources_of_openSources (by cbv) hopen (List.cons_ne_nil _ _),
    .cons ha (.cons hb .nil)⟩

theorem drained_faultyItems :
    Merge.Drained Merge.Wins (faultyContents.map Content.records) faultyItems := by
  refine .next (Merge.wins_heads_of_select (by decide +kernel) rfl) rfl ?_
  refine .next (Merge.wins_heads_of_select (by decide +kernel) rfl) rfl ?_
  refine .next (Merge.wins_heads_of_select (by decide +kernel) rfl) rfl ?_
  refine .next (Merge.wins_heads_of_select (by decide +kernel) rfl) rfl ?_
  refine .done fun i => ?_
  rcases i with _ | _ | i
  · rfl
  · rfl
  · rfl

theorem cut_faultyItems :
    Merge.Cut faultyContents faultyItems (faultyItems.take 3) "b" .inputOutput := by
  refine (Merge.cut_cons_iff (by decide +kernel) rfl rfl).mpr ?_
  refine (Merge.cut_cons_iff (by decide +kernel) rfl rfl).mpr ?_
  refine (Merge.cut_cons_iff (by decide +kernel) rfl rfl).mpr ?_
  exact ⟨List.nil_prefix, ⟨1, _, rfl, rfl, rfl, rfl⟩, fun _ _ _ _ _ => Nat.zero_le _⟩

/-- The record at 9 is in hand when the fault of the plain capture is met, and is never delivered.
-/
theorem until_cut_damaged :
    ∃ session, (start faultyFiles "*" {}).value = .ok session ∧
      session.Concludes
        (["1 a 5\n", "1 b 7\n", "1 d 8\n"].map
            (fun text => .ok (some (Record.ofBytes (Utf8.encode text))))
          ++ [.error (.cannotRead "b" .inputOutput)])
        ⟨3, 0, .failed (ReplayError.cannotRead "b" .inputOutput).message, 0⟩ := by
  obtain ⟨sources, hs, hopened⟩ := resolve_faultyFiles
  obtain ⟨contents, items, hcontents, -, hitems, -, hsession⟩ :=
    @until_cut "*" {} sources _ rfl hopened
  obtain ⟨hstart, -, hcut⟩ := hsession faultyFiles
  obtain rfl : faultyContents = contents :=
    (hcontents _).mp
      (.cons ⟨rfl, _, yields_truncated, rfl⟩ (.cons ⟨rfl, _, yields_damaged, rfl⟩ .nil))
  obtain rfl := (hitems _).mp drained_faultyItems
  exact ⟨_, hstart rfl hs, hcut _ _ _ cut_faultyItems⟩

end Session

end TrafficReplay
