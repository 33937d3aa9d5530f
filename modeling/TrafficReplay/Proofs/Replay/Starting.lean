/-
# How a replay starts, and starts over

A replay is refused because of its speed before its pattern is looked at, then because of its
pattern or its captures, and otherwise it begins (`Session.Started`, `Session.prepare_iff`). When it
starts over, its pattern is resolved once more, with the files as they are then, and what cannot be
opened then is what the reader is told (`Exchange.fails_fast`).
-/
import TrafficReplay.Proofs.Numbers.Binary64
import TrafficReplay.Proofs.Replay.Account
import TrafficReplay.Proofs.Replay.Course
import TrafficReplay.Proofs.Source.Refusals

namespace TrafficReplay

namespace Settings

variable {settings : Settings}

/-- The speed factor is not a positive finite number. -/
def Refused (settings : Settings) : Prop :=
  settings.speed.isNaN = true ∨ settings.speed.isInf = true ∨ settings.speed ≤ 0.0

instance (settings : Settings) : Decidable settings.Refused :=
  inferInstanceAs (Decidable (_ ∨ _ ∨ _))

theorem validate_eq (settings : Settings) :
    settings.validate
      = if settings.Refused then .error (.invalidSpeed settings.speed) else .ok () := by
  rw [validate]
  refine if_congr ?_ rfl rfl
  rw [Bool.or_eq_true, Bool.not_eq_true', decide_eq_true_iff, Refused, ← or_assoc,
    ← Bool.not_eq_true, Binary64.isFinite_iff, not_not]

theorem validate_of_refused (h : settings.Refused) :
    settings.validate = .error (.invalidSpeed settings.speed) := by
  rw [validate_eq, if_pos h]

theorem validate_of_not_refused (h : ¬ settings.Refused) : settings.validate = .ok () := by
  rw [validate_eq, if_neg h]

end Settings

namespace Session

variable {tree : FileTree} {pattern : String} {settings : Settings}

/-- What starting a replay comes to. -/
inductive Started (tree : FileTree) (pattern : String) (settings : Settings) :
    Except ReplayError Session → Prop
  /-- Its speed is refused, whatever the pattern and the files are. -/
  | refused : settings.Refused →
      Started tree pattern settings (.error (.invalidSpeed settings.speed))
  | failed {error : ReplayError} : ¬ settings.Refused → Resolved tree pattern (.error error) →
      Started tree pattern settings (.error error)
  /-- Its pump is about to take the first record, and nothing was emitted as yet. -/
  | begun {sources : List Source} : ¬ settings.Refused → Resolved tree pattern (.ok sources) →
      Started tree pattern settings (.ok ⟨pumpOver pattern settings sources, .ready, false⟩)

theorem prepare_of_refused (h : settings.Refused) :
    (prepare tree pattern settings).value = .error (.invalidSpeed settings.speed) := by
  simp only [prepare, Pump.start, Settings.validate_of_refused h]
  rfl

theorem prepare_of_error {error : ReplayError} (hv : settings.validate = .ok ())
    (h : (resolveSources tree pattern).value = .error error) :
    (prepare tree pattern settings).value = .error error := by
  simp only [prepare, Pump.start, hv, Logged.value_bind, h]
  rfl

/-- **Starting a replay comes to one of these things.** -/
theorem prepare_iff {result : Except ReplayError Session} :
    (prepare tree pattern settings).value = result ↔ Started tree pattern settings result := by
  constructor
  · rintro rfl
    by_cases hrefused : settings.Refused
    · rw [prepare_of_refused hrefused]
      exact .refused hrefused
    · have hv := Settings.validate_of_not_refused hrefused
      cases hs : (resolveSources tree pattern).value with
      | error error =>
        rw [prepare_of_error hv hs]
        exact .failed hrefused (resolveSources_iff.mp hs)
      | ok sources =>
        rw [prepare_of_resolve hv hs]
        exact .begun hrefused (resolveSources_iff.mp hs)
  · intro h
    cases h with
    | refused hrefused => exact prepare_of_refused hrefused
    | failed hrefused hs =>
      exact prepare_of_error (Settings.validate_of_not_refused hrefused) (resolveSources_iff.mpr hs)
    | begun hrefused hs =>
      exact prepare_of_resolve (Settings.validate_of_not_refused hrefused)
        (resolveSources_iff.mpr hs)

theorem start_eq (tree : FileTree) (pattern : String) (settings : Settings) :
    (start tree pattern settings).value
      = (prepare tree pattern settings).value.map fun session => (session.proceed tree).value := by
  simp only [start, Logged.value_bind]
  cases (prepare tree pattern settings).value with
  | error error => rfl
  | ok session => rfl

end Session

namespace Exchange

variable {files : Nat → FileTree} {prepared : Session} {s t : Exchange} {deeds later : List Deed}
  {pump : Pump} {error : ReplayError}

theorem Step.of_reopening {result : Except ReplayError (List Source)}
    (h : Step files s (.step (some result)) t) :
    s.session.phase = .ready ∧ s.session.pump.looping = true ∧
      (resolveSources (files s.session.pump.restarts) s.session.pump.pattern).value = result ∧
      ∀ error, result = .error error → t = s.moved (s.session.pump.closeAll, .failing error) := by
  generalize hdeed : Deed.step (some result) = deed at h
  cases h with
  | step hphase =>
    have hstepped := Pump.stepped (files s.session.pump.restarts) s.session.pump
    rw [← Deed.step.inj hdeed] at hstepped
    generalize (s.session.pump.step (files s.session.pump.restarts)).value = next at hstepped
    cases hstepped with
    | lost _ hl hr =>
      refine ⟨hphase, hl, hr, fun error herror => ?_⟩
      cases herror
      rfl
    | renewed _ hl hr _ => exact ⟨hphase, hl, hr, fun _ herror => nomatch herror⟩
    | fruitless _ hl hr _ => exact ⟨hphase, hl, hr, fun _ herror => nomatch herror⟩
  | _ => cases hdeed

theorem Run.failing (h : Run files s later t) (hs : s.Sound)
    (hstate : s.state = (pump, .failing error)) (hheed : .heed ∉ later)
    (hreturned : returned later = []) : t.state = (pump, .failing error) := by
  refine h.keeps (P := fun deeds state => .heed ∉ deeds → returned deeds = [] →
    state = (pump, .failing error)) hs ?_ (fun _ _ => hstate) hheed hreturned
  intro deeds state deed next hP hm hheed hreturned
  rw [List.mem_append, not_or, List.mem_singleton] at hheed
  rw [returned_snoc, List.append_eq_nil_iff, Option.toList_eq_nil_iff] at hreturned
  obtain rfl := hP hheed.1 hreturned.1
  cases hm with
  | aside _ => rfl
  | heed _ => exact absurd rfl hheed.2
  | heedFailing => exact absurd rfl hheed.2
  | fail => cases hreturned.2

theorem Run.told {n : Nat} {result : ReadResult} (h : Run files s (later ++ [.returns n result]) t)
    (hs : s.Sound) (hstate : s.state = (pump, .failing error)) (hheed : .heed ∉ later)
    (hreturned : returned later = []) : result = .error error := by
  obtain ⟨mid, hlater, hlast⟩ := h.split
  obtain ⟨next, hstep, -⟩ := hlast.uncons
  have hmoves := hstep.moves (hlater.sound hs)
  rw [hlater.failing hs hstate hheed hreturned] at hmoves
  generalize next.state = after at hmoves
  cases hmoves with
  | aside ha => cases ha
  | fail => rfl

/-- A directory, a capture, a file that cannot be opened, and one that is not compressed as its name
says. -/
def mixedFiles : FileTree :=
  ⟨.directory [("a", .directory []), ("b", .file (captureOf ["1 a 5\n"])),
    ("c", .locked .permissionDenied), ("d.gz", .file [])], []⟩

def emptyFiles : FileTree :=
  ⟨.directory [("b", .file [])], []⟩

def unlistedFiles : FileTree :=
  ⟨.unlisted [("b", .file [])] .permissionDenied, []⟩

theorem resolved_mixedFiles :
    Resolved mixedFiles "*" (.error (.cannotOpen "c" .permissionDenied)) := by
  have hb : Source.openStream mixedFiles "b" = .ok [.portion (captureOf ["1 a 5\n"])] := by cbv
  have hread : Framing.readRecord [.portion (captureOf ["1 a 5\n"])]
      = (.record (Utf8.encode "1 a 5\n"), [.portion []]) := by decide +kernel
  have hsearch : Glob.search mixedFiles "*"
      = .ok (["a", "b"].map .path ++ .path "c" :: [.path "d.gz"]) := by cbv
  have hfiles : mixedFiles.filesAmong ["a", "b"] = ["b"] := by decide +kernel
  refine .of_search hsearch (.refused (.refused (fun other hother => ?_) (by cbv)
    (.locked (by cbv))))
  rw [hfiles] at hother
  rw [List.mem_singleton.mp hother]
  exact ⟨_, .filled hb hread⟩

theorem resolved_emptyFiles : Resolved emptyFiles "*" (.ok [⟨"b", none, none⟩]) := by
  have hb : Source.openStream emptyFiles "b" = .ok [.portion []] := by cbv
  have hsearch : Glob.search emptyFiles "*" = .ok (["b"].map .path) := by cbv
  have hfiles : emptyFiles.filesAmong ["b"] = ["b"] := by decide +kernel
  refine .of_search hsearch (.opened (by rw [hfiles]; exact List.cons_ne_nil _ _) ?_)
  rw [hfiles]
  exact .cons (.empty hb Framing.readRecord_empty) .nil

theorem resolved_unlistedFiles :
    Resolved unlistedFiles "*" (.error (.cannotOpen "." (.unlisted "." .permissionDenied))) := by
  have hsearch : Glob.search unlistedFiles "*" = .ok [.unlisted "." .permissionDenied] := by cbv
  exact .of_search hsearch (.refused (@OpensAll.unlisted _ [] _ _ _ (List.forall_mem_nil _)))

end Exchange

end TrafficReplay
