/-
# What programs say

A number in a text can be told if something other than a digit stands in front of it, whatever bytes
were said before (`Utf8.number_inj`). A program that fails says in what it fails and for what
causes: a cause on its own, or each with its number, and the later lines of a cause as far from the
margin as its first one (`Failure.report_eq`).
-/
import TrafficReplay.CommandLine.Outcome
import TrafficReplay.Proofs.Text.Breaks

namespace TrafficReplay

/-! ## Numbers in texts -/

theorem append_cons_inj {α : Type} {a : α} {xs ys ds es : List α} (hd : a ∉ ds) (he : a ∉ es)
    (h : xs ++ a :: ds = ys ++ a :: es) : xs = ys ∧ ds = es := by
  rcases List.append_eq_append_iff.mp h with ⟨as, rfl, has⟩ | ⟨as, rfl, has⟩
  · cases as with
    | nil => exact ⟨(List.append_nil xs).symm, (List.cons.inj has).2⟩
    | cons b as =>
      rw [(List.cons.inj has).2] at hd
      exact absurd (List.mem_append_right as List.mem_cons_self) hd
  · cases as with
    | nil => exact ⟨List.append_nil ys, (List.cons.inj has).2.symm⟩
    | cons b as =>
      rw [(List.cons.inj has).2] at he
      exact absurd (List.mem_append_right as List.mem_cons_self) he

theorem map_mapIdx {α β γ : Type} (f : Nat → α → β) (g : β → γ) (xs : List α) :
    (xs.mapIdx f).map g = xs.mapIdx fun i x => g (f i x) := by
  refine List.ext_getElem? fun i => ?_
  rw [List.getElem?_map, List.getElem?_mapIdx, List.getElem?_mapIdx, Option.map_map]
  rfl

theorem toString_inj {n m : Nat} (h : toString n = toString m) : n = m :=
  Nat.repr_inj.mp h

/-- **A number can be told** behind what is no digit, whatever stands in front of it. -/
theorem Utf8.number_inj {b : UInt8} (hb : IsPlain b) (hdigit : Char.ofNat b.toNat ∉ digitSigns)
    {front front' tail : Bytes} {n m : Nat}
    (h : front ++ b :: (encode (toString n) ++ tail)
      = front' ++ b :: (encode (toString m) ++ tail)) :
    front = front' ∧ n = m := by
  have hnone (k : Nat) : b ∉ encode (toString k) := notMem_encode hb (notMem_toString hdigit k)
  have hcut : front ++ b :: encode (toString n) = front' ++ b :: encode (toString m) := by
    have hlong : (front ++ b :: encode (toString n)) ++ tail
        = (front' ++ b :: encode (toString m)) ++ tail := by
      simpa only [List.append_assoc, List.cons_append] using h
    exact List.append_cancel_right hlong
  obtain ⟨hfront, hnumber⟩ := append_cons_inj (hnone n) (hnone m) hcut
  exact ⟨hfront, toString_inj (encode_injective hnumber)⟩

namespace CommandLine

/-! ## Failures -/

namespace Failure

/-- The text, with so many blanks in front of each line but the first one. -/
def hanging (width : Nat) (text : String) : String :=
  String.ofList (text.toList.flatMap fun c =>
    if c = '\n' then '\n' :: List.replicate width ' ' else [c])

/-- What is said of a failure: in what the program fails, and for what causes. -/
def wording (context : String) : List String → String
  | [] => "Error: " ++ context ++ "\n"
  | [cause] => "Error: " ++ context ++ "\n\nCaused by:\n    " ++ hanging 4 cause ++ "\n"
  | causes =>
    "Error: " ++ context ++ "\n\nCaused by:" ++ String.join (causes.mapIdx fun number cause =>
      "\n    " ++ toString number ++ ": " ++ hanging 7 cause) ++ "\n"

/-- Lines that are put together with something behind each break are the text with it behind each
break. -/
theorem exists_pieces_eq (others text : List Char) :
    ∃ line lines, pieces (· = '\n') text = line :: lines ∧
      line ++ lines.flatMap (fun line => '\n' :: others ++ line)
        = text.flatMap fun c => if c = '\n' then '\n' :: others else [c] := by
  induction text with
  | nil => exact ⟨[], [], rfl, rfl⟩
  | cons c text ih =>
    obtain ⟨line, lines, hpieces, hflat⟩ := ih
    rw [pieces_cons, hpieces, addToPieces, List.flatMap_cons, ← hflat]
    by_cases hc : c = '\n'
    · refine ⟨[], line :: lines, if_pos (decide_eq_true hc), ?_⟩
      rw [if_pos hc, List.flatMap_cons, List.nil_append, List.append_assoc]
    · exact ⟨c :: line, lines, if_neg (by simp [hc]), by rw [if_neg hc]; rfl⟩

theorem indented_eq (first : List Char) (width : Nat) (text : String) :
    indented first (List.replicate width ' ') text.toList
      = first ++ (hanging width text).toList := by
  obtain ⟨line, lines, hpieces, hflat⟩ := exists_pieces_eq (List.replicate width ' ') text.toList
  rw [hanging, String.toList_ofList, ← hflat, ← List.append_assoc]
  simp only [indented, hpieces]

theorem label_eq {number : Nat} (h : number < 10) :
    label number = "    ".toList ++ (toString number).toList ++ ": ".toList := by
  have hdigits : (toString number).toList = Nat.toDigits 10 number := Nat.toList_repr
  have hlength : (Nat.toDigits 10 number).length = 1 := by
    rw [Nat.toDigits_of_lt_base h]
    rfl
  rw [hdigits, label]
  simp only [hlength]
  rfl

theorem numbered_eq {number : Nat} (h : number < 10) (cause : String) :
    numbered number cause = ("    " ++ toString number ++ ": " ++ hanging 7 cause).toList := by
  rw [numbered, indented_eq, label_eq h]
  simp only [String.toList_append]

theorem toList_report (context : String) (causes : List String) :
    (report ⟨context, causes⟩).toList
      = "Error: ".toList ++ context.toList ++ (if causes = [] then [] else "\n\nCaused by:".toList)
        ++ ((causeLines causes).flatMap fun lines => '\n' :: lines) ++ ['\n'] :=
  String.toList_ofList

theorem flatMap_causeLines {first second : String} {causes : List String}
    (h : (first :: second :: causes).length ≤ 10) :
    (causeLines (first :: second :: causes)).flatMap (fun lines => '\n' :: lines)
      = (String.join ((first :: second :: causes).mapIdx fun number cause =>
          "\n    " ++ toString number ++ ": " ++ hanging 7 cause)).toList := by
  have hbreak : "\n    ".toList = '\n' :: "    ".toList := rfl
  have hseveral : causeLines (first :: second :: causes)
      = (first :: second :: causes).mapIdx numbered := rfl
  rw [hseveral, String.toList_join, List.flatMap_def, List.flatMap_def, map_mapIdx, map_mapIdx]
  refine congrArg List.flatten (List.mapIdx_eq_mapIdx_iff.mpr fun number hnumber => ?_)
  rw [numbered_eq (Nat.lt_of_lt_of_le hnumber h)]
  simp only [String.toList_append, hbreak, List.cons_append]

/-- **The report of a failure** with ten causes at most. -/
theorem report_eq {failure : Failure} (h : failure.causes.length ≤ 10) :
    failure.report = wording failure.context failure.causes := by
  obtain ⟨context, causes⟩ := failure
  refine String.toList_inj.mp ?_
  rw [toList_report]
  match causes with
  | [] =>
    rw [if_pos rfl]
    simp only [wording, causeLines, String.toList_append, List.flatMap_nil, List.append_nil]
    rfl
  | [cause] =>
    have hcaused : "\n\nCaused by:\n    ".toList
        = "\n\nCaused by:".toList ++ '\n' :: List.replicate 4 ' ' := rfl
    rw [if_neg (List.cons_ne_nil _ _)]
    simp only [wording, causeLines, single, indented_eq, String.toList_append, hcaused,
      List.flatMap_singleton, List.append_assoc, List.cons_append]
    rfl
  | first :: second :: causes =>
    rw [if_neg (List.cons_ne_nil _ _)]
    have hlines := flatMap_causeLines h
    simp only [wording, hlines, String.toList_append]
    rfl

end Failure

/-- The program has failed in this, and it says so, and for what causes, whatever it has said
before. -/
def Outcome.Fails (outcome : Outcome) (context : String) (causes : List String) : Prop :=
  outcome.code = 1 ∧
    ∃ said, outcome.diagnostics = said ++ Utf8.encode (Failure.wording context causes)

theorem Outcome.fails_failed {failure : Failure} (h : failure.causes.length ≤ 10)
    (output said : Bytes)
    (tree : FileTree) :
    (Outcome.failed output said failure tree).Fails failure.context failure.causes :=
  ⟨rfl, said, by rw [← Failure.report_eq h]; rfl⟩

end CommandLine

theorem ReplayError.length_causes_le (e : ReplayError) : e.causes.length ≤ 2 := by
  rw [causes, List.length_cons]
  cases e.cause? with
  | none => decide
  | some cause => exact Nat.le_refl 2

end TrafficReplay
