/-
# Calls, requests and summaries

What can be told of a run from its deeds alone, whatever its pump does. Each call returns once at
most (`Exchange.Run.called`), a stop that is pending was requested (`Exchange.Run.requested`), and
the summary is given once (`Exchange.Run.collected`).
-/
import TrafficReplay.Proofs.Replay.Moves

namespace TrafficReplay.Exchange

variable {files : Nat → FileTree} {s mid t : Exchange} {deed : Deed} {deeds later : List Deed}

/-- Calls are known by their numbers, and each of them has returned once or is blocked. -/
structure Called (deeds : List Deed) (s : Exchange) : Prop where
  made : ∀ n, .call n ∈ deeds ↔ n < s.calls
  once : ((returned deeds).map (·.1) ++ s.blocked).Nodup
  known : ∀ n ∈ (returned deeds).map (·.1) ++ s.blocked, n < s.calls

theorem called_begin (session : Session) : Called [] (begin session) :=
  ⟨fun _ => ⟨fun h => absurd h List.not_mem_nil, fun h => absurd h (Nat.not_lt_zero _)⟩, .nil,
    fun _ h => absurd h List.not_mem_nil⟩

theorem Called.keep (h : Called deeds s) (hcall : ∀ n, deed ≠ .call n)
    (hreturn : deed.returned? = none) (hcalls : t.calls = s.calls)
    (hblocked : t.blocked = s.blocked) : Called (deeds ++ [deed]) t := by
  have hreturned : returned (deeds ++ [deed]) = returned deeds := by
    rw [returned_snoc, hreturn]
    exact List.append_nil _
  refine ⟨fun n => ?_, ?_, ?_⟩
  · rw [List.mem_append, List.mem_singleton, hcalls, ← h.made n]
    exact ⟨fun hor => hor.resolve_right fun heq => hcall n heq.symm, .inl⟩
  · rw [hreturned, hblocked]
    exact h.once
  · rw [hreturned, hblocked, hcalls]
    exact h.known

theorem Called.answer (h : Called deeds s) {n : Nat} (hn : n ∈ s.blocked) (result : ReadResult)
    (hcalls : t.calls = s.calls) (hblocked : t.blocked = s.blocked.erase n) :
    Called (deeds ++ [.returns n result]) t := by
  have hreturned : (returned (deeds ++ [.returns n result])).map (·.1)
      = (returned deeds).map (·.1) ++ [n] := by
    rw [returned_snoc, List.map_append]
    rfl
  have hperm : ((returned deeds).map (·.1) ++ [n] ++ s.blocked.erase n).Perm
      ((returned deeds).map (·.1) ++ s.blocked) := by
    rw [List.append_assoc]
    exact .append_left _ (List.perm_cons_erase hn).symm
  refine ⟨fun m => ?_, ?_, ?_⟩
  · rw [hcalls, ← h.made m]
    simp
  · rw [hreturned, hblocked]
    exact hperm.nodup_iff.mpr h.once
  · rw [hreturned, hblocked, hcalls]
    exact fun m hm => h.known m (hperm.mem_iff.mp hm)

theorem Called.step (h : Called deeds s) (hstep : Step files s deed t) :
    Called (deeds ++ [deed]) t := by
  cases hstep with
  | call _ =>
    have hreturned : returned (deeds ++ [.call s.calls]) = returned deeds := by
      rw [returned_snoc]
      exact List.append_nil _
    have hfresh : s.calls ∉ (returned deeds).map (·.1) ++ s.blocked :=
      fun hmem => Nat.lt_irrefl _ (h.known _ hmem)
    refine ⟨fun n => ?_, ?_, ?_⟩
    · rw [List.mem_append, List.mem_singleton, h.made n, Deed.call.injEq]
      exact Nat.lt_succ_iff_lt_or_eq.symm
    · rw [hreturned]
      exact List.nodup_middle.mpr (List.nodup_cons.mpr ⟨hfresh, h.once⟩)
    · rw [hreturned]
      intro n hn
      rcases List.mem_cons.mp (List.perm_middle.mem_iff.mp hn) with rfl | hbefore
      · exact Nat.lt_succ_self _
      · exact Nat.lt_succ_of_lt (h.known n hbefore)
  | handOver _ hn => exact h.answer hn _ rfl rfl
  | fail _ hn => exact h.answer hn _ rfl rfl
  | finish _ hn => exact h.answer hn _ rfl rfl
  | _ => exact h.keep (fun _ heq => by cases heq) rfl rfl rfl

/-- **No call returns twice**, and none that was not made. -/
theorem Run.called (h : Run files s later t) (hs : Called deeds s) : Called (deeds ++ later) t := by
  induction h with
  | done =>
    rw [List.append_nil]
    exact hs
  | next _ hstep ih =>
    rw [← List.append_assoc]
    exact ih.step hstep

theorem Run.requested (h : Run files s later t) (ht : t.stopPending = true) :
    s.stopPending = true ∨ ∃ who, .request who ∈ later := by
  induction h with
  | done => exact .inl ht
  | @next mid t deeds deed _ hstep ih =>
    have hmid : mid.stopPending = true ∨ ∃ who, deed = .request who := by
      cases hstep with
      | request _ => exact .inr ⟨_, rfl⟩
      | heed _ _ => cases ht
      | _ => exact .inl ht
    rcases hmid with hpending | ⟨who, rfl⟩
    · exact (ih hpending).imp_right fun ⟨who, hmem⟩ => ⟨who, List.mem_append_left _ hmem⟩
    · exact .inr ⟨who, by simp⟩

theorem Step.pending_of_heed (h : Step files s .heed t) (hs : s.Sound) : s.stopPending = true := by
  cases h with
  | heed hheeds hready =>
    refine hready.resolve_right fun hgone => ?_
    obtain ⟨reason, hphase⟩ := Phase.isOver_iff.mp (hs hgone)
    rw [hphase] at hheeds
    cases hheeds

theorem collected_stop (session : Session) :
    session.stop.value.collected = session.collected := by
  obtain ⟨pump, phase, collected⟩ := session
  cases phase with
  | ready => rfl
  | waiting offer => rfl
  | holding offer => rfl
  | failing error => rfl
  | ended reason => rfl

theorem wait_of_ended {session : Session} {reason : StopReason}
    (h : session.phase = .ended reason) :
    session.wait = (if session.collected then none else some (session.pump.summary reason),
      { session with collected := true }) := by
  obtain ⟨pump, phase, collected⟩ := session
  subst h
  cases collected with
  | true => rfl
  | false => rfl

theorem Run.collected (h : Run files s later t) (hs : s.session.collected = true) :
    t.session.collected = true ∧ ∀ summary ∈ collections later, summary = none := by
  induction h with
  | done => exact ⟨hs, fun _ hmem => absurd hmem List.not_mem_nil⟩
  | @next mid t deeds deed _ hstep ih =>
    obtain ⟨hmid, hnone⟩ := ih
    have hkept : t.session.collected = true ∧ ∀ summary ∈ deed.collected?, summary = none := by
      cases hstep with
      | collect hphase _ _ =>
        rw [wait_of_ended hphase, hmid]
        exact ⟨rfl, fun _ hmem => (Option.mem_some.mp hmem).symm⟩
      | release hphase _ =>
        rw [wait_of_ended hphase]
        exact ⟨rfl, fun _ hmem => absurd hmem (Option.not_mem_none _)⟩
      | heed _ _ =>
        exact ⟨(collected_stop _).trans hmid, fun _ hmem => absurd hmem (Option.not_mem_none _)⟩
      | _ => exact ⟨hmid, fun _ hmem => absurd hmem (Option.not_mem_none _)⟩
    refine ⟨hkept.1, fun summary hmem => ?_⟩
    rw [collections_snoc, List.mem_append] at hmem
    rcases hmem with hbefore | hlast
    · exact hnone summary hbefore
    · exact hkept.2 summary (Option.mem_toList.mp hlast)

theorem Run.collected_begin {session : Session} (h : Run files (begin session) deeds s)
    (hc : session.collected = false) (hs : s.session.collected = true) :
    collections deeds ≠ [] ∨ s.standing = .gone := by
  induction h with
  | done => exact absurd (hc.symm.trans hs) Bool.false_ne_true
  | @next mid t deeds deed _ hstep ih =>
    have hmid : mid.session.collected = true → collections (deeds ++ [deed]) ≠ [] ∨
        mid.standing = .gone := by
      intro hcollected
      refine (ih hcollected).imp_left fun hne hnil => hne ?_
      rw [collections_snoc] at hnil
      exact (List.append_eq_nil_iff.mp hnil).1
    cases hstep with
    | collect _ _ _ =>
      rw [collections_snoc]
      exact .inl (List.append_ne_nil_of_right_ne_nil _ (List.cons_ne_nil _ _))
    | release _ _ => exact .inr rfl
    | heed _ _ => exact hmid ((collected_stop _).symm.trans hs)
    | @request who hadmits =>
      refine (hmid hs).imp_right fun hgone => ?_
      cases who with
      | drop => exact absurd (hadmits.1.symm.trans hgone) (by simp)
      | owner => exact hgone
      | handle n => exact hgone
    | _ => exact hmid hs

theorem Run.over_of_collected {session : Session} (h : Run files (begin session) deeds s)
    (hc : session.collected = false) (hs : s.session.collected = true) :
    s.session.phase.isOver = true := by
  induction h with
  | done => exact absurd (hc.symm.trans hs) Bool.false_ne_true
  | @next mid t deeds deed hrun hstep ih =>
    have hkept := hstep.over_of_over (hrun.sound (sound_begin session))
    cases hstep with
    | collect hphase _ _ => exact hkept (Phase.isOver_iff.mpr ⟨_, hphase⟩)
    | release hphase _ => exact hkept (Phase.isOver_iff.mpr ⟨_, hphase⟩)
    | heed _ _ => exact hkept (ih ((collected_stop _).symm.trans hs))
    | _ => exact hkept (ih hs)

end TrafficReplay.Exchange
