/-
# Records that can be framed again

No record that a stream gives holds a separator line, however its reads go: a fault loses the record
that it interrupts, and what comes behind it is read from a new line on
(`Framing.not_mem_of_readRecord`). So a record in the hand of a source can be framed and found again
(`Source.Framable`), whatever the source has been through.
-/
import TrafficReplay.Proofs.Record.NormalForm
import TrafficReplay.Proofs.Source.Captures

namespace TrafficReplay

namespace Framing

theorem not_mem_of_readRecordAfter {deliveries rest : List Delivery} {read raw : Bytes}
    (hread : Gathered read.reverse) (h : readRecordAfter read deliveries = (.record raw, rest)) :
    separator ∉ payloadLines raw := by
  fun_induction readRecordAfter read deliveries with
  | case1 | case2 => cases h
  | case3 read deliveries b line rest' hl hs =>
    cases h
    rw [reverse_withoutBreak]
    exact hread.not_mem
  | case4 read deliveries b line rest' hl hs ih =>
    rcases Delivery.isLine_of_readLine hl with ⟨front, hfront, hline⟩ | ⟨-, rfl⟩
    · refine ih ?_ h
      have hne : front ≠ separator := by
        rw [hline, isSeparatorLine_append_newline] at hs
        simpa using hs
      rw [List.reverseAux_eq, List.reverse_append, List.reverse_reverse, hline]
      exact .line hread hfront hne
    · -- no separator can follow a line that is the last one
      rw [@readRecordAfter_of_end [] [] _ rfl] at h
      cases h

theorem not_mem_of_readRecord {deliveries rest : List Delivery} {raw : Bytes}
    (h : readRecord deliveries = (.record raw, rest)) : separator ∉ payloadLines raw :=
  @not_mem_of_readRecordAfter deliveries rest [] raw .nil h

end Framing

/-- The record has no separator among its lines. -/
def Record.Framable (record : Record) : Prop :=
  Framing.separator ∉ Framing.payloadLines record.bytes

def framed (records : List Record) : Bytes :=
  records.flatMap fun record => Framing.frame record.bytes

@[simp] theorem framed_nil : framed [] = [] := rfl

@[simp] theorem framed_cons (record : Record) (records : List Record) :
    framed (record :: records) = Framing.frame record.bytes ++ framed records := rfl

@[simp] theorem framed_append (records others : List Record) :
    framed (records ++ others) = framed records ++ framed others :=
  List.flatMap_append

theorem split_framed {records : List Record} (h : ∀ record ∈ records, record.Framable) :
    Framing.split (framed records) = records.map Record.bytes := by
  have hframed : framed records = (records.map Record.bytes).flatMap Framing.frame :=
    (List.flatMap_map ..).symm
  rw [hframed]
  refine Framing.split_flatMap_frame fun payload hp => ?_
  obtain ⟨record, hr, rfl⟩ := List.mem_map.mp hp
  exact h record hr

namespace Source

/-- What the source has in hand can be framed. -/
def Framable (source : Source) : Prop :=
  ∀ record, source.lookahead = some record → record.Framable

variable {source : Source}

theorem framable_close (source : Source) : source.close.Framable :=
  fun _ h => nomatch h

theorem framable_take (source : Source) : source.take.2.Framable :=
  fun _ h => nomatch h

theorem framable_advance (source : Source) : source.advance.value.2.Framable := by
  obtain ⟨path, stream, lookahead⟩ := source
  cases stream with
  | none => exact framable_close _
  | some deliveries =>
    rcases hr : Framing.readRecord deliveries with ⟨reading, rest⟩
    simp only [advance, hr, Logged.value_bind]
    cases reading with
    | ended discarded => exact framable_close _
    | fault fault => exact framable_close _
    | record raw =>
      intro record h
      cases h
      exact Framing.not_mem_of_readRecord hr

theorem framable_of_openAt {tree : FileTree} {path : String}
    (h : (openAt tree path).value = .ok source) : source.Framable := by
  cases ho : openStream tree path with
  | error e =>
    rw [openAt, ho] at h
    cases h
  | ok deliveries =>
    have hnext := framable_advance ⟨path, some deliveries, none⟩
    rw [openAt_eq ho] at h
    simp only [onStream, Logged.value_bind] at h
    rcases ha : (advance ⟨path, some deliveries, none⟩).value with ⟨result, next⟩
    rw [ha] at h hnext
    cases result with
    | error e => cases h
    | ok u =>
      cases h
      exact hnext

end Source

theorem forall₂_exists_of_mem_right {α β : Type} {R : α → β → Prop} {xs : List α} {ys : List β}
    (h : List.Forall₂ R xs ys) {y : β} (hy : y ∈ ys) : ∃ x ∈ xs, R x y := by
  induction h with
  | nil => cases hy
  | cons hxy _ ih =>
    rcases List.mem_cons.mp hy with rfl | hy
    · exact ⟨_, List.mem_cons_self, hxy⟩
    · obtain ⟨x, hx, hR⟩ := ih hy
      exact ⟨x, List.mem_cons_of_mem _ hx, hR⟩

theorem framable_of_resolveSources {tree : FileTree} {pattern : String} {sources : List Source}
    (h : (resolveSources tree pattern).value = .ok sources) :
    ∀ source ∈ sources, source.Framable := by
  obtain ⟨paths, -, ho, -⟩ := openSources_of_resolveSources h
  intro source hs
  obtain ⟨path, -, hopen⟩ := forall₂_exists_of_mem_right (opened_of_openSources ho) hs
  exact Source.framable_of_openAt hopen

end TrafficReplay
