/-
# Members behind each other

A compressed file that is read to its end without a fault is a row of members (`Decodes`). Such
files can be put behind each other: the first one ends where its last member does, and what comes
behind is read as the next member (`Decodes.append`). So the members of a file hold together what
each holds alone, those that hold nothing among them (`unpack?_flatten`).
-/
import Mathlib.Data.List.Forall2
import TrafficReplay.Proofs.Gzip.Locality

namespace TrafficReplay.Gzip

/-- From the compressed data of a member on, the file is read to its end, and it holds these bytes.
-/
inductive Decodes : Cursor → Bytes → Prop
  | last {cursor after next : Cursor} {output : Output} :
      inflate cursor .empty = .complete output after →
      readTrailer output.toBytes after = .ok next →
      next.bytes = [] →
      Decodes cursor output.toBytes
  | member {cursor after next rest : Cursor} {output : Output} {others : Bytes} :
      inflate cursor .empty = .complete output after →
      readTrailer output.toBytes after = .ok next →
      Header.read next = .ok rest →
      Decodes rest others →
      Decodes cursor (output.toBytes ++ others)

theorem Output.toBytes_congr {output output' : Output} (h : output'.bytes = output.bytes) :
    output'.toBytes = output.toBytes :=
  congrArg Array.toList h

theorem Header.bytes_ne_nil_of_read {cursor rest : Cursor} (h : read cursor = .ok rest) :
    cursor.bytes ≠ [] := by
  intro hnil
  have hfixed : readFixed cursor = .error .unexpectedEnd := by rw [readFixed, hnil]
  rw [read, hfixed] at h
  cases h

theorem pending_of_readTrailer {contents : Bytes} {cursor rest : Cursor}
    (h : readTrailer contents cursor = .ok rest) : rest.pending = [] := by
  unfold readTrailer at h
  split at h
  · split at h
    · cases h
      rfl
    · cases h
  · cases h

theorem decodes_of_readMembers {cursor : Cursor} {contents : Bytes}
    (h : readMembers cursor = ⟨contents, none⟩) : Decodes cursor contents := by
  fun_induction readMembers cursor generalizing contents with
  | case1 | case2 | case3 => cases h
  | case4 cursor output after hi next ht hnil =>
    cases h
    exact .last hi ht hnil
  | case5 => cases h
  | case6 cursor output after hi next ht hnil rest hh =>
    rename_i others ih
    simp only [Unpacked.mk.injEq] at h
    obtain ⟨rfl, hnone⟩ := h
    exact .member hi ht hh (ih (by rw [← hnone]))

theorem Decodes.readMembers {cursor : Cursor} {contents : Bytes} (h : Decodes cursor contents) :
    Gzip.readMembers cursor = ⟨contents, none⟩ := by
  induction h with
  | last hi ht hnil =>
    rw [Gzip.readMembers, hi]
    dsimp only
    rw [ht]
    exact if_pos hnil
  | member hi ht hh _ ih =>
    rw [Gzip.readMembers, hi]
    dsimp only
    rw [ht]
    dsimp only
    rw [if_neg (Header.bytes_ne_nil_of_read hh), hh]
    dsimp only
    rw [ih]

theorem Decodes.congr {cursor cursor' : Cursor} {contents : Bytes} (h : Decodes cursor contents)
    (he : cursor.Extends [] cursor') : Decodes cursor' contents := by
  induction h generalizing cursor' with
  | last hi ht hnil =>
    obtain ⟨output', after', hi', ho, ha⟩ := inflate_local hi he rfl
    rw [← Output.toBytes_congr ho] at ht ⊢
    obtain ⟨next', ht', hn⟩ := readTrailer_local ht ha
    exact .last hi' ht' (by rw [hn.bytes, hnil, List.append_nil])
  | member hi ht hh _ ih =>
    obtain ⟨output', after', hi', ho, ha⟩ := inflate_local hi he rfl
    rw [← Output.toBytes_congr ho] at ht ⊢
    obtain ⟨next', ht', hn⟩ := readTrailer_local ht ha
    obtain ⟨rest', hh', hr⟩ := Header.read_local hh hn
    exact .member hi' ht' hh' (ih hr)

/-- **Files that are read to their ends can be put behind each other.** The header of the second one
comes where the first one would end. -/
theorem Decodes.append {cursor longer start : Cursor} {contents others file : Bytes}
    (h : Decodes cursor contents) (he : cursor.Extends file longer)
    (hs : Header.read ⟨[], file, 0⟩ = .ok start) (hd : Decodes start others) :
    Decodes longer (contents ++ others) := by
  induction h generalizing longer with
  | last hi ht hnil =>
    obtain ⟨output', after', hi', ho, ha⟩ := inflate_local hi he rfl
    rw [← Output.toBytes_congr ho] at ht ⊢
    obtain ⟨next', ht', hn⟩ := readTrailer_local ht ha
    have hfile : Cursor.Extends ⟨[], file, 0⟩ [] next' := by
      refine ⟨?_, ?_⟩
      · rw [hn.pending]
        exact pending_of_readTrailer ht
      · rw [hn.bytes, hnil, List.nil_append, List.append_nil]
    obtain ⟨start', hs', hr⟩ := Header.read_local hs hfile
    exact .member hi' ht' hs' (hd.congr hr)
  | member hi ht hh _ ih =>
    obtain ⟨output', after', hi', ho, ha⟩ := inflate_local hi he rfl
    rw [← Output.toBytes_congr ho] at ht ⊢
    obtain ⟨next', ht', hn⟩ := readTrailer_local ht ha
    obtain ⟨rest', hh', hr⟩ := Header.read_local hh hn
    rw [List.append_assoc]
    exact .member hi' ht' hh' (ih hr)

theorem unpack?_eq_some_iff {file contents : Bytes} :
    unpack? file = some ⟨contents, none⟩
      ↔ ∃ start, Header.read ⟨[], file, 0⟩ = .ok start ∧ Decodes start contents := by
  rw [unpack?]
  cases hh : Header.read ⟨[], file, 0⟩ with
  | error fault => simp
  | ok start =>
    simp only [Option.some.injEq, Except.ok.injEq, exists_eq_left']
    exact ⟨decodes_of_readMembers, Decodes.readMembers⟩

theorem unpack?_append {file other contents others : Bytes}
    (h : unpack? file = some ⟨contents, none⟩) (h' : unpack? other = some ⟨others, none⟩) :
    unpack? (file ++ other) = some ⟨contents ++ others, none⟩ := by
  obtain ⟨start, hs, hd⟩ := unpack?_eq_some_iff.mp h
  obtain ⟨start', hs', hd'⟩ := unpack?_eq_some_iff.mp h'
  have he : Cursor.Extends ⟨[], file, 0⟩ other ⟨[], file ++ other, 0⟩ := ⟨rfl, rfl⟩
  obtain ⟨longer, hl, hr⟩ := Header.read_local hs he
  exact unpack?_eq_some_iff.mpr ⟨longer, hl, hd.append hr hs' hd'⟩

/-- **Members that are read to their ends one by one are read to the end behind each other**, and
together they hold what they hold one by one. -/
theorem unpack?_flatten {members contents : List Bytes} (hne : members ≠ [])
    (h : List.Forall₂ (fun member bytes => unpack? member = some ⟨bytes, none⟩) members contents) :
    unpack? members.flatten = some ⟨contents.flatten, none⟩ := by
  induction h with
  | nil => exact absurd rfl hne
  | @cons member bytes members contents hm hrest ih =>
    rw [List.flatten_cons, List.flatten_cons]
    cases hrest with
    | nil => rwa [List.flatten_nil, List.append_nil, List.append_nil]
    | cons _ _ => exact unpack?_append hm (ih (List.cons_ne_nil _ _))

end TrafficReplay.Gzip
