/-
# The name of a file

A path that leads to a file ends with the name that the file has in its directory, whatever it goes
through before (`FileTree.getLast?_of_follow`). So it depends on this name alone whether a capture
counts as compressed (`FileTree.isCompressed_of_locate`).
-/
import TrafficReplay.Proofs.Files.Nodes
import TrafficReplay.Source

namespace TrafficReplay

theorem exists_last_separator {α : Type} (isSeparator : α → Bool) (text : List α) :
    (∀ a ∈ text, isSeparator a = false) ∨ ∃ front a last, text = front ++ a :: last ∧
      isSeparator a = true ∧ ∀ b ∈ last, isSeparator b = false := by
  induction text with
  | nil => exact .inl fun _ h => nomatch h
  | cons b text ih =>
    rcases ih with hnone | ⟨front, a, last, rfl, ha, hlast⟩
    · cases hb : isSeparator b with
      | false => exact .inl (List.forall_mem_cons.mpr ⟨hb, hnone⟩)
      | true => exact .inr ⟨[], b, text, rfl, hb, hnone⟩
    · exact .inr ⟨b :: front, a, last, rfl, ha, hlast⟩

namespace Source

theorem isCompressed_append_slash (front last : Bytes) :
    isCompressed (front ++ 0x2F :: last) = isCompressed last := by
  have hslash : (0x2F : UInt8) ∉ compressedEnding := by decide
  rw [Bool.eq_iff_iff, isCompressed, isCompressed, List.isSuffixOf_iff_suffix,
    List.isSuffixOf_iff_suffix]
  refine ⟨fun h => ?_, fun h => h.trans (List.suffix_append_of_suffix (List.suffix_cons _ _))⟩
  rcases List.suffix_or_suffix_of_suffix h (List.suffix_append front (0x2F :: last)) with hs | hs
  · rcases List.suffix_cons_iff.mp hs with heq | hs
    · exact absurd (heq ▸ List.mem_cons_self) hslash
    · exact hs
  · exact absurd (hs.mem List.mem_cons_self) hslash

theorem exists_last_component (path : String) :
    ∃ last, (FileTree.components path).getLast? = some last ∧
      isCompressed (Utf8.encode path) = isCompressed (Utf8.encode last) := by
  rcases exists_last_separator (· = '/') path.toList with hnone | ⟨front, a, last, hpath, ha, hlast⟩
  · refine ⟨path, ?_, rfl⟩
    rw [FileTree.components, pieces_eq_singleton hnone, List.map_singleton, String.ofList_toList]
    rfl
  · obtain rfl := of_decide_eq_true ha
    refine ⟨String.ofList last, ?_, ?_⟩
    · rw [FileTree.components, hpath, pieces_append_cons rfl, pieces_eq_singleton hlast,
        List.map_append, List.map_singleton, List.getLast?_concat]
    · rw [Utf8.encode, Utf8.encode, hpath, String.toList_ofList, List.flatMap_append,
        List.flatMap_cons]
      exact isCompressed_append_slash _ _

end Source

namespace FileTree

variable {tree : FileTree} {here names components : List String} {path : String} {node : Node}

theorem directoryAt_dropLast (h : tree.root.DirectoryAt here) :
    tree.root.DirectoryAt here.dropLast := by
  rcases List.eq_nil_or_concat here with rfl | ⟨front, name, rfl⟩
  · exact h
  · obtain ⟨node, hnode, -⟩ := h
    rw [List.concat_eq_append] at hnode ⊢
    rw [List.dropLast_concat]
    exact Node.directoryAt_above hnode

/-- **The last component that leads to a file is the name of the file.** -/
theorem getLast?_of_follow (h : tree.follow here components = .ok names)
    (hnode : tree.root.find? names = some node) (hn : node.isDirectory = false)
    (hne : components ≠ []) : components.getLast? = names.getLast? := by
  have hleaf : ¬ tree.root.DirectoryAt names := by
    intro hd
    rw [hd.isDirectory hnode] at hn
    cases hn
  induction components generalizing here with
  | nil => exact absurd rfl hne
  | cons component rest ih =>
    have hd := directoryAt_of_follow h
    rw [follow_cons hd] at h
    rw [List.getLast?_cons]
    by_cases hrest : rest = []
    · -- the way ends here, and neither where it is nor above there stands a file
      subst hrest
      split at h
      · cases h
        exact absurd hd hleaf
      · split at h
        · cases h
          exact absurd (directoryAt_dropLast hd) hleaf
        · split at h
          · cases h
          · split at h
            · cases h
              rw [List.getLast?_concat]
              rfl
            · cases h
    · have hgoOn {there : List String} (ht : tree.follow there rest = .ok names) :
          some (rest.getLast?.getD component) = names.getLast? := by
        rw [← ih ht hrest, List.getLast?_eq_some_getLast hrest]
        rfl
      split at h
      · exact hgoOn h
      · split at h
        · exact hgoOn h
        · split at h
          · cases h
          · split at h
            · exact hgoOn h
            · cases h

theorem isCompressed_of_locate (h : tree.locate path = .ok names)
    (hnode : tree.root.find? names = some node) (hn : node.isDirectory = false) :
    Source.isCompressed (Utf8.encode path)
      = Source.isCompressed (Utf8.encode (names.getLastD "")) := by
  obtain ⟨last, hlast, hsame⟩ := Source.exists_last_component path
  unfold locate at h
  cases hrefused : refusal? path with
  | some fault =>
    rw [hrefused] at h
    cases h
  | none =>
    rw [hrefused] at h
    have hne : FileTree.components path ≠ [] := by
      intro hnil
      rw [hnil] at hlast
      cases hlast
    have hname := (getLast?_of_follow h hnode hn hne).symm.trans hlast
    rw [hsame, List.getLastD_eq_getLast?, hname]
    rfl

end FileTree

end TrafficReplay
