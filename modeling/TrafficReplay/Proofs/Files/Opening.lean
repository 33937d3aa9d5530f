/-
# Opening an output

Opening a file for writing empties it or creates it, and creates directories above it; that is all
that it does to the files (`FileTree.opening`). So what is opened is empty
(`CommandLine.Playback.find?_of_openOutput`), everything else stays as it is
(`CommandLine.Playback.openOutput_keeps`), and every path leads where it led before
(`FileTree.Keeps.locate`).
-/
import TrafficReplay.CommandLine.Playback
import TrafficReplay.Proofs.Files.Nodes

namespace TrafficReplay

namespace FileTree

variable {tree opened : FileTree} {here there names : List String} {name : String}
  {contents : Bytes} {sink : Sink}

theorem follow_notFound (h : tree.follow here [name] = .error .notFound)
    (hhere : (tree.root.find? here).isSome = true) :
    tree.root.find? (here ++ [name]) = none ∧ tree.Free (here ++ [name]) := by
  have hd := directoryAt_of_notFound h hhere
  rw [follow_cons hd] at h
  split at h
  · cases h
  · split at h
    · cases h
    · split at h
      · cases h
      · split at h
        · cases h
        · next hnone =>
          rw [Bool.not_eq_true, Option.isSome_eq_false_iff, Option.isNone_iff_eq_none] at hnone
          refine ⟨hnone, by simp, by rwa [List.dropLast_concat], ?_⟩
          rintro ⟨node, hnode, -⟩
          rw [hnone] at hnode
          cases hnode

/-- A name that is found, and is neither of those that lead elsewhere, is that of an entry. If the
entry is no directory, it can be replaced. -/
theorem follow_found (h : tree.follow here [name] = .ok there) (hs : staysPut name = false)
    (hup : name ≠ "..") : ∃ node, tree.root.find? there = some node ∧
      (node.isDirectory = false → tree.Free there) := by
  have hd := directoryAt_of_follow h
  rw [follow_cons hd, hs, if_neg Bool.false_ne_true, if_neg hup] at h
  split at h
  · cases h
  · split at h
    · next hsome =>
      cases h
      obtain ⟨node, hnode⟩ := Option.isSome_iff_exists.mp hsome
      refine ⟨node, hnode, fun hn => ⟨by simp, by rwa [List.dropLast_concat], fun hat => ?_⟩⟩
      rw [hat.isDirectory hnode] at hn
      cases hn
    · cases h

theorem directoryAt_of_follow_dot (h : tree.follow here (names ++ ["."]) = .ok there) :
    tree.root.DirectoryAt there := by
  induction names generalizing here with
  | nil =>
    have hd := directoryAt_of_follow h
    rw [List.nil_append, follow_cons hd, if_pos (by decide)] at h
    cases h
    exact hd
  | cons component names ih =>
    rw [List.cons_append] at h
    rw [follow_cons (directoryAt_of_follow h)] at h
    split at h
    · exact ih h
    · split at h
      · exact ih h
      · split at h
        · cases h
        · split at h
          · exact ih h
          · cases h

/-- What opening for writing does to the files: nothing where a device is opened; otherwise there is
an empty file in an existing directory then, where no directory stood. -/
inductive Opening (tree : FileTree) : Sink → FileTree → Prop
  | device (device : Device) : Opening tree (.device device) tree
  | file {names : List String} : tree.Free names →
      Opening tree (.file names) (tree.place names (.file []))

theorem opening {path : String}
    (h : tree.openForWriting path = .ok (sink, opened)) : Opening tree sink opened := by
  unfold openForWriting at h
  cases hrefused : refusal? path with
  | some fault =>
    rw [hrefused] at h
    cases h
  | none =>
    rw [hrefused] at h
    simp only [bind, Except.bind] at h
    split at h
    · cases h
    · next parent hparent =>
      have hdirectory := directoryAt_of_follow_dot hparent
      split at h
      · cases h
      · next hname =>
        simp only [not_or, Bool.not_eq_true] at hname
        split at h
        · next hf =>
          cases h
          obtain ⟨node, hnode, -⟩ := hdirectory
          exact .file (follow_notFound hf (Option.isSome_iff_exists.mpr ⟨node, hnode⟩)).2
        · cases h
        · next names hf =>
          obtain ⟨node, hnode, hfree⟩ := follow_found hf hname.2.1 hname.2.2
          rw [hnode] at h
          cases node with
          | device device =>
            cases h
            exact .device device
          | directory entries => cases h
          | unlisted entries fault => cases h
          | locked fault => cases h
          | file contents =>
            cases h
            exact .file (hfree rfl)
          | damaged contents fault withheld =>
            cases h
            exact .file (hfree rfl)

theorem Opening.empty (h : Opening tree (.file names) opened) :
    opened.root.find? names = some (.file []) := by
  cases h with
  | file _ => exact find?_place_self _ _ _

theorem Sink.find?_append {bytes : Bytes} (h : tree.root.find? names = some (.file contents)) :
    ((Sink.file names).append bytes tree).root.find? names = some (.file (contents ++ bytes)) := by
  rw [append, h]
  exact find?_place_self _ _ _

/-! ## What stays as it is -/

/-- What is left of the files when an output is open: directories stay directories, and all files
and devices stay as they are, but for the output itself. -/
structure Keeps (tree : FileTree) (sink : Sink) (opened : FileTree) : Prop where
  home : opened.home = tree.home
  directory : ∀ {names}, tree.root.DirectoryAt names → opened.root.DirectoryAt names
  leaf : ∀ {names node}, tree.root.find? names = some node → node.isDirectory = false →
    opened.root.find? names = some node ∨
      sink = .file names ∧ opened.root.find? names = some (.file [])

theorem keeps_refl (tree : FileTree) (sink : Sink) : Keeps tree sink tree :=
  ⟨rfl, id, fun hnode _ => .inl hnode⟩

theorem Keeps.trans {later : FileTree} (h : Keeps tree sink opened) (h' : Keeps opened sink later) :
    Keeps tree sink later := by
  refine ⟨h'.home.trans h.home, fun hd => h'.directory (h.directory hd), fun hnode hn => ?_⟩
  · rcases h.leaf hnode hn with hopened | ⟨hsink, hopened⟩
    · exact h'.leaf hopened hn
    · rcases h'.leaf hopened rfl with hlater | hlater
      · exact .inr ⟨hsink, hlater⟩
      · exact .inr hlater

theorem keeps_place_directory (h : tree.Free names) (hnone : tree.root.find? names = none)
    (sink : Sink) : Keeps tree sink (tree.place names (.directory [])) := by
  refine ⟨rfl, directoryAt_place h _, fun hnode hn => .inl ?_⟩
  refine find?_place_of_leaf h _ hnode hn ?_
  rintro rfl
  rw [hnone] at hnode
  cases hnode

theorem keeps_place_file (h : tree.Free names) :
    Keeps tree (.file names) (tree.place names (.file [])) := by
  refine ⟨rfl, directoryAt_place h _, @fun other node hnode hn => ?_⟩
  by_cases hne : names = other
  · subst hne
    exact .inr ⟨rfl, find?_place_self tree names _⟩
  · exact .inl (find?_place_of_leaf h _ hnode hn hne)

theorem makeDirectories_keeps (tree : FileTree) (here names : List String) (sink : Sink) :
    Keeps tree sink (tree.makeDirectories here names) := by
  induction names generalizing tree here with
  | nil => exact keeps_refl tree sink
  | cons name names ih =>
    rw [makeDirectories]
    split
    · exact ih tree _
    · next hf =>
      split
      · next hhere =>
        obtain ⟨hnone, hfree⟩ := follow_notFound hf hhere
        exact (keeps_place_directory hfree hnone sink).trans (ih _ _)
      · exact keeps_refl tree sink
    · exact keeps_refl tree sink

theorem Opening.keeps (h : Opening tree sink opened) : Keeps tree sink opened := by
  cases h with
  | device device => exact keeps_refl tree _
  | file hfree => exact keeps_place_file hfree

section Keeps

variable {path : String} {node : Node}

theorem Keeps.other (h : Keeps tree sink opened) (hnode : tree.root.find? names = some node)
    (hn : node.isDirectory = false) (hne : sink ≠ .file names) :
    opened.root.find? names = some node :=
  (h.leaf hnode hn).resolve_right fun houtput => hne houtput.1

theorem Keeps.isSome (h : Keeps tree sink opened) (hsome : (tree.root.find? names).isSome = true) :
    (opened.root.find? names).isSome = true := by
  obtain ⟨node, hnode⟩ := Option.isSome_iff_exists.mp hsome
  cases hn : node.isDirectory with
  | true =>
    obtain ⟨other, hother, -⟩ := h.directory ⟨node, hnode, hn⟩
    exact Option.isSome_iff_exists.mpr ⟨other, hother⟩
  | false =>
    rcases h.leaf hnode hn with hopened | ⟨-, hopened⟩
    · exact Option.isSome_iff_exists.mpr ⟨_, hopened⟩
    · exact Option.isSome_iff_exists.mpr ⟨_, hopened⟩

theorem Keeps.follow {components : List String} (h : Keeps tree sink opened)
    (hf : tree.follow here components = .ok names) : opened.follow here components = .ok names := by
  induction components generalizing here with
  | nil => exact hf
  | cons component rest ih =>
    have hd := directoryAt_of_follow hf
    rw [follow_cons hd] at hf
    rw [follow_cons (h.directory hd)]
    split at hf
    · next hstays => rw [if_pos hstays, ih hf]
    · next hstays =>
      rw [if_neg hstays]
      split at hf
      · next hup => rw [if_pos hup, ih hf]
      · next hup =>
        rw [if_neg hup]
        split at hf
        · cases hf
        · next hlong =>
          rw [if_neg hlong]
          split at hf
          · next hsome => rw [if_pos (h.isSome hsome), ih hf]
          · cases hf

theorem Keeps.locate (h : Keeps tree sink opened) (hl : tree.locate path = .ok names) :
    opened.locate path = .ok names := by
  unfold FileTree.locate at hl ⊢
  cases hrefused : refusal? path with
  | some fault =>
    rw [hrefused] at hl
    cases hl
  | none =>
    rw [hrefused] at hl
    rw [startOf] at hl ⊢
    rw [h.home]
    exact h.follow hl

theorem lookup_of_locate (hl : tree.locate path = .ok names)
    (hnode : tree.root.find? names = some node) : tree.lookup path = .ok node := by
  simp only [lookup, hl, bind, Except.bind, hnode]

theorem exists_locate_of_lookup (hl : tree.lookup path = .ok node) :
    ∃ names, tree.locate path = .ok names ∧ tree.root.find? names = some node := by
  cases hlocate : tree.locate path with
  | error fault =>
    simp only [lookup, hlocate, bind, Except.bind] at hl
    cases hl
  | ok names =>
    simp only [lookup, hlocate, bind, Except.bind] at hl
    cases hnode : tree.root.find? names with
    | none =>
      rw [hnode] at hl
      cases hl
    | some found =>
      rw [hnode] at hl
      cases hl
      exact ⟨names, rfl, hnode⟩

end Keeps

end FileTree

namespace CommandLine.Playback

open FileTree

variable {tree opened : FileTree} {out : Option String} {sink : Sink} {names : List String}

theorem exists_opening (h : openOutput tree out = .ok (sink, opened)) :
    ∃ here above, Opening (tree.makeDirectories here above) sink opened := by
  cases out with
  | none =>
    cases h
    exact ⟨[], [], .device .standardOutput⟩
  | some path =>
    simp only [openOutput] at h
    split at h
    · next result hopened =>
      obtain ⟨sink', opened'⟩ := result
      cases h
      exact ⟨_, _, opening hopened⟩
    · cases h

theorem find?_of_openOutput (h : openOutput tree out = .ok (.file names, opened)) :
    opened.root.find? names = some (.file []) := by
  obtain ⟨here, above, hopening⟩ := exists_opening h
  exact hopening.empty

theorem openOutput_keeps (h : openOutput tree out = .ok (sink, opened)) :
    Keeps tree sink opened := by
  obtain ⟨here, above, hopening⟩ := exists_opening h
  exact (makeDirectories_keeps tree here above sink).trans hopening.keeps

end CommandLine.Playback

end TrafficReplay
