/-
# Nodes that are placed, and those beside them

Placing a node at the end of a row of names puts it there (`Node.find?_insert_self`) and leaves all
alone that stands elsewhere: rows of names of which neither begins the other lead past each other
(`Node.find?_insert_of_apart`). So no file changes when something is placed in an existing directory
under a name that is new, or that of another file (`FileTree.find?_place_of_leaf`), and all
directories stay directories (`FileTree.directoryAt_place`). What a path is followed through are
directories (`FileTree.directoryAt_of_follow`).
-/
import Mathlib.Data.List.Infix
import TrafficReplay.FileTree

namespace TrafficReplay

namespace Node

theorem find?_append (node : Node) (names others : List String) :
    node.find? (names ++ others) = (node.find? names).bind (·.find? others) := by
  induction names generalizing node with
  | nil => rfl
  | cons name names ih =>
    rw [List.cons_append, find?, find?]
    cases node.child? name with
    | none => rfl
    | some child => exact ih child

@[simp] theorem entries_withEntries (node : Node) (entries : List (String × Node)) :
    (node.withEntries entries).entries = entries := by
  cases node <;> rfl

theorem child?_put_self (name : String) (new node : Node) (entries : List (String × Node)) :
    (node.withEntries (put name new entries)).child? name = some new := by
  unfold child?
  induction entries with
  | nil => simp [put]
  | cons entry entries ih =>
    simp only [put, entries_withEntries] at ih ⊢
    split
    · simp
    · next hne =>
      rw [List.find?_cons_of_neg (by simpa using hne)]
      exact ih

theorem child?_put_of_ne {name other : String} (h : other ≠ name) (new node : Node) :
    (node.withEntries (put name new node.entries)).child? other = node.child? other := by
  unfold child?
  rw [entries_withEntries]
  induction node.entries with
  | nil => simp [put, h.symm]
  | cons entry entries ih =>
    rw [put]
    split
    · next heq =>
      rw [List.find?_cons_of_neg (by simpa using h.symm),
        List.find?_cons_of_neg (by simpa [heq] using h.symm)]
    · rw [List.find?_cons, List.find?_cons]
      split
      · rfl
      · exact ih

theorem find?_insert_self (new : Node) (names : List String) (node : Node) :
    (insert new names node).find? names = some new := by
  induction names generalizing node with
  | nil => rfl
  | cons name names ih =>
    rw [insert, find?, child?_put_self]
    exact ih _

/-- Neither row of names begins the other. -/
def Apart (names others : List String) : Prop :=
  ¬ names <+: others ∧ ¬ others <+: names

theorem find?_directory_nil {names : List String} (h : names ≠ []) :
    (directory []).find? names = none := by
  cases names with
  | nil => exact absurd rfl h
  | cons name names => rfl

theorem find?_insert_of_apart {names others : List String} (h : Apart names others) (new : Node)
    (node : Node) : (insert new names node).find? others = node.find? others := by
  induction names generalizing others node with
  | nil => exact absurd (List.nil_prefix) h.1
  | cons name names ih =>
    cases others with
    | nil => exact absurd (List.nil_prefix) h.2
    | cons other others =>
      rw [insert, find?, find?]
      by_cases heq : other = name
      · subst heq
        have hapart : Apart names others := by
          refine ⟨fun hp => h.1 ?_, fun hp => h.2 ?_⟩
          · exact List.cons_prefix_cons.mpr ⟨rfl, hp⟩
          · exact List.cons_prefix_cons.mpr ⟨rfl, hp⟩
        rw [child?_put_self, Option.bind_some, ih hapart]
        cases node.child? other with
        | some child => rfl
        | none =>
          rw [Option.getD_none, Option.bind_none]
          refine find?_directory_nil ?_
          rintro rfl
          exact hapart.2 List.nil_prefix
      · rw [child?_put_of_ne heq]

/-- The names lead to a directory. -/
def DirectoryAt (root : Node) (names : List String) : Prop :=
  ∃ node, root.find? names = some node ∧ node.isDirectory = true

theorem entries_of_not_isDirectory {node : Node} (h : node.isDirectory = false) :
    node.entries = [] := by
  cases node with
  | directory entries => cases h
  | unlisted entries fault => cases h
  | file contents => rfl
  | locked fault => rfl
  | damaged contents fault withheld => rfl
  | device device => rfl

theorem directoryAt_above {root node : Node} {names rest : List String} {name : String}
    (h : root.find? (names ++ name :: rest) = some node) : root.DirectoryAt names := by
  rw [find?_append] at h
  obtain ⟨above, habove, hbelow⟩ := Option.bind_eq_some_iff.mp h
  refine ⟨above, habove, ?_⟩
  by_contra hd
  rw [find?, child?, entries_of_not_isDirectory (Bool.not_eq_true _ ▸ hd)] at hbelow
  cases hbelow

theorem DirectoryAt.isDirectory {root node : Node} {names : List String}
    (h : root.DirectoryAt names) (hnode : root.find? names = some node) :
    node.isDirectory = true := by
  obtain ⟨other, hother, hd⟩ := h
  rw [hnode] at hother
  cases hother
  exact hd

end Node

namespace FileTree

variable {tree : FileTree} {names other : List String} {node : Node}

theorem find?_place_self (tree : FileTree) (names : List String) (node : Node) :
    (tree.place names node).root.find? names = some node :=
  Node.find?_insert_self node names tree.root

/-- The name can be given in its directory: that is there, and no directory has the name already. -/
structure Free (tree : FileTree) (names : List String) : Prop where
  ne_nil : names ≠ []
  parent : tree.root.DirectoryAt names.dropLast
  notDirectory : ¬ tree.root.DirectoryAt names

theorem Free.not_prefix (h : tree.Free names) (ho : tree.root.find? other = some node)
    (hne : names ≠ other) : ¬ names <+: other := by
  rintro ⟨rest, rfl⟩
  cases rest with
  | nil => exact hne (List.append_nil names).symm
  | cons name rest => exact h.notDirectory (Node.directoryAt_above ho)

theorem Free.apart (h : tree.Free names) (ho : tree.root.find? other = some node)
    (hn : node.isDirectory = false) (hne : names ≠ other) : Node.Apart names other := by
  refine ⟨h.not_prefix ho hne, fun hp => ?_⟩
  have hleaf : ¬ tree.root.DirectoryAt other := by
    intro hd
    rw [hd.isDirectory ho] at hn
    cases hn
  have hprefix : other <+: names.dropLast := by
    rcases List.prefix_concat_iff.mp
      ((List.dropLast_append_getLast h.ne_nil).symm ▸ hp) with heq | hprefix
    · rw [List.dropLast_append_getLast] at heq
      exact absurd heq.symm hne
    · exact hprefix
  obtain ⟨rest, hrest⟩ := hprefix
  cases rest with
  | nil =>
    rw [List.append_nil] at hrest
    exact hleaf (hrest ▸ h.parent)
  | cons name rest =>
    obtain ⟨parent, hparent, -⟩ := h.parent
    rw [← hrest] at hparent
    exact hleaf (Node.directoryAt_above hparent)

/-- Something placed under a name that can be given leaves all other files and devices alone. -/
theorem find?_place_of_leaf (h : tree.Free names) (new : Node)
    (ho : tree.root.find? other = some node) (hn : node.isDirectory = false) (hne : names ≠ other) :
    (tree.place names new).root.find? other = some node :=
  (Node.find?_insert_of_apart (h.apart ho hn hne) new tree.root).trans ho

theorem directoryAt_place (h : tree.Free names) (new : Node)
    (ho : tree.root.DirectoryAt other) : (tree.place names new).root.DirectoryAt other := by
  have hne : names ≠ other := by
    rintro rfl
    exact h.notDirectory ho
  by_cases hp : other <+: names
  · obtain ⟨rest, rfl⟩ := hp
    cases rest with
    | nil => exact absurd (List.append_nil other) hne
    | cons name rest => exact Node.directoryAt_above (find?_place_self tree _ new)
  · obtain ⟨node, hnode, hd⟩ := ho
    have hapart : Node.Apart names other := ⟨h.not_prefix hnode hne, hp⟩
    exact ⟨node, (Node.find?_insert_of_apart hapart new tree.root).trans hnode, hd⟩

/-! ## Following components -/

variable {here : List String} {component : String} {rest : List String}

theorem follow_cons (h : tree.root.DirectoryAt here) (component : String) (rest : List String) :
    tree.follow here (component :: rest)
      = if staysPut component then tree.follow here rest
        else if component = ".." then tree.follow here.dropLast rest
        else if longestName < component.utf8ByteSize then .error .nameTooLong
        else if (tree.root.find? (here ++ [component])).isSome then
          tree.follow (here ++ [component]) rest
        else .error .notFound := by
  obtain ⟨node, hnode, hd⟩ := h
  rw [follow, hnode]
  simp only [hd, Bool.not_true, Bool.false_eq_true, if_false]

theorem directoryAt_of_follow (h : tree.follow here (component :: rest) = .ok names) :
    tree.root.DirectoryAt here := by
  rw [follow] at h
  split at h
  · cases h
  · next node hnode =>
    cases hd : node.isDirectory with
    | true => exact ⟨node, hnode, hd⟩
    | false =>
      rw [hd] at h
      cases h

theorem directoryAt_of_notFound (h : tree.follow here (component :: rest) = .error .notFound)
    (hhere : (tree.root.find? here).isSome = true) : tree.root.DirectoryAt here := by
  obtain ⟨node, hnode⟩ := Option.isSome_iff_exists.mp hhere
  cases hd : node.isDirectory with
  | true => exact ⟨node, hnode, hd⟩
  | false =>
    rw [follow, hnode] at h
    simp only [hd, Bool.not_false, if_true] at h
    cases h

end FileTree

end TrafficReplay
