/-
# What resolving a pattern comes to

`Source.Opens` says what opening a capture comes to, `OpensAll` what opening all that a search has
found does, and `OpensFound` what a pattern comes to whose search has this outcome: each way in which
that goes well or fails is one of their constructors, with the error that belongs to it. They
determine the result, and there always is one (`Source.openAt_iff`, `openSources_iff`,
`openFound_iff`). Nothing in them depends on how a pattern is searched for; `Resolved` is the case
of the search through the files.
-/
import TrafficReplay.Proofs.Source.Framable

namespace TrafficReplay

def FileTree.filesAmong (tree : FileTree) (paths : List String) : List String :=
  paths.filter fun path => !tree.isDirectory path

namespace Source

/-- What opening a capture comes to. -/
inductive Opens (tree : FileTree) (path : String) : Except ReplayError Source → Prop
  /-- There is nothing that could be opened. -/
  | missing {fault : Fault} : tree.lookup path = .error fault →
      Opens tree path (.error (.cannotOpen path fault))
  /-- There is a file, but it cannot be opened. -/
  | locked {fault : Fault} : tree.lookup path = .ok (.locked fault) →
      Opens tree path (.error (.cannotOpen path fault))
  /-- By its name it is compressed, and it does not start like that. -/
  | headless {node : Node} : tree.lookup path = .ok node → (∀ fault, node ≠ .locked fault) →
      isCompressed (Utf8.encode path) = true → unpackNode? node = none →
      Opens tree path (.error (.cannotDecompress path .missingHeader))
  /-- Its first record cannot be read. -/
  | unreadable {deliveries rest : List Delivery} {fault : Fault} :
      openStream tree path = .ok deliveries → Framing.readRecord deliveries = (.fault fault, rest) →
      Opens tree path (.error (.cannotRead path fault))
  /-- It holds no record. -/
  | empty {deliveries rest : List Delivery} {discarded : Nat} :
      openStream tree path = .ok deliveries →
      Framing.readRecord deliveries = (.ended discarded, rest) →
      Opens tree path (.ok ⟨path, none, none⟩)
  /-- Its first record is in hand, and the rest is still to be read. -/
  | filled {deliveries rest : List Delivery} {raw : Bytes} :
      openStream tree path = .ok deliveries → Framing.readRecord deliveries = (.record raw, rest) →
      Opens tree path (.ok ⟨path, some rest, some (Record.ofBytes raw)⟩)

variable {tree : FileTree} {path : String}

theorem openAt_of_error {error : ReplayError} (h : openStream tree path = .error error) :
    (openAt tree path).value = .error error := by
  rw [openAt, h]
  rfl

theorem openStream_of_lookup {node : Node} (hl : tree.lookup path = .ok node)
    (hn : ∀ fault, node ≠ .locked fault) :
    openStream tree path =
      if isCompressed (Utf8.encode path) then
        match unpackNode? node with
        | some unpacked => .ok unpacked.deliveries
        | none => .error (.cannotDecompress path .missingHeader)
      else .ok (deliveriesOf node) := by
  rw [openStream, hl]
  cases node with
  | locked fault => exact absurd rfl (hn fault)
  | _ => rfl

theorem openStream_headless {node : Node} (hl : tree.lookup path = .ok node)
    (hn : ∀ fault, node ≠ .locked fault) (hc : isCompressed (Utf8.encode path) = true)
    (hu : unpackNode? node = none) :
    openStream tree path = .error (.cannotDecompress path .missingHeader) := by
  rw [openStream_of_lookup hl hn, if_pos hc, hu]

/-- A stream is refused where there is nothing that can be opened, or nothing that starts like a
compressed capture. -/
theorem Opens.of_error {error : ReplayError} (h : openStream tree path = .error error) :
    Opens tree path (.error error) := by
  cases hl : tree.lookup path with
  | error fault =>
    rw [openStream, hl] at h
    cases h
    exact .missing hl
  | ok node =>
    by_cases hn : ∃ fault, node = .locked fault
    · obtain ⟨fault, rfl⟩ := hn
      rw [openStream, hl] at h
      cases h
      exact .locked hl
    · have hn (fault : Fault) : node ≠ .locked fault := fun hlocked => hn ⟨fault, hlocked⟩
      rw [openStream_of_lookup hl hn] at h
      split at h
      · next hc =>
        cases hu : unpackNode? node with
        | some unpacked =>
          rw [hu] at h
          cases h
        | none =>
          rw [hu] at h
          cases h
          exact .headless hl hn hc hu
      · cases h

/-- **Opening a capture comes to one of these things.** -/
theorem openAt_iff {result : Except ReplayError Source} :
    (openAt tree path).value = result ↔ Opens tree path result := by
  constructor
  · rintro rfl
    cases ho : openStream tree path with
    | error error =>
      rw [openAt_of_error ho]
      exact .of_error ho
    | ok deliveries =>
      rcases hr : Framing.readRecord deliveries with ⟨reading, rest⟩
      rw [openAt_eq ho]
      cases reading with
      | fault fault =>
        rw [onStream_of_error (advance_of_fault hr)]
        exact .unreadable ho hr
      | ended discarded =>
        rw [onStream_of_ok (advance_of_ended hr)]
        exact .empty ho hr
      | record raw =>
        rw [onStream_of_ok (advance_of_record hr)]
        exact .filled ho hr
  · intro h
    cases h with
    | missing hl => exact openAt_of_error (by rw [openStream, hl])
    | locked hl => exact openAt_of_error (by rw [openStream, hl])
    | headless hl hn hc hu => exact openAt_of_error (openStream_headless hl hn hc hu)
    | unreadable ho hr => rw [openAt_eq ho, onStream_of_error (advance_of_fault hr)]
    | empty ho hr => rw [openAt_eq ho, onStream_of_ok (advance_of_ended hr)]
    | filled ho hr => rw [openAt_eq ho, onStream_of_ok (advance_of_record hr)]

end Source

/-- What opening what a search has found comes to: all its files are opened, directories being
passed over, or the first thing that cannot be opened is the error, whatever comes after it. A
directory that the search could not list is one of these. -/
inductive OpensAll (tree : FileTree) :
    List Glob.Finding → Except ReplayError (List Source) → Prop
  | all {paths : List String} {sources : List Source} :
      List.Forall₂ (fun path source => Source.Opens tree path (.ok source))
        (tree.filesAmong paths) sources →
      OpensAll tree (paths.map .path) (.ok sources)
  | refused {front : List String} {rest : List Glob.Finding} {path : String} {error : ReplayError} :
      (∀ other ∈ tree.filesAmong front, ∃ source, Source.Opens tree other (.ok source)) →
      tree.isDirectory path = false → Source.Opens tree path (.error error) →
      OpensAll tree (front.map .path ++ .path path :: rest) (.error error)
  | unlisted {front : List String} {rest : List Glob.Finding} {path : String} {fault : Fault} :
      (∀ other ∈ tree.filesAmong front, ∃ source, Source.Opens tree other (.ok source)) →
      OpensAll tree (front.map .path ++ .unlisted path fault :: rest)
        (.error (.cannotOpen path (.unlisted path fault)))

/-- What a pattern comes to, by the outcome of its search. -/
inductive OpensFound (tree : FileTree) (pattern : String) :
    Except Glob.PatternError (List Glob.Finding) → Except ReplayError (List Source) → Prop
  | invalid {cause : Glob.PatternError} :
      OpensFound tree pattern (.error cause) (.error (.invalidPattern pattern cause))
  | refused {findings : List Glob.Finding} {error : ReplayError} :
      OpensAll tree findings (.error error) →
      OpensFound tree pattern (.ok findings) (.error error)
  | none {paths : List String} : tree.filesAmong paths = [] →
      OpensFound tree pattern (.ok (paths.map .path)) (.error (.noSources pattern))
  | opened {paths : List String} {sources : List Source} : tree.filesAmong paths ≠ [] →
      List.Forall₂ (fun path source => Source.Opens tree path (.ok source))
        (tree.filesAmong paths) sources →
      OpensFound tree pattern (.ok (paths.map .path)) (.ok sources)

/-- What resolving a pattern comes to. -/
def Resolved (tree : FileTree) (pattern : String) (result : Except ReplayError (List Source)) :
    Prop :=
  OpensFound tree pattern (Glob.search tree pattern) result

variable {tree : FileTree} {pattern : String} {findings : List Glob.Finding} {paths : List String}
  {found : Except Glob.PatternError (List Glob.Finding)}

theorem FileTree.filesAmong_cons_directory {path : String} (hd : tree.isDirectory path = true)
    (paths : List String) : tree.filesAmong (path :: paths) = tree.filesAmong paths :=
  List.filter_cons_of_neg (by simp [hd])

theorem FileTree.filesAmong_cons_file {path : String} (hd : ¬ tree.isDirectory path = true)
    (paths : List String) : tree.filesAmong (path :: paths) = path :: tree.filesAmong paths :=
  List.filter_cons_of_pos (by simp [hd])

theorem openSources_of_error {path : String} {error : ReplayError}
    (hd : ¬ tree.isDirectory path = true) (hs : (Source.openAt tree path).value = .error error) :
    (openSources tree (.path path :: findings)).value = .error error := by
  rw [openSources, if_neg hd]
  simp only [Logged.value_bind, hs]
  rfl

theorem openSources_cons_error {path : String} {source : Source} {error : ReplayError}
    (hd : ¬ tree.isDirectory path = true) (hs : (Source.openAt tree path).value = .ok source)
    (ho : (openSources tree findings).value = .error error) :
    (openSources tree (.path path :: findings)).value = .error error := by
  rw [openSources, if_neg hd]
  simp only [Logged.value_bind, hs, ho]
  rfl

theorem OpensAll.skip {path : String} {result : Except ReplayError (List Source)}
    (hd : tree.isDirectory path = true) (h : OpensAll tree findings result) :
    OpensAll tree (.path path :: findings) result := by
  cases h with
  | @all paths _ h =>
    exact @OpensAll.all _ (path :: paths) _ (by rwa [FileTree.filesAmong_cons_directory hd])
  | @refused front _ _ _ hfront hn herror =>
    exact @OpensAll.refused _ (path :: front) _ _ _
      (by rwa [FileTree.filesAmong_cons_directory hd]) hn herror
  | @unlisted front _ _ _ hfront =>
    exact @OpensAll.unlisted _ (path :: front) _ _ _
      (by rwa [FileTree.filesAmong_cons_directory hd])

theorem OpensAll.cons {path : String} {source : Source} {result : Except ReplayError (List Source)}
    (hd : ¬ tree.isDirectory path = true) (hs : Source.Opens tree path (.ok source))
    (h : OpensAll tree findings result) :
    OpensAll tree (.path path :: findings) (result.map (source :: ·)) := by
  have hmore {front : List String}
      (hfront : ∀ other ∈ tree.filesAmong front, ∃ source, Source.Opens tree other (.ok source)) :
      ∀ other ∈ tree.filesAmong (path :: front),
        ∃ source, Source.Opens tree other (.ok source) := by
    rw [FileTree.filesAmong_cons_file hd]
    exact List.forall_mem_cons.mpr ⟨⟨source, hs⟩, hfront⟩
  cases h with
  | @all paths _ h =>
    refine @OpensAll.all _ (path :: paths) _ ?_
    rw [FileTree.filesAmong_cons_file hd]
    exact .cons hs h
  | @refused front _ _ _ hfront hn herror =>
    exact @OpensAll.refused _ (path :: front) _ _ _ (hmore hfront) hn herror
  | @unlisted front _ _ _ hfront =>
    exact @OpensAll.unlisted _ (path :: front) _ _ _ (hmore hfront)

theorem opensAll_openSources (tree : FileTree) (findings : List Glob.Finding) :
    OpensAll tree findings (openSources tree findings).value := by
  induction findings with
  | nil => exact @OpensAll.all _ [] _ .nil
  | cons finding findings ih =>
    cases finding with
    | unlisted path fault => exact @OpensAll.unlisted _ [] _ _ _ (fun _ h => nomatch h)
    | path path =>
      by_cases hd : tree.isDirectory path = true
      · rw [openSources, if_pos hd]
        exact ih.skip hd
      · cases hs : (Source.openAt tree path).value with
        | error error =>
          rw [openSources_of_error hd hs]
          exact @OpensAll.refused _ [] _ _ _ (fun _ h => nomatch h) (Bool.not_eq_true _ ▸ hd)
            (Source.openAt_iff.mp hs)
        | ok source =>
          have hcons := ih.cons hd (Source.openAt_iff.mp hs)
          cases ho : (openSources tree findings).value with
          | error error =>
            rw [openSources_cons_error hd hs ho]
            rw [ho] at hcons
            exact hcons
          | ok sources =>
            rw [openSources_cons hd hs ho]
            rw [ho] at hcons
            exact hcons

theorem openSources_of_front {front : List String} {error : ReplayError}
    (hfront : ∀ other ∈ tree.filesAmong front, ∃ source, Source.Opens tree other (.ok source))
    (herror : (openSources tree findings).value = .error error) :
    (openSources tree (front.map .path ++ findings)).value = .error error := by
  induction front with
  | nil => exact herror
  | cons path front ih =>
    rw [List.map_cons, List.cons_append]
    by_cases hd : tree.isDirectory path = true
    · rw [FileTree.filesAmong_cons_directory hd] at hfront
      rw [openSources, if_pos hd]
      exact ih hfront
    · rw [FileTree.filesAmong_cons_file hd] at hfront
      obtain ⟨⟨source, hs⟩, hrest⟩ := List.forall_mem_cons.mp hfront
      exact openSources_cons_error hd (Source.openAt_iff.mpr hs) (ih hrest)

/-- **What a search has found is opened in order up to the first thing that cannot be.** -/
theorem openSources_iff {result : Except ReplayError (List Source)} :
    (openSources tree findings).value = result ↔ OpensAll tree findings result := by
  constructor
  · rintro rfl
    exact opensAll_openSources tree findings
  · intro h
    cases h with
    | all h => exact openSources_of_opened (h.imp fun _ _ hs => Source.openAt_iff.mpr hs)
    | refused hfront hn herror =>
      refine openSources_of_front hfront (openSources_of_error ?_ (Source.openAt_iff.mpr herror))
      rw [hn]
      exact Bool.false_ne_true
    | unlisted hfront => exact openSources_of_front hfront rfl

/-! ## Patterns -/

theorem openFound_of_refused {error : ReplayError}
    (ho : (openSources tree findings).value = .error error) :
    (openFound tree pattern (.ok findings)).value = .error error := by
  simp only [openFound, Logged.value_bind, ho]
  rfl

theorem openFound_of_none (ho : (openSources tree findings).value = .ok []) :
    (openFound tree pattern (.ok findings)).value = .error (.noSources pattern) := by
  simp only [openFound, Logged.value_bind, ho]
  rfl

/-- **What was found for a pattern comes to one of these things.** -/
theorem openFound_iff {result : Except ReplayError (List Source)} :
    (openFound tree pattern found).value = result ↔ OpensFound tree pattern found result := by
  constructor
  · rintro rfl
    cases found with
    | error cause => exact .invalid
    | ok findings =>
      have hopens := opensAll_openSources tree findings
      cases ho : (openSources tree findings).value with
      | error error =>
        rw [ho] at hopens
        rw [openFound_of_refused ho]
        exact .refused hopens
      | ok sources =>
        rw [ho] at hopens
        cases hopens with
        | all h =>
          cases sources with
          | nil =>
            rw [openFound_of_none ho]
            exact .none (List.forall₂_nil_right_iff.mp h)
          | cons source sources =>
            rw [openFound_of_openSources ho (List.cons_ne_nil _ _)]
            refine .opened (fun hnil => ?_) h
            rw [hnil] at h
            cases h
  · intro h
    cases h with
    | invalid => rfl
    | refused ho => exact openFound_of_refused (openSources_iff.mpr ho)
    | none hnil =>
      refine openFound_of_none (openSources_iff.mpr (.all ?_))
      rw [hnil]
      exact .nil
    | opened hne h =>
      refine openFound_of_openSources (openSources_iff.mpr (.all h)) fun hnil => hne ?_
      rw [hnil] at h
      exact List.forall₂_nil_right_iff.mp h

theorem resolveSources_iff {result : Except ReplayError (List Source)} :
    (resolveSources tree pattern).value = result ↔ Resolved tree pattern result :=
  openFound_iff

theorem Resolved.of_search {result : Except ReplayError (List Source)}
    (hp : Glob.search tree pattern = found) (h : OpensFound tree pattern found result) :
    Resolved tree pattern result := by
  rw [Resolved, hp]
  exact h

theorem exists_forall₂_of_forall {α β : Type} {R : α → β → Prop} {xs : List α}
    (h : ∀ x ∈ xs, ∃ y, R x y) : ∃ ys, List.Forall₂ R xs ys := by
  induction xs with
  | nil => exact ⟨[], .nil⟩
  | cons x xs ih =>
    obtain ⟨⟨y, hy⟩, hxs⟩ := List.forall_mem_cons.mp h
    obtain ⟨ys, hys⟩ := ih hxs
    exact ⟨y :: ys, .cons hy hys⟩

/-- Captures are opened just if the pattern is one, its search could list all directories in its way,
and it has led to files that can all be opened. -/
theorem exists_sources_iff :
    (∃ sources, (openFound tree pattern found).value = .ok sources) ↔
      ∃ paths : List String, found = .ok (paths.map .path) ∧ tree.filesAmong paths ≠ [] ∧
        ∀ path ∈ tree.filesAmong paths, ∃ source, Source.Opens tree path (.ok source) := by
  constructor
  · rintro ⟨sources, hs⟩
    cases openFound_iff.mp hs with
    | opened hne h =>
      refine ⟨_, rfl, hne, fun path hmem => ?_⟩
      obtain ⟨source, -, hsource⟩ := forall₂_exists_of_mem_right h.flip hmem
      exact ⟨source, hsource⟩
  · rintro ⟨paths, rfl, hne, hall⟩
    obtain ⟨sources, hsources⟩ := exists_forall₂_of_forall hall
    exact ⟨sources, openFound_iff.mpr (.opened hne hsources)⟩

end TrafficReplay
