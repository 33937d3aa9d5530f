/-
# Captures in place of each other

A replay learns about its captures from its sources alone, so replays whose sources are alike give
the same reads, with the same waits, and the same summary (`Session.Alike.pacedReads`); a replay
that loops does so for as long as the captures that it opens anew are alike too. A compressed
capture, of however many members, and a plain one with the same contents can stand in for each other
(`Gzip.members_interchange`).
-/
import TrafficReplay.Proofs.Gzip.Members
import TrafficReplay.Proofs.Replay.Emission
import TrafficReplay.Proofs.Replay.Turns
import TrafficReplay.Proofs.Source.Alike

namespace TrafficReplay

/-- What the patterns stand for can be opened, and gives sources that are alike. -/
def ResolveAlike (tree : FileTree) (pattern : String) (tree' : FileTree) (pattern' : String) :
    Prop :=
  ∃ sources others, (resolveSources tree pattern).value = .ok sources ∧
    (resolveSources tree' pattern').value = .ok others ∧ List.Forall₂ Source.Alike sources others

theorem resolveAlike_of_captures {tree tree' : FileTree} {pattern pattern' : String}
    {captures : List Bytes} (h : Captures tree pattern captures)
    (h' : Captures tree' pattern' captures) : ResolveAlike tree pattern tree' pattern' := by
  obtain ⟨sources, hs, ho⟩ := resolveSources_of_captures h
  obtain ⟨others, hs', ho'⟩ := resolveSources_of_captures h'
  exact ⟨sources, others, hs, hs', forall₂_alike ho ho'⟩

section Sources

variable {sources others : List Source}

theorem length_open_alike (h : List.Forall₂ Source.Alike sources others) :
    (sources.filter Source.isOpen).length = (others.filter Source.isOpen).length := by
  induction h with
  | nil => rfl
  | @cons source other sources others hs _ ih =>
    have hopen : source.isOpen = other.isOpen := congrArg Source.View.isOpen hs.view_eq
    rw [List.filter_cons, List.filter_cons, hopen]
    split
    · exact congrArg (· + 1) ih
    · exact ih

namespace Merge

theorem selectFrom_alike (h : List.Forall₂ Source.Alike sources others) (best : Option Candidate)
    (index : Nat) : selectFrom best index sources = selectFrom best index others := by
  induction h generalizing best index with
  | nil => rfl
  | cons hs _ ih => simp only [selectFrom, hs.lookahead_eq, ih]

theorem select_alike (h : List.Forall₂ Source.Alike sources others) :
    select sources = select others :=
  selectFrom_alike h none 0

end Merge

end Sources

/-- Pumps of replays of these patterns that have come equally far over sources that are alike. -/
structure Pump.Alike (pattern pattern' : String) (loops : Bool) (pump other : Pump) : Prop where
  pattern_eq : pump.pattern = pattern
  pattern_eq' : other.pattern = pattern'
  looping : pump.looping = loops
  looping' : other.looping = loops
  pacing : pump.pacing = other.pacing
  emitted : pump.emitted = other.emitted
  restarts : pump.restarts = other.restarts
  sources : List.Forall₂ Source.Alike pump.sources other.sources

/-- The same for moves of pumps: the pumps are alike behind them, and about the same. -/
structure MovedAlike (pattern pattern' : String) (loops : Bool) (state state' : Pump × Phase) :
    Prop where
  pump : state.1.Alike pattern pattern' loops state'.1
  phase : state.2 = state'.2

/-- Sessions whose pumps are alike and about the same. -/
structure Session.Alike (pattern pattern' : String) (loops : Bool) (session other : Session) :
    Prop where
  pump : session.pump.Alike pattern pattern' loops other.pump
  phase : session.phase = other.phase
  collected : session.collected = other.collected

section Alike

variable {pattern pattern' : String} {loops : Bool} {tree tree' : FileTree}

namespace Pump

variable {pump other : Pump}

theorem Alike.closeAll (h : pump.Alike pattern pattern' loops other) :
    pump.closeAll.Alike pattern pattern' loops other.closeAll := by
  refine { h with sources := ?_ }
  exact List.forall₂_map_left_iff.mpr <| List.forall₂_map_right_iff.mpr <|
    h.sources.imp fun _ _ hs => hs.close

theorem Alike.renew (h : pump.Alike pattern pattern' loops other) {sources others : List Source}
    (hs : List.Forall₂ Source.Alike sources others) :
    (pump.renew sources).Alike pattern pattern' loops (other.renew others) :=
  { h with
    pacing := congrArg Pacing.reset h.pacing
    restarts := congrArg (· + 1) h.restarts
    sources := hs }

theorem Alike.set (h : pump.Alike pattern pattern' loops other) {source source' : Source}
    (hs : source.Alike source') (index : Nat) :
    Alike pattern pattern' loops { pump with sources := pump.sources.set index source }
      { other with sources := other.sources.set index source' } :=
  { h with sources := forall₂_set h.sources hs index }

theorem Alike.finish (h : pump.Alike pattern pattern' loops other) (reason : StopReason) :
    MovedAlike pattern pattern' loops (pump.finish reason).value (other.finish reason).value :=
  ⟨h.closeAll, rfl⟩

theorem Alike.take (h : pump.Alike pattern pattern' loops other) (index : Nat) :
    MovedAlike pattern pattern' loops (pump.take index) (other.take index) := by
  unfold Pump.take
  rcases forall₂_getElem? h.sources index with ⟨hs, hs'⟩ | ⟨source, source', hs, hs', ha⟩
  · rw [hs, hs']
    exact ⟨h, rfl⟩
  · simp only [hs, hs', Source.take, ha.lookahead_eq, h.pacing]
    cases source'.lookahead with
    | none => exact ⟨h, rfl⟩
    | some record => exact ⟨{ h.set ha.take.2 index with pacing := rfl }, rfl⟩

theorem Alike.handOver (h : pump.Alike pattern pattern' loops other) (offer : Offer) :
    MovedAlike pattern pattern' loops (pump.handOver offer).value
      (other.handOver offer).value := by
  have hcounted : Alike pattern pattern' loops { pump with emitted := pump.emitted + 1 }
      { other with emitted := other.emitted + 1 } :=
    { h with emitted := congrArg (· + 1) h.emitted }
  unfold Pump.handOver
  dsimp only
  rcases forall₂_getElem? h.sources offer.index with ⟨hs, hs'⟩ | ⟨source, source', hs, hs', ha⟩
  · rw [hs, hs']
    exact ⟨hcounted, rfl⟩
  · obtain ⟨next, next', hn, hn', halike⟩ := ha.advance
    rw [hs, hs']
    simp only [Logged.value_bind, hn, hn']
    exact ⟨hcounted.set halike offer.index, rfl⟩

theorem Alike.restart (h : pump.Alike pattern pattern' loops other)
    (hr : ResolveAlike tree pattern tree' pattern') :
    MovedAlike pattern pattern' loops (pump.restart tree).value (other.restart tree').value := by
  obtain ⟨sources, others, hs, hs', ha⟩ := hr
  have hrenewed := h.renew ha
  unfold Pump.restart
  rw [h.pattern_eq, h.pattern_eq']
  simp only [Logged.value_bind, hs, hs', Merge.select_alike ha]
  cases (Merge.select others).isSome with
  | true => exact ⟨hrenewed, rfl⟩
  | false => exact hrenewed.finish .exhausted

theorem Alike.step (h : pump.Alike pattern pattern' loops other)
    (hr : loops = true → ResolveAlike tree pattern tree' pattern') :
    MovedAlike pattern pattern' loops (pump.step tree).value (other.step tree').value := by
  unfold Pump.step
  rw [Merge.select_alike h.sources, h.looping, h.looping']
  cases Merge.select other.sources with
  | some index => exact h.take index
  | none =>
    cases loops with
    | true => exact h.restart (hr rfl)
    | false => exact h.finish .exhausted

end Pump

namespace Session

theorem settle_alike {state state' : Pump × Phase}
    (h : MovedAlike pattern pattern' loops state state')
    (hr : loops = true → ResolveAlike tree pattern tree' pattern') :
    MovedAlike pattern pattern' loops (settle tree state).value (settle tree' state').value := by
  obtain ⟨pump, phase⟩ := state
  obtain ⟨other, phase'⟩ := state'
  obtain ⟨hpump, rfl⟩ : pump.Alike pattern pattern' loops other ∧ phase = phase' :=
    ⟨h.pump, h.phase⟩
  cases phase with
  | waiting offer => exact ⟨hpump, rfl⟩
  | holding offer => exact ⟨hpump, rfl⟩
  | failing error => exact ⟨hpump, rfl⟩
  | ended reason => exact ⟨hpump, rfl⟩
  | ready =>
    have hstep := hpump.step hr
    rcases hp : (pump.step tree).value with ⟨pump, phase⟩
    rcases hp' : (other.step tree').value with ⟨other, phase'⟩
    simp only [settle, Logged.value_bind, hp, hp']
    rw [hp, hp'] at hstep
    obtain ⟨hpump, rfl⟩ : pump.Alike pattern pattern' loops other ∧ phase = phase' :=
      ⟨hstep.pump, hstep.phase⟩
    cases phase with
    | waiting offer => exact ⟨hpump, rfl⟩
    | holding offer => exact ⟨hpump, rfl⟩
    | failing error => exact ⟨hpump, rfl⟩
    | ended reason => exact ⟨hpump, rfl⟩
    | ready =>
      have hstep := hpump.step hr
      exact ⟨hstep.pump, congrArg elapse hstep.phase⟩

variable {session other : Session}

theorem Alike.moved (h : session.Alike pattern pattern' loops other) {state state' : Pump × Phase}
    (hm : MovedAlike pattern pattern' loops state state') :
    (session.moved state).Alike pattern pattern' loops (other.moved state') :=
  ⟨hm.pump, hm.phase, h.collected⟩

theorem Alike.read (h : session.Alike pattern pattern' loops other)
    (hr : loops = true → ResolveAlike tree pattern tree' pattern') :
    (session.read tree).value.1 = (other.read tree').value.1 ∧
      (session.read tree).value.2.Alike pattern pattern' loops (other.read tree').value.2 := by
  unfold Session.read
  rw [← h.phase]
  cases session.phase with
  | waiting offer => exact ⟨rfl, h.moved (settle_alike (h.pump.handOver offer) hr)⟩
  | holding offer => exact ⟨rfl, h.moved (settle_alike (h.pump.handOver offer) hr)⟩
  | failing error => exact ⟨rfl, h.moved (h.pump.finish _)⟩
  | ready => exact ⟨rfl, h⟩
  | ended reason => exact ⟨rfl, h⟩

theorem Alike.wait (h : session.Alike pattern pattern' loops other) :
    session.wait.1 = other.wait.1 := by
  have hsummary (reason : StopReason) :
      session.pump.summary reason = other.pump.summary reason := by
    simp only [Pump.summary, h.pump.emitted, h.pump.restarts, length_open_alike h.pump.sources]
  unfold Session.wait
  rw [← h.phase, ← h.collected]
  cases session.phase with
  | ended reason =>
    cases session.collected with
    | true => rfl
    | false => exact congrArg some (hsummary reason)
  | waiting offer => rfl
  | holding offer => rfl
  | failing error => rfl
  | ready => rfl

/-- **Sessions that are alike give the same reads**, with the same waits in front of them, and the
same summary after them. Whatever else happens to the files between the reads, a session that loops
has to find captures that are alike. -/
theorem Alike.pacedReads (h : session.Alike pattern pattern' loops other)
    {moments moments' : List FileTree}
    (hr : List.Forall₂ (fun tree tree' => loops = true → ResolveAlike tree pattern tree' pattern')
      moments moments') :
    session.pacedReads moments = other.pacedReads moments' ∧
      (session.reads moments).2.Alike pattern pattern' loops (other.reads moments').2 := by
  induction hr generalizing session other with
  | nil => exact ⟨rfl, h⟩
  | cons hhere _ ih =>
    obtain ⟨hresult, hnext⟩ := h.read hhere
    obtain ⟨hpaced, hlast⟩ := ih hnext
    refine ⟨?_, hlast⟩
    simp only [Session.pacedReads, h.phase, hresult, hpaced]

theorem exists_start_alike {settings : Settings} (hv : settings.validate = .ok ())
    (hr : ResolveAlike tree pattern tree' pattern') :
    ∃ session other, (start tree pattern settings).value = .ok session ∧
      (start tree' pattern' settings).value = .ok other ∧
      session.Alike pattern pattern' settings.looping other := by
  obtain ⟨sources, others, hs, hs', ha⟩ := hr
  obtain ⟨-, hstart⟩ := start_of_resolve hv hs rfl
  obtain ⟨-, hstart'⟩ := start_of_resolve hv hs' rfl
  refine ⟨_, _, hstart, hstart', ?_⟩
  have hpump : Pump.Alike pattern pattern' settings.looping
      ⟨pattern, settings.looping, sources, .new settings.speed, 0, 0⟩
      ⟨pattern', settings.looping, others, .new settings.speed, 0, 0⟩ :=
    ⟨rfl, rfl, rfl, rfl, rfl, rfl, rfl, ha⟩
  have hready : MovedAlike pattern pattern' settings.looping
      (⟨pattern, settings.looping, sources, .new settings.speed, 0, 0⟩, .ready)
      (⟨pattern', settings.looping, others, .new settings.speed, 0, 0⟩, .ready) := ⟨hpump, rfl⟩
  have hsettled := @settle_alike _ _ _ tree tree' _ _ hready fun _ => ⟨sources, others, hs, hs', ha⟩
  exact ⟨hsettled.pump, hsettled.phase, rfl⟩

end Session

end Alike

/-- At this moment the pattern matches this file and no other, and the file holds this. -/
structure FoundAlone (tree : FileTree) (pattern path : String) (contents : Bytes) : Prop where
  matchesOnly : MatchesOnly tree pattern path
  lookup : tree.lookup path = .ok (.file contents)

/-- **A row of compressed members and a plain file with what they hold cannot be told apart.** Both
are opened, and the sources show the same at first and whatever they are asked for; so does a source
over any stream that gives these bytes, whether its portions are those of the members or not.
Replays of patterns that match these files alone start with the same settings and give the same
reads, with the same waits, and the same summary, and those that loop do so for as long as the files
stay. -/
theorem Gzip.members_interchange {members contents : List Bytes} (hne : members ≠ [])
    (hm : List.Forall₂ (fun member bytes => unpack? member = some ⟨bytes, none⟩) members contents)
    {tree tree' : FileTree} {path path' : String}
    (hl : tree.lookup path = .ok (.file members.flatten))
    (hc : Source.isCompressed (Utf8.encode path) = true)
    (hl' : tree'.lookup path' = .ok (.file contents.flatten))
    (hc' : Source.isCompressed (Utf8.encode path') = false) :
    ∃ source other, (Source.openAt tree path).value = .ok source ∧
      (Source.openAt tree' path').value = .ok other ∧
      source.view = other.view ∧ (∀ requests, source.story requests = other.story requests) ∧
      (∀ deliveries, Delivery.FaultFree deliveries →
        Delivery.contents deliveries = contents.flatten →
        ∃ next, (Source.advance ⟨path, some deliveries, none⟩).value = (.ok (), next) ∧
          next.view = other.view ∧ ∀ requests, next.story requests = other.story requests) ∧
      ∀ pattern pattern' settings, MatchesOnly tree pattern path →
        MatchesOnly tree' pattern' path' → Settings.validate settings = .ok () →
        ∃ session session', (Session.start tree pattern settings).value = .ok session ∧
          (Session.start tree' pattern' settings).value = .ok session' ∧
          ∀ moments moments', List.Forall₂ (fun now now' => settings.looping = true →
              FoundAlone now pattern path members.flatten ∧
                FoundAlone now' pattern' path' contents.flatten) moments moments' →
            session.pacedReads moments = session'.pacedReads moments' ∧
              (session.reads moments).2.wait.1 = (session'.reads moments').2.wait.1 := by
  have hu := unpack?_flatten hne hm
  have hr := Source.readable_of_compressed hl hc hu
  have hr' := Source.readable_of_plain hl' hc'
  obtain ⟨source, ho, -⟩ := hr.openAt
  obtain ⟨other, ho', -⟩ := hr'.openAt
  have hopened : source.Opened contents.flatten := ⟨tree, path, hr, ho⟩
  have hopened' : other.Opened contents.flatten := ⟨tree', path', hr', ho'⟩
  have halike := hopened.alike hopened'
  refine ⟨source, other, ho, ho', halike.view_eq, halike.story_eq, ?_, ?_⟩
  · intro deliveries hf hcontents
    obtain ⟨next, ha, hn⟩ := hopened.alike_advance hf hcontents path
    obtain ⟨next', ha', hn'⟩ := hopened'.alike_advance hf hcontents path
    rw [ha] at ha'
    cases ha'
    exact ⟨next, ha, hn'.view_eq.symm, fun requests => (hn'.story_eq requests).symm⟩
  · intro pattern pattern' settings hp hp' hv
    have hresolve (now now' : FileTree) (hs : FoundAlone now pattern path members.flatten)
        (hs' : FoundAlone now' pattern' path' contents.flatten) :
        ResolveAlike now pattern now' pattern' :=
      resolveAlike_of_captures
        (hs.matchesOnly.captures (Source.readable_of_compressed hs.lookup hc hu))
        (hs'.matchesOnly.captures (Source.readable_of_plain hs'.lookup hc'))
    obtain ⟨session, session', hstart, hstart', hsession⟩ :=
      Session.exists_start_alike hv (hresolve tree tree' ⟨hp, hl⟩ ⟨hp', hl'⟩)
    refine ⟨session, session', hstart, hstart', fun moments moments' hmoments => ?_⟩
    obtain ⟨hpaced, hlast⟩ := hsession.pacedReads <|
      hmoments.imp fun now now' h hloops => hresolve now now' (h hloops).1 (h hloops).2
    exact ⟨hpaced, hlast.wait⟩

def Gzip.storedMember (bytes : Bytes) : Bytes :=
  let check := (Checksum.crc32 bytes).toNat
  let number (n width : Nat) : Bytes :=
    (List.range width).map fun i => UInt8.ofNat (n / 256 ^ i % 256)
  [0x1F, 0x8B, 8, 0, 0, 0, 0, 0, 0, 0xFF] ++ 1 :: number bytes.length 2
    ++ number (0xFFFF - bytes.length) 2 ++ bytes ++ number check 4 ++ number bytes.length 4

/-- A capture in three pieces, the middle one empty, that is cut within a separator. -/
def piecesOfCapture : List Bytes :=
  [(captureOf ["1 a 1\n", "1 b 2\n"]).take 10, [], (captureOf ["1 a 1\n", "1 b 2\n"]).drop 10]

def filesAlike (compressed plain : Bytes) : FileTree :=
  ⟨.directory [("a.gz", .file compressed), ("b", .file plain)], []⟩

theorem matchesOnly_filesAlike (compressed plain : Bytes) :
    MatchesOnly (filesAlike compressed plain) "*.gz" "a.gz" ∧
      MatchesOnly (filesAlike compressed plain) "b" "b" := by
  have ha : (filesAlike compressed plain).isDirectory "a.gz" = false := by cbv
  have hb : (filesAlike compressed plain).isDirectory "b" = false := by cbv
  refine ⟨⟨["a.gz"], by cbv, ?_⟩, ⟨["b"], by cbv, ?_⟩⟩
  · rw [List.filter_cons_of_pos (by rw [ha]; rfl), List.filter_nil]
  · rw [List.filter_cons_of_pos (by rw [hb]; rfl), List.filter_nil]

/-- The capture compressed piece by piece and the plain one are replayed alike, again and again. -/
theorem Gzip.members_interchange_pieces :
    ∃ session session',
      (Session.start (filesAlike (piecesOfCapture.map storedMember).flatten piecesOfCapture.flatten)
        "*.gz" { looping := true }).value = .ok session ∧
      (Session.start (filesAlike (piecesOfCapture.map storedMember).flatten piecesOfCapture.flatten)
        "b" { looping := true }).value = .ok session' ∧
      ∀ n, session.pacedReads (List.replicate n
            (filesAlike (piecesOfCapture.map storedMember).flatten piecesOfCapture.flatten))
          = session'.pacedReads (List.replicate n
            (filesAlike (piecesOfCapture.map storedMember).flatten piecesOfCapture.flatten)) := by
  have hm : List.Forall₂ (fun member bytes => unpack? member = some ⟨bytes, none⟩)
      (piecesOfCapture.map storedMember) piecesOfCapture := by
    refine .cons ?_ (.cons ?_ (.cons ?_ .nil))
    · decide +kernel
    · decide +kernel
    · decide +kernel
  obtain ⟨hz, hp⟩ := matchesOnly_filesAlike (piecesOfCapture.map storedMember).flatten
    piecesOfCapture.flatten
  have hl : (filesAlike (piecesOfCapture.map storedMember).flatten
      piecesOfCapture.flatten).lookup "a.gz"
        = .ok (.file (piecesOfCapture.map storedMember).flatten) := by
    generalize (piecesOfCapture.map storedMember).flatten = compressed
    generalize piecesOfCapture.flatten = plain
    cbv
  have hl' : (filesAlike (piecesOfCapture.map storedMember).flatten
      piecesOfCapture.flatten).lookup "b" = .ok (.file piecesOfCapture.flatten) := by
    generalize (piecesOfCapture.map storedMember).flatten = compressed
    generalize piecesOfCapture.flatten = plain
    cbv
  obtain ⟨source, other, -, -, -, -, -, hreplay⟩ :=
    members_interchange (by decide) hm hl (by decide +kernel) hl' (by decide +kernel)
  obtain ⟨session, session', hstart, hstart', hsame⟩ :=
    hreplay "*.gz" "b" { looping := true } hz hp rfl
  refine ⟨session, session', hstart, hstart', fun n => (hsame _ _ ?_).1⟩
  induction n with
  | zero => exact .nil
  | succ n ih => exact .cons (fun _ => ⟨⟨hz, hl⟩, hp, hl'⟩) ih

end TrafficReplay
