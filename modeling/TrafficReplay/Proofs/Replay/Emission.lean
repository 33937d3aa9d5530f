/-
# What a replay emits

The records that a replay emits, as a whole, for captures that can all be read. They are those of
the captures, interleaved; they come in the order of the blocks; and a round is disordered in time
only where a capture is.
-/
import TrafficReplay.Proofs.Merge.Blocks
import TrafficReplay.Proofs.Merge.StableOrder
import TrafficReplay.Proofs.Replay.Reads

namespace TrafficReplay

theorem Record.map_bytes_ofCapture (capture : Bytes) :
    (Record.ofCapture capture).map Record.bytes = Framing.split capture := by
  rw [ofCapture, List.map_map]
  exact List.map_id _

theorem Merge.Loop.drained_captures {sources : List Source} {captures : List Bytes}
    {items : List (Nat × Record)}
    (h : Merge.Loop sources items) (ho : List.Forall₂ Source.Opened sources captures) :
    Merge.Drained Merge.Wins (captures.map Record.ofCapture) items :=
  h.drained (Merge.holding_of_opened ho)

def captureOf (texts : List String) : Bytes :=
  texts.flatMap fun text => Framing.frame (Utf8.encode text)

/-- The first of two captures, each in the order of its times but for a response. -/
def firstCapture : Bytes :=
  captureOf ["1 a 5\n", "2 a 0\n", "1 c 9\n"]

def secondCapture : Bytes :=
  captureOf ["2 z 8\n", "1 b 7\n", "2 b 8\n"]

def twoCaptures : FileTree :=
  ⟨.directory [("a", .file firstCapture), ("b", .file secondCapture)], []⟩

theorem length_firstCapture : (Record.ofCapture firstCapture).length = 3 := by
  decide +kernel

theorem length_secondCapture : (Record.ofCapture secondCapture).length = 3 := by
  decide +kernel

theorem captures_twoCaptures : Captures twoCaptures "*" [firstCapture, secondCapture] := by
  refine ⟨["a", "b"], by cbv, by decide, ?_⟩
  have ha : twoCaptures.isDirectory "a" = false := by cbv
  have hb : twoCaptures.isDirectory "b" = false := by cbv
  rw [List.filter_cons_of_pos (by rw [ha]; rfl), List.filter_cons_of_pos (by rw [hb]; rfl),
    List.filter_nil]
  exact .cons ⟨_, by cbv, by decide, rfl⟩ (.cons ⟨_, by cbv, by decide, rfl⟩ .nil)

section Start

variable {tree : FileTree} {pattern : String} {settings : Settings} {captures : List Bytes}

/-- **A replay interleaves its captures.** It emits what the loop of the merge gives over the opened
sources, whatever the waits: of each capture exactly its records, in order and byte for byte. The
pump comes to its end after one step for each record and a last one, and its summary counts them
all. -/
theorem Session.start_interleaves (hv : settings.validate = .ok ()) (hl : settings.looping = false)
    (hc : Captures tree pattern captures) :
    ∃ sources items session pump final,
      (resolveSources tree pattern).value = .ok sources ∧
      (Session.start tree pattern settings).value = .ok session ∧
      session.Delivers (items.map (·.2)) ∧
      (∀ others, Merge.Loop sources others ↔ others = items) ∧
      Merge.Interleaves items (captures.map Record.ofCapture) ∧
      (∀ i, (Merge.itemsOf i items).map Record.bytes = (captures.map Framing.split)[i]?.getD []) ∧
      items.length = (captures.map fun capture => (Framing.split capture).length).sum ∧
      (Pump.start tree pattern settings).value = .ok pump ∧
      Pump.Round pump ((Pacing.new settings.speed).offers items) final ∧
      (∀ tree, (final.step tree).value = (final.closeAll, .ended .exhausted)) ∧
      (∀ trees, items.length ≤ trees.length →
        (session.reads trees).2.wait.1 = some ⟨items.length, 0, .exhausted, 0⟩) := by
  obtain ⟨sources, items, pump, session, final, hs, ho, hloop, hpump, hround, hemitted, hrestarts,
    hend, hstart, hawaits⟩ := exists_start hv hl hc
  have hdrained := hloop.drained_captures ho
  have hdelivers := hawaits.delivers
  rw [Pacing.map_record_offers] at hdelivers
  refine ⟨sources, items, session, pump, final, hs, hstart, hdelivers,
    fun others => ⟨hloop.unique, fun h => h ▸ hloop⟩, hdrained.interleaves, ?_, ?_, hpump, hround,
    hend, ?_⟩
  · intro i
    rw [hdrained.interleaves i, List.getElem?_map, List.getElem?_map]
    cases captures[i]? with
    | none => rfl
    | some capture => exact Record.map_bytes_ofCapture capture
  · rw [hdrained.length, List.map_map]
    refine congrArg List.sum (List.map_congr_left fun capture _ => ?_)
    exact List.length_map _
  · intro trees hlen
    have hlast := (hawaits.reads trees).2
    rw [List.drop_of_length_le (by rw [Pacing.length_offers]; exact hlen)] at hlast
    rw [hlast.wait, hemitted, hrestarts]

/-- Of two captures with three records each, all six come out. -/
theorem Session.start_interleaves_two :
    ∃ items session, (Session.start twoCaptures "*" {}).value = .ok session ∧
      session.Delivers (items.map (·.2)) ∧
      (Merge.itemsOf 0 items).map Record.bytes = ["1 a 5\n", "2 a 0\n", "1 c 9\n"].map Utf8.encode ∧
      (Merge.itemsOf 1 items).map Record.bytes = ["2 z 8\n", "1 b 7\n", "2 b 8\n"].map Utf8.encode ∧
      items.length = 6 := by
  obtain ⟨sources, items, session, pump, final, -, hstart, hdelivers, -, -, hbytes, hlength, -⟩ :=
    @Session.start_interleaves twoCaptures "*" {} _ rfl rfl captures_twoCaptures
  refine ⟨items, session, hstart, hdelivers, (hbytes 0).trans ?_, (hbytes 1).trans ?_,
    hlength.trans ?_⟩
  · decide +kernel
  · decide +kernel
  · decide +kernel

/-- **A replay emits whole blocks**, behind the leading responses of all captures; where the records
of each capture that are no responses are in the order of their times, the blocks come stably
sorted. -/
theorem Session.start_in_blocks (hv : settings.validate = .ok ()) (hl : settings.looping = false)
    (hc : Captures tree pattern captures) :
    ∃ session order, (Session.start tree pattern settings).value = .ok session ∧
      session.Delivers
        ((captures.map Record.ofCapture).flatMap leading
          ++ (order.map (·.2)).flatMap Block.records) ∧
      Merge.Interleaves order ((captures.map Record.ofCapture).map blocks) ∧
      ((∀ records ∈ captures.map Record.ofCapture,
          (records.filter (·.kind ≠ .response)).Pairwise (·.timestamp ≤ ·.timestamp)) →
        order.map (·.2)
          = ((captures.map Record.ofCapture).flatMap blocks).mergeSort
            (Merge.noLater Block.time)) := by
  obtain ⟨sources, items, pump, session, final, -, ho, hloop, -, -, -, -, -, hstart, hawaits⟩ :=
    exists_start hv hl hc
  obtain ⟨order, hdrained, hitems⟩ := (hloop.drained_captures ho).blocks
  have hdelivers := hawaits.delivers
  rw [Pacing.map_record_offers, hitems] at hdelivers
  refine ⟨session, order, hstart, ?_, hdrained.interleaves, fun hsorted => ?_⟩
  · have hrecords : (order.map (·.2)).flatMap Block.records = order.flatMap (·.2.records) :=
      List.flatMap_map ..
    rwa [hrecords]
  rw [List.flatMap_def]
  refine hdrained.map_snd_eq_mergeSort fun queue hmem => ?_
  obtain ⟨records, hrecords, rfl⟩ := List.mem_map.mp hmem
  have hopeners := hsorted records hrecords
  rw [← map_opener_blocks, List.pairwise_map] at hopeners
  exact hopeners

/-- The response in front of the second capture goes first, and every other one stays with its
request. -/
theorem Session.start_in_blocks_two :
    ∃ session, (Session.start twoCaptures "*" {}).value = .ok session ∧
      session.Delivers (["2 z 8\n", "1 a 5\n", "2 a 0\n", "1 b 7\n", "2 b 8\n", "1 c 9\n"].map
        fun text => Record.ofBytes (Utf8.encode text)) := by
  obtain ⟨session, order, hstart, hdelivers, -, hsort⟩ :=
    @Session.start_in_blocks twoCaptures "*" {} _ rfl rfl captures_twoCaptures
  refine ⟨session, hstart, ?_⟩
  have hblocks : ([firstCapture, secondCapture].map Record.ofCapture).flatMap blocks
      = [⟨Record.ofBytes (Utf8.encode "1 a 5\n"), [Record.ofBytes (Utf8.encode "2 a 0\n")]⟩,
        ⟨Record.ofBytes (Utf8.encode "1 c 9\n"), []⟩,
        ⟨Record.ofBytes (Utf8.encode "1 b 7\n"), [Record.ofBytes (Utf8.encode "2 b 8\n")]⟩] := by
    decide +kernel
  rw [hsort (by decide +kernel), hblocks, Merge.mergeSort_cons_eq, Merge.mergeSort_cons_eq,
    Merge.mergeSort_cons_eq, List.mergeSort_nil] at hdelivers
  exact (congrArg session.Delivers (by decide +kernel)).mp hdelivers

end Start

section Round

variable {pump final : Pump} {offers : List Offer} {captures : List Bytes}

theorem getElem?_map_entry {n : Nat} {offer : Offer} (h : offers[n]? = some offer) :
    (offers.map Offer.entry)[n]? = some (offer.index, offer.record) := by
  rw [List.getElem?_map, h]
  rfl

/-- The place in its capture of the record that is offered at place `n`, the source being the one at
`i`. -/
def placeInCapture (offers : List Offer) (i n : Nat) : Nat :=
  Merge.placeIn (offers.map Offer.entry) i n

theorem Pump.Round.exists_capture (h : Pump.Round pump offers final)
    (ho : List.Forall₂ Source.Opened pump.sources captures) {n : Nat} {offer : Offer}
    (hn : offers[n]? = some offer) :
    ∃ capture, captures[offer.index]? = some capture ∧
      (Record.ofCapture capture)[placeInCapture offers offer.index n]? = some offer.record := by
  have hplace := Merge.getElem?_placeIn (getElem?_map_entry hn)
  rw [(h.loop.drained_captures ho).interleaves offer.index, List.getElem?_map] at hplace
  cases hcapture : captures[offer.index]? with
  | none =>
    rw [hcapture] at hplace
    cases hplace
  | some capture =>
    rw [hcapture] at hplace
    exact ⟨capture, rfl, hplace⟩

/-- Between a newer record, which is no response, and one that comes behind it there is one of the
latter's own capture, no response either and at least as new; it may be the newer one itself. -/
theorem Pump.Round.exists_between (h : Pump.Round pump offers final)
    (ho : List.Forall₂ Source.Opened pump.sources captures) {m n : Nat} {newer older : Offer}
    (hm : offers[m]? = some newer) (hn : offers[n]? = some older) (hlt : m < n)
    (hk : newer.record.kind ≠ .response) (ht : older.record.timestamp < newer.record.timestamp)
    {capture : Bytes}
    (hcapture : captures[older.index]? = some capture) :
    ∃ k between, m ≤ k ∧ k < n ∧ offers[k]? = some between ∧ between.index = older.index ∧
      between.record.kind ≠ .response ∧ newer.record.timestamp ≤ between.record.timestamp ∧
      placeInCapture offers older.index k < placeInCapture offers older.index n ∧
      (Record.ofCapture capture)[placeInCapture offers older.index k]? = some between.record := by
  obtain ⟨k, record, hmk, hkn, hrecord, hkind, htime⟩ := (h.loop.drained_captures ho).exists_newer
    (getElem?_map_entry hm) (getElem?_map_entry hn) hlt hk ht
  have hplace := Merge.placeIn_lt hrecord hkn
  rw [List.getElem?_map] at hrecord
  obtain ⟨between, hbetween, hentry⟩ := Option.map_eq_some_iff.mp hrecord
  obtain ⟨hindex, rfl⟩ := Prod.mk.inj hentry
  obtain ⟨capture', hcapture', hstands⟩ := h.exists_capture ho hbetween
  rw [hindex] at hcapture' hstands
  rw [hcapture] at hcapture'
  cases hcapture'
  exact ⟨k, between, hmk, hkn, hbetween, hindex, hkind, htime, hplace, hstands⟩

/-- **A round is disordered only where a capture is.** A record that comes behind a newer one, this
being no response, stands in its own capture behind a record that is no response either, is at least
as new, and is the newer one itself or comes behind it. So captures in the order of their times make
rounds in which nothing behind a record that is no response is older than it. -/
theorem Pump.Round.disorder (h : Pump.Round pump offers final)
    (ho : List.Forall₂ Source.Opened pump.sources captures) {m n : Nat} {newer older : Offer}
    (hm : offers[m]? = some newer) (hn : offers[n]? = some older) (hlt : m < n)
    (hk : newer.record.kind ≠ .response) :
    (older.record.timestamp < newer.record.timestamp →
      ∃ k between capture, m ≤ k ∧ k < n ∧ offers[k]? = some between ∧ between.index = older.index ∧
        between.record.kind ≠ .response ∧ newer.record.timestamp ≤ between.record.timestamp ∧
        captures[older.index]? = some capture ∧
        placeInCapture offers older.index k < placeInCapture offers older.index n ∧
        (Record.ofCapture capture)[placeInCapture offers older.index k]? = some between.record ∧
        (Record.ofCapture capture)[placeInCapture offers older.index n]? = some older.record) ∧
    ((∀ capture ∈ captures, (Record.ofCapture capture).Pairwise (·.timestamp ≤ ·.timestamp)) →
      newer.record.timestamp ≤ older.record.timestamp) := by
  obtain ⟨capture, hcapture, holder⟩ := h.exists_capture ho hn
  constructor
  · intro ht
    obtain ⟨k, between, hmk, hkn, hbetween, hindex, hkind, htime, hplace, hstands⟩ :=
      h.exists_between ho hm hn hlt hk ht hcapture
    exact ⟨k, between, capture, hmk, hkn, hbetween, hindex, hkind, htime, hcapture, hplace, hstands,
      holder⟩
  · intro hsorted
    refine Int.not_lt.mp fun ht => ?_
    obtain ⟨k, between, -, -, -, -, -, htime, hplace, hstands⟩ :=
      h.exists_between ho hm hn hlt hk ht hcapture
    -- both stand in a capture that is in order, the newer one in front
    obtain ⟨hlen, hget⟩ := List.getElem?_eq_some_iff.mp hstands
    obtain ⟨hlen', hget'⟩ := List.getElem?_eq_some_iff.mp holder
    have hpairs := hsorted capture (List.mem_of_getElem? hcapture)
    have hle := List.pairwise_iff_getElem.mp hpairs _ _ hlen hlen' hplace
    rw [hget, hget'] at hle
    exact Int.not_lt.mpr (Int.le_trans htime hle) ht

def disorderedCapture : Bytes :=
  captureOf ["1 b 10\n", "1 c 5\n"]

/-- The sources of a capture with one record and of one that is out of order. The record at 5 comes
behind that at 7, for the record at 10 stands in front of it. -/
def disorderedSources : List Source :=
  [⟨"a", some [.portion []], some (Record.ofBytes (Utf8.encode "1 a 7\n"))⟩,
    ⟨"b", some [.portion (captureOf ["1 c 5\n"])], some (Record.ofBytes (Utf8.encode "1 b 10\n"))⟩]

theorem opened_disorderedSources :
    List.Forall₂ Source.Opened disorderedSources [captureOf ["1 a 7\n"], disorderedCapture] := by
  have ha : Framing.readRecord [.portion (captureOf ["1 a 7\n"])]
      = (.record (Utf8.encode "1 a 7\n"), [.portion []]) := by decide +kernel
  have hb : Framing.readRecord [.portion disorderedCapture]
      = (.record (Utf8.encode "1 b 10\n"), [.portion (captureOf ["1 c 5\n"])]) := by decide +kernel
  refine .cons ?_ (.cons ?_ .nil)
  · have ho : Source.openStream ⟨.directory [("a", .file (captureOf ["1 a 7\n"]))], []⟩ "a"
        = .ok [.portion (captureOf ["1 a 7\n"])] := by cbv
    exact ⟨_, "a", ⟨_, ho, by decide, rfl⟩, (congrArg Logged.value (Source.openAt_eq ho)).trans
      (Source.onStream_of_ok (Source.advance_of_record ha))⟩
  · have ho : Source.openStream ⟨.directory [("b", .file disorderedCapture)], []⟩ "b"
        = .ok [.portion disorderedCapture] := by cbv
    exact ⟨_, "b", ⟨_, ho, by decide, rfl⟩, (congrArg Logged.value (Source.openAt_eq ho)).trans
      (Source.onStream_of_ok (Source.advance_of_record hb))⟩

theorem loop_disorderedSources : Merge.Loop disorderedSources
    [(0, Record.ofBytes (Utf8.encode "1 a 7\n")), (1, Record.ofBytes (Utf8.encode "1 b 10\n")),
      (1, Record.ofBytes (Utf8.encode "1 c 5\n"))] := by
  have hend := Framing.readRecord_empty
  have hc : Framing.readRecord [.portion (captureOf ["1 c 5\n"])]
      = (.record (Utf8.encode "1 c 5\n"), [.portion []]) := by decide +kernel
  refine .next (.mk (by decide +kernel) rfl rfl (Source.advance_of_ended hend)) ?_
  refine .next (.mk (by decide +kernel) rfl rfl (Source.advance_of_record hc)) ?_
  refine .next (.mk (by decide +kernel) rfl rfl (Source.advance_of_ended hend)) ?_
  exact .done (by decide +kernel)

/-- The record at 5 comes behind that at 7, and the one between them is of its own capture and
newer. -/
theorem Pump.Round.disorder_two :
    ∃ offers final newer older,
      Pump.Round ⟨"*", false, disorderedSources, .new 1.0, 0, 0⟩ offers final ∧
      offers[0]? = some newer ∧ offers[2]? = some older ∧
      newer.record.timestamp = 7 ∧ older.record.timestamp = 5 ∧
      ∃ k between, 0 ≤ k ∧ k < 2 ∧ offers[k]? = some between ∧ between.index = older.index ∧
        newer.record.timestamp ≤ between.record.timestamp := by
  obtain ⟨final, hround⟩ :=
    @Pump.round_of_loop ⟨"*", false, disorderedSources, .new 1.0, 0, 0⟩ _ loop_disorderedSources
  have hdisorder := hround.disorder opened_disorderedSources (m := 0) (n := 2) rfl rfl (by decide)
    (by decide +kernel)
  obtain ⟨k, between, capture, hmk, hkn, hbetween, hindex, hkind, htime, -⟩ :=
    hdisorder.1 (by decide +kernel)
  exact ⟨_, final, _, _, hround, rfl, rfl, by decide +kernel, by decide +kernel, k, between, hmk,
    hkn, hbetween,
    hindex, htime⟩

end Round

end TrafficReplay
