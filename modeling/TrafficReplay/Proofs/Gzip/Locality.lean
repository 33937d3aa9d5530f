/-
# Decoding looks no further than it goes

A decoder that finds a value has looked at what it took and at nothing behind it: with more data
behind, it finds the same value and goes just as far (`Decoder.Local`). Decoders built from such
decoders keep to that, and so do decompression (`inflate_local`), trailers (`readTrailer_local`) and
headers (`Header.read_local`). With nothing added this says that it makes no difference how many
bytes of a portion were begun, which matters only for what a fault lets pass.
-/
import TrafficReplay.Gzip.Archive

namespace TrafficReplay.Gzip

/-- The same place in a file that goes on with `more`. Nothing is said about how the files are cut
into portions. -/
structure Cursor.Extends (cursor : Cursor) (more : Bytes) (longer : Cursor) : Prop where
  pending : longer.pending = cursor.pending
  bytes : longer.bytes = cursor.bytes ++ more

namespace Cursor

variable {cursor longer rest : Cursor} {more : Bytes}

theorem Extends.drop (h : cursor.Extends more longer) {n : Nat} (hn : n ≤ cursor.bytes.length) :
    (cursor.drop n).Extends more (longer.drop n) := by
  refine ⟨rfl, ?_⟩
  simp only [Cursor.drop, h.bytes]
  exact List.drop_append_of_le_length hn

theorem bytes_dropField (cursor : Cursor) (n : Nat) :
    (cursor.dropField n).bytes = cursor.bytes.drop n := by
  unfold dropField
  dsimp only
  split <;> rfl

theorem pending_dropField (cursor : Cursor) (n : Nat) : (cursor.dropField n).pending = [] := by
  unfold dropField
  dsimp only
  split <;> rfl

theorem Extends.dropField (h : cursor.Extends more longer) {n : Nat}
    (hn : n ≤ cursor.bytes.length) : (cursor.dropField n).Extends more (longer.dropField n) := by
  refine ⟨by rw [pending_dropField, pending_dropField], ?_⟩
  rw [bytes_dropField, bytes_dropField, h.bytes]
  exact List.drop_append_of_le_length hn

theorem Extends.bit? (h : cursor.Extends more longer) {b : Bool}
    (hb : cursor.bit? = some (b, rest)) :
    ∃ farther, longer.bit? = some (b, farther) ∧ rest.Extends more farther := by
  obtain ⟨bits, front, offset⟩ := cursor
  obtain ⟨bits', front', offset'⟩ := longer
  obtain ⟨hbits, hfront⟩ := h
  dsimp only at hbits hfront
  subst hbits hfront
  match bits', front with
  | b' :: bits, front =>
    simp only [Cursor.bit?, Option.some.injEq, Prod.mk.injEq] at hb
    obtain ⟨rfl, rfl⟩ := hb
    exact ⟨_, rfl, rfl, rfl⟩
  | [], byte :: front =>
    simp only [Cursor.bit?, Option.some.injEq, Prod.mk.injEq] at hb
    obtain ⟨rfl, rfl⟩ := hb
    exact ⟨_, rfl, rfl, rfl⟩
  | [], [] => simp [Cursor.bit?] at hb

end Cursor

namespace Decoder

variable {α β : Type}

/-- Whatever comes behind the data, the decoder finds the same value in them and goes just as far.
-/
def Local (d : Decoder α) : Prop :=
  ∀ ⦃more : Bytes⦄ ⦃cursor longer : Cursor⦄ ⦃a : α⦄ ⦃rest : Cursor⦄, cursor.Extends more longer →
    d cursor = .found a rest → ∃ farther, d longer = .found a farther ∧ rest.Extends more farther

theorem bind_eq_found {d : Decoder α} {f : α → Decoder β} {cursor rest : Cursor} {b : β} :
    (d >>= f) cursor = .found b rest
      ↔ ∃ a middle, d cursor = .found a middle ∧ f a middle = .found b rest := by
  simp only [Bind.bind]
  cases d cursor with
  | found a middle => simp [and_assoc]
  | short => simp
  | corrupt offset => simp

theorem Local.pure (a : α) : Local (Pure.pure a : Decoder α) := by
  intro more cursor longer b rest h hf
  cases hf
  exact ⟨longer, rfl, h⟩

theorem Local.reject : Local (Decoder.reject : Decoder α) := by
  intro more cursor longer b rest h hf
  cases hf

theorem Local.bind {d : Decoder α} {f : α → Decoder β} (hd : Local d) (hf : ∀ a, Local (f a)) :
    Local (d >>= f) := by
  intro more cursor longer b rest h hb
  obtain ⟨a, middle, ha, hb⟩ := bind_eq_found.mp hb
  obtain ⟨middle', ha', hm⟩ := hd h ha
  obtain ⟨farther, hb', hr⟩ := hf a hm hb
  exact ⟨farther, bind_eq_found.mpr ⟨a, middle', ha', hb'⟩, hr⟩

theorem Local.bit : Local Decoder.bit := by
  intro more cursor longer b rest h hf
  obtain ⟨farther, hb, hr⟩ := h.bit? (bit_eq_found hf)
  refine ⟨farther, ?_, hr⟩
  simp only [Decoder.bit, hb]

theorem Local.bits (n : Nat) : Local (Decoder.bits n) := by
  induction n with
  | zero => exact .pure 0
  | succ n ih => exact .bind .bit fun _ => .bind ih fun _ => .pure _

theorem Local.align : Local Decoder.align := by
  intro more cursor longer u rest h hf
  cases hf
  exact ⟨_, rfl, rfl, h.bytes⟩

end Decoder

/-! ## Symbols and items -/

theorem CodeTree.local_read (tree : CodeTree) : tree.read.Local := by
  induction tree with
  | dead => exact .reject
  | leaf symbol => exact .pure symbol
  | fork zero one ihz iho =>
    refine .bind .bit fun b => ?_
    cases b
    · simpa using ihz
    · simpa using iho

theorem Code.local_read (code : Code) : code.read.Local := by
  refine .bind .bit fun b => ?_
  cases b
  · simpa using code.zero.local_read
  · simpa using code.one.local_read

namespace Item

theorem local_readMeasure (symbols : Array (Nat × Nat)) (symbol : Nat) :
    (readMeasure symbols symbol).Local := by
  unfold readMeasure
  split
  · exact .reject
  · exact .bind (.bits _) fun _ => .pure _

theorem local_readAfter (distances : Code) (symbol : Nat) : (readAfter distances symbol).Local := by
  unfold readAfter
  split
  · exact .pure _
  · split
    · exact .pure _
    · exact .bind (local_readMeasure _ _) fun _ =>
        .bind distances.local_read fun _ => .bind (local_readMeasure _ _) fun _ => .pure _

theorem local_read (codes : Codes) : (read codes).Local :=
  .bind codes.literals.local_read fun _ => local_readAfter _ _

end Item

/-! ## Starts of blocks -/

namespace Codes

theorem local_readTold (n : Nat) : (readTold n).Local := by
  induction n with
  | zero => exact .pure _
  | succ n ih => exact .bind (.bits 3) fun _ => .bind ih fun _ => .pure _

theorem local_readLengths (code : Code) (missing : Nat) (previous : Option Nat) :
    (readLengths code missing previous).Local := by
  -- a repetition makes up for several lengths at once
  induction missing using Nat.strongRecOn generalizing previous with
  | ind missing ih =>
    unfold readLengths
    split
    · exact .pure _
    · next missing =>
      refine .bind code.local_read fun symbol => ?_
      split
      · exact .bind (ih missing (by omega) _) fun _ => .pure _
      · split
        · exact .reject
        · next length least width hr =>
          have := pos_of_repetition? hr
          refine .bind (.bits _) fun more => ?_
          split
          · exact .reject
          · exact .bind (ih _ (by omega) _) fun _ => .pure _

theorem local_readCode (lengths : List Nat) (singleAllowed : Bool) :
    (readCode lengths singleAllowed).Local := by
  unfold readCode
  split
  · exact .pure _
  · exact .reject

theorem local_readDynamic : readDynamic.Local := by
  refine .bind (.bits 5) fun _ => .bind (.bits 5) fun _ => .bind (.bits 4) fun _ => ?_
  dsimp only
  split
  · exact .reject
  · exact .bind (local_readTold _) fun _ => .bind (local_readCode _ _) fun _ =>
      .bind (local_readLengths _ _ _) fun _ => .bind (local_readCode _ _) fun _ =>
      .bind (local_readCode _ _) fun _ => .pure _

end Codes

theorem BlockStart.local_read : BlockStart.read.Local := by
  refine .bind .bit fun _ => .bind (.bits 2) fun _ => ?_
  split
  · exact .pure _
  · exact .pure _
  · exact .pure _
  · exact .reject

theorem local_readStoredLength : readStoredLength.Local := by
  refine .bind .align fun _ => .bind (.bits 16) fun _ => .bind (.bits 16) fun _ => ?_
  split
  · exact .pure _
  · exact .reject

/-! ## Decompression -/

section Inflate

variable {cursor longer rest : Cursor} {more : Bytes} {output output' result : Output}

theorem Output.bytes_copy (h : output'.bytes = output.bytes) (distance n : Nat) :
    (output'.copy distance n).bytes = (output.copy distance n).bytes := by
  induction n generalizing output output' with
  | zero => exact h
  | succ n ih => exact ih (by simp only [push, lookBack, h])

theorem inflateItems_local {codes : Codes}
    (hi : inflateItems codes cursor output = .complete result rest)
    (h : cursor.Extends more longer) (ho : output'.bytes = output.bytes) :
    ∃ result' farther, inflateItems codes longer output' = .complete result' farther ∧
      result'.bytes = result.bytes ∧ rest.Extends more farther := by
  fun_induction inflateItems codes cursor output generalizing longer output' with
  | case1 | case2 => cases hi
  | case3 cursor output rest' hr =>
    cases hi
    obtain ⟨farther, hr', he⟩ := Item.local_read codes h hr
    refine ⟨output'.reach farther.offset, farther, ?_, ho, he⟩
    rw [inflateItems, hr']
  | case4 cursor output byte rest' hr ih =>
    obtain ⟨farther, hr', he⟩ := Item.local_read codes h hr
    rw [inflateItems, hr']
    exact ih hi he (congrArg (·.push byte) ho)
  | case5 cursor output length distance rest' hr ih =>
    obtain ⟨farther, hr', he⟩ := Item.local_read codes h hr
    rw [inflateItems, hr']
    have hreach : (output'.reach farther.offset).bytes = (output.reach rest'.offset).bytes := ho
    exact ih hi he (Output.bytes_copy hreach distance length)

theorem inflateStored_local {n : Nat} (hi : inflateStored cursor output n = .complete result rest)
    (h : cursor.Extends more longer) (ho : output'.bytes = output.bytes) :
    ∃ result' farther, inflateStored longer output' n = .complete result' farther ∧
      result'.bytes = result.bytes ∧ rest.Extends more farther := by
  induction n generalizing cursor longer output output' with
  | zero =>
    cases hi
    exact ⟨output', longer, rfl, ho, h⟩
  | succ n ih =>
    rw [inflateStored] at hi
    split at hi
    · cases hi
    · next byte bytes hb =>
      have hb' : longer.bytes = byte :: (bytes ++ more) := by rw [h.bytes, hb, List.cons_append]
      rw [inflateStored]
      simp only [hb']
      exact ih hi ⟨rfl, rfl⟩ (congrArg (·.push byte) ho)

theorem inflateContent_local {content : Content}
    (hi : inflateContent content cursor output = .complete result rest)
    (h : cursor.Extends more longer) (ho : output'.bytes = output.bytes) :
    ∃ result' farther, inflateContent content longer output' = .complete result' farther ∧
      result'.bytes = result.bytes ∧ rest.Extends more farther := by
  cases content with
  | fixed => exact inflateItems_local hi h ho
  | dynamic =>
    cases hd : Codes.readDynamic cursor with
    | short => simp [inflateContent, hd] at hi
    | corrupt offset => simp [inflateContent, hd] at hi
    | found codes middle =>
      obtain ⟨middle', hd', he⟩ := Codes.local_readDynamic h hd
      simp only [inflateContent, hd, hd'] at hi ⊢
      exact inflateItems_local hi he ho
  | stored =>
    cases hd : readStoredLength cursor with
    | short => simp [inflateContent, hd] at hi
    | corrupt offset => simp [inflateContent, hd] at hi
    | found length middle =>
      obtain ⟨middle', hd', he⟩ := local_readStoredLength h hd
      simp only [inflateContent, hd, hd'] at hi ⊢
      exact inflateStored_local hi he ho

theorem inflate_local (hi : inflate cursor output = .complete result rest)
    (h : cursor.Extends more longer) (ho : output'.bytes = output.bytes) :
    ∃ result' farther, inflate longer output' = .complete result' farther ∧
      result'.bytes = result.bytes ∧ rest.Extends more farther := by
  fun_induction inflate cursor output generalizing longer output' with
  | case1 | case2 => cases hi
  | case3 | case4 => cases hi
  | case5 cursor output start middle hs output₁ rest₁ hc hl =>
    cases hi
    obtain ⟨middle', hs', hm⟩ := BlockStart.local_read h hs
    obtain ⟨output₂, farther, hc', ho', he⟩ := inflateContent_local hc hm ho
    refine ⟨output₂, farther, ?_, ho', he⟩
    rw [inflate, hs']
    dsimp only
    rw [hc']
    exact if_pos hl
  | case6 cursor output start middle hs output₁ rest₁ hc hl ih =>
    obtain ⟨middle', hs', hm⟩ := BlockStart.local_read h hs
    obtain ⟨output₂, farther, hc', ho', he⟩ := inflateContent_local hc hm ho
    obtain ⟨result', last, hi', hb, hr⟩ := ih hi he ho'
    refine ⟨result', last, ?_, hb, hr⟩
    rw [inflate, hs']
    dsimp only
    rw [hc']
    exact (if_neg hl).trans hi'

end Inflate

/-! ## Trailers and headers -/

section Frame

variable {cursor longer rest : Cursor} {more : Bytes} {flags : UInt8}

theorem readTrailer_local {contents : Bytes} (ht : readTrailer contents cursor = .ok rest)
    (h : cursor.Extends more longer) :
    ∃ farther, readTrailer contents longer = .ok farther ∧ rest.Extends more farther := by
  unfold readTrailer at ht
  split at ht
  · next c₁ c₂ c₃ c₄ l₁ l₂ l₃ l₄ others hb =>
    have hb' : longer.bytes = c₁ :: c₂ :: c₃ :: c₄ :: l₁ :: l₂ :: l₃ :: l₄ :: (others ++ more) := by
      rw [h.bytes, hb]
      rfl
    split at ht
    · next hc =>
      cases ht
      refine ⟨longer.drop 8, ?_, h.drop (by simp [hb])⟩
      simp only [readTrailer, hb', if_pos hc]
    · cases ht
  · cases ht

namespace Header

theorem readFixed_local (hf : readFixed cursor = .ok (flags, rest))
    (h : cursor.Extends more longer) :
    ∃ farther, readFixed longer = .ok (flags, farther) ∧ rest.Extends more farther := by
  unfold readFixed at hf
  split at hf
  · next m₁ m₂ method flags' b₁ b₂ b₃ b₄ b₅ b₆ others hb =>
    have hb' : longer.bytes
        = m₁ :: m₂ :: method :: flags' :: b₁ :: b₂ :: b₃ :: b₄ :: b₅ :: b₆ :: (others ++ more) := by
      rw [h.bytes, hb]
      rfl
    split at hf
    · cases hf
    · next hc =>
      cases hf
      refine ⟨longer.drop 10, ?_, h.drop (by simp [hb])⟩
      simp only [readFixed, hb', if_neg hc]
  · cases hf

theorem skipExtra_local (hf : skipExtra flags cursor = .ok rest) (h : cursor.Extends more longer) :
    ∃ farther, skipExtra flags longer = .ok farther ∧ rest.Extends more farther := by
  unfold skipExtra at hf ⊢
  split at hf
  · next hflag =>
    rw [if_pos hflag]
    split at hf
    · next low high others hb =>
      have hb' : longer.bytes = low :: high :: (others ++ more) := by
        rw [h.bytes, hb]
        rfl
      split at hf
      · cases hf
      · next hlen =>
        cases hf
        have hlen' : ¬ (others ++ more).length < number16 low high := by
          rw [List.length_append]
          omega
        simp only [hb', if_neg hlen']
        refine ⟨_, rfl, (h.drop (by simp [hb])).dropField ?_⟩
        simp only [Cursor.drop, hb, List.drop_succ_cons, List.drop_zero]
        omega
    · cases hf
  · next hflag =>
    rw [if_neg hflag]
    cases hf
    exact ⟨longer, rfl, h⟩

theorem takeWhile_append_of_lt {bytes more : Bytes}
    (h : (bytes.takeWhile (· ≠ 0)).length < bytes.length) :
    (bytes ++ more).takeWhile (· ≠ 0) = bytes.takeWhile (· ≠ 0) := by
  rw [List.takeWhile_append, if_neg (Nat.ne_of_lt h)]

theorem skipText_local {flag : Nat} (hf : skipText flags flag cursor = .ok rest)
    (h : cursor.Extends more longer) :
    ∃ farther, skipText flags flag longer = .ok farther ∧ rest.Extends more farther := by
  unfold skipText at hf ⊢
  split at hf
  · next hflag =>
    rw [if_pos hflag]
    dsimp only at hf ⊢
    split at hf
    · cases hf
    · next hlong =>
      split at hf
      · cases hf
      · next hend =>
        cases hf
        have hlt := Nat.lt_of_not_le hend
        have hend' : ¬ (cursor.bytes ++ more).length ≤ (cursor.bytes.takeWhile (· ≠ 0)).length := by
          rw [List.length_append]
          omega
        rw [h.bytes, takeWhile_append_of_lt hlt, if_neg hlong, if_neg hend']
        exact ⟨_, rfl, h.drop hlt⟩
  · next hflag =>
    rw [if_neg hflag]
    cases hf
    exact ⟨longer, rfl, h⟩

theorem compareCheck_local {start start' : Cursor} (hf : compareCheck flags start cursor = .ok rest)
    (hs : start.Extends more start') (h : cursor.Extends more longer) :
    ∃ farther, compareCheck flags start' longer = .ok farther ∧ rest.Extends more farther := by
  unfold compareCheck at hf ⊢
  split at hf
  · next hflag =>
    rw [if_pos hflag]
    split at hf
    · next low high others hb =>
      have hb' : longer.bytes = low :: high :: (others ++ more) := by
        rw [h.bytes, hb]
        rfl
      -- what stands in front of the check is no longer than the data that were there before
      have hfront : start'.bytes.take (start'.bytes.length - longer.bytes.length)
          = start.bytes.take (start.bytes.length - cursor.bytes.length) := by
        rw [hs.bytes, h.bytes, List.length_append, List.length_append, Nat.add_sub_add_right]
        exact List.take_append_of_le_length (Nat.sub_le _ _)
      dsimp only at hf
      split at hf
      · next hc =>
        cases hf
        rw [← hfront] at hc
        simp only [hb'] at hc ⊢
        exact ⟨_, if_pos hc, h.drop (by simp [hb])⟩
      · cases hf
    · cases hf
  · next hflag =>
    rw [if_neg hflag]
    cases hf
    exact ⟨longer, rfl, h⟩

theorem bind_eq_ok {α β : Type} {e : Except Fault α} {f : α → Except Fault β} {b : β} :
    (e >>= f) = .ok b ↔ ∃ a, e = .ok a ∧ f a = .ok b := by
  cases e with
  | error fault => simp [bind, Except.bind]
  | ok a => simp [bind, Except.bind]

theorem read_local (hf : read cursor = .ok rest) (h : cursor.Extends more longer) :
    ∃ farther, read longer = .ok farther ∧ rest.Extends more farther := by
  unfold read at hf ⊢
  obtain ⟨⟨flags, fixed⟩, hfixed, hf⟩ := bind_eq_ok.mp hf
  obtain ⟨extra, hextra, hf⟩ := bind_eq_ok.mp hf
  obtain ⟨name, hname, hf⟩ := bind_eq_ok.mp hf
  obtain ⟨comment, hcomment, hcheck⟩ := bind_eq_ok.mp hf
  obtain ⟨fixed', hfixed', h₁⟩ := readFixed_local hfixed h
  obtain ⟨extra', hextra', h₂⟩ := skipExtra_local hextra h₁
  obtain ⟨name', hname', h₃⟩ := skipText_local hname h₂
  obtain ⟨comment', hcomment', h₄⟩ := skipText_local hcomment h₃
  obtain ⟨farther, hcheck', h₅⟩ := compareCheck_local hcheck h h₄
  refine ⟨farther, ?_, h₅⟩
  simp only [bind_eq_ok]
  exact ⟨_, hfixed', _, hextra', _, hname', _, hcomment', hcheck'⟩

end Header

end Frame

end TrafficReplay.Gzip
