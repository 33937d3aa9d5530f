/-
# Reading dates and times back

A date with a time of day in UTC, as RFC 3339 has it, is an instant (`instant?`): the day is counted
on from 1970 (`dayNumber`), the time of day is added to it, and digits behind a point are a fraction
of a second by their places. Dates that the calendar does not have and times that a day does not
have are refused.

What a library of times says of itself (`TimeLibrary.Documented`) is about its calendar and about
its texts, each on its own. Together they let nothing be lost of any timestamp
(`TimeLibrary.timeText_lossless`): the text is read as what calendar and clock show
(`DateTime.IsWritten.instant?`), and all timestamps are of years that the library has
(`TimeLibrary.supported_of_timestamp`). The library that the programs come with is such a library
(`TimeLibrary.documented_gregorian`).
-/
import TrafficReplay.Proofs.Calendar.Days
import TrafficReplay.Record.Metadata

namespace TrafficReplay

namespace Calendar

def digits? (count : Nat) (text : List Char) : Option (Nat × List Char) :=
  let digits := text.take count
  if digits.length = count ∧ digits.all Char.isDigit = true then
    some (Nat.ofDigitChars 10 digits 0, text.drop count)
  else none

def sign? (sign : Char) : List Char → Option (List Char)
  | c :: text => if c = sign then some text else none
  | [] => none

/-- Reads a fraction of a second in nanoseconds: a point and then up to nine digits. Without a point
there is none, and it counts as zero. -/
def fraction? : List Char → Option (Nat × List Char)
  | '.' :: text =>
    let digits := text.takeWhile Char.isDigit
    if 1 ≤ digits.length ∧ digits.length ≤ 9 then
      some (Nat.ofDigitChars 10 digits 0 * 10 ^ (9 - digits.length), text.drop digits.length)
    else none
  | text => some (0, text)

def date? (text : List Char) : Option (Int × List Char) := do
  let (year, text) ← digits? 4 text
  let text ← sign? '-' text
  let (month, text) ← digits? 2 text
  let text ← sign? '-' text
  let (day, text) ← digits? 2 text
  if IsDate year month day then some (dayNumber year month day, text) else none

def timeOfDay? (text : List Char) : Option (Nat × List Char) := do
  let (hour, text) ← digits? 2 text
  let text ← sign? ':' text
  let (minute, text) ← digits? 2 text
  let text ← sign? ':' text
  let (second, text) ← digits? 2 text
  if hour < 24 ∧ minute < 60 ∧ second < 60 then some ((hour * 60 + minute) * 60 + second, text)
  else none

/-- Reads a date and a time of day in UTC as nanoseconds since the start of 1970. -/
def instant? (text : String) : Option Int := do
  let (day, text) ← date? text.toList
  let text ← sign? 'T' text
  let (second, text) ← timeOfDay? text
  let (nanosecond, text) ← fraction? text
  let text ← sign? 'Z' text
  if text = [] then some ((day * 86400 + second) * 1000000000 + nanosecond) else none

/-! ## Digits -/

theorem length_padded {width n : Nat} (hw : 0 < width) (h : n < 10 ^ width) :
    (padded width n).length = width := by
  have hle : (Nat.toDigits 10 n).length ≤ width :=
    (Nat.length_toDigits_le_iff (by decide) hw).mpr h
  rw [padded, List.length_append, List.length_replicate]
  exact Nat.sub_add_cancel hle

theorem isDigit_of_mem_padded {width n : Nat} {c : Char} (h : c ∈ padded width n) :
    c.isDigit = true := by
  rcases List.mem_append.mp h with h | h
  · rw [List.eq_of_mem_replicate h]
    rfl
  · exact Nat.isDigit_of_mem_toDigits (by decide) (by decide) h

theorem ofDigitChars_padded (width n : Nat) : Nat.ofDigitChars 10 (padded width n) 0 = n := by
  rw [padded, Nat.ofDigitChars_append, Nat.ofDigitChars_replicate_zero, Nat.mul_zero,
    Nat.ofDigitChars_ten_toDigits]

theorem digits?_padded {width n : Nat} (hw : 0 < width) (h : n < 10 ^ width) (rest : List Char) :
    digits? width (padded width n ++ rest) = some (n, rest) := by
  have hlength := length_padded hw h
  have htake : (padded width n ++ rest).take width = padded width n := List.take_left' hlength
  have hdrop : (padded width n ++ rest).drop width = rest := List.drop_left' hlength
  have hall : (padded width n).all Char.isDigit = true :=
    List.all_eq_true.mpr fun c hc => isDigit_of_mem_padded hc
  simp only [digits?, htake, hdrop]
  rw [if_pos ⟨hlength, hall⟩, ofDigitChars_padded]

theorem sign?_cons (sign : Char) (rest : List Char) : sign? sign (sign :: rest) = some rest :=
  if_pos rfl

/-! ## Fractions -/

theorem exists_zeros (digits : List Char) :
    ∃ count, digits = (digits.reverse.dropWhile (· = '0')).reverse ++ List.replicate count '0' := by
  have hzeros : ∀ c ∈ digits.reverse.takeWhile (· = '0'), c = '0' := by
    intro c hc
    have hzero := List.mem_takeWhile_imp hc
    exact of_decide_eq_true hzero
  have hreplicate := List.eq_replicate_of_mem hzeros
  refine ⟨(digits.reverse.takeWhile (· = '0')).length, ?_⟩
  calc digits
    _ = (digits.reverse.takeWhile (· = '0') ++ digits.reverse.dropWhile (· = '0')).reverse := by
        rw [List.takeWhile_append_dropWhile, List.reverse_reverse]
    _ = (digits.reverse.dropWhile (· = '0')).reverse ++
          (digits.reverse.takeWhile (· = '0')).reverse := List.reverse_append
    _ = (digits.reverse.dropWhile (· = '0')).reverse ++
          List.replicate (digits.reverse.takeWhile (· = '0')).length '0' :=
        congrArg (_ ++ ·) ((congrArg List.reverse hreplicate).trans List.reverse_replicate)

/-- Digits of a fraction stand for nanoseconds by their places. -/
structure IsFraction (digits : List Char) (nanosecond : Nat) : Prop where
  length_le : digits.length ≤ 9
  isDigit : ∀ c ∈ digits, c.isDigit = true
  value : Nat.ofDigitChars 10 digits 0 * 10 ^ (9 - digits.length) = nanosecond

def pointed (digits : List Char) : List Char :=
  if digits = [] then [] else '.' :: digits

theorem exists_isFraction {n : Nat} (h : n < 10 ^ 9) :
    ∃ digits, IsFraction digits n ∧ fraction n = pointed digits := by
  rw [fraction]
  split
  · next hzero =>
    exact ⟨[], ⟨by decide, fun _ hmem => absurd hmem List.not_mem_nil, hzero.symm⟩, rfl⟩
  · next hne =>
    obtain ⟨count, hzeros⟩ := exists_zeros (padded 9 n)
    generalize ((padded 9 n).reverse.dropWhile (· = '0')).reverse = digits at hzeros ⊢
    have hlength : digits.length + count = 9 := by
      rw [← length_padded (by decide) h, hzeros, List.length_append, List.length_replicate]
    have hcount : 9 - digits.length = count := by omega
    have hvalue : 10 ^ count * Nat.ofDigitChars 10 digits 0 = n := by
      rw [← Nat.ofDigitChars_replicate_zero, ← Nat.ofDigitChars_append, ← hzeros,
        ofDigitChars_padded]
    refine ⟨digits, ⟨by omega, fun c hc => ?_, by rw [hcount, Nat.mul_comm, hvalue]⟩, ?_⟩
    · have hmem : c ∈ padded 9 n := by
        rw [hzeros]
        exact List.mem_append_left _ hc
      exact isDigit_of_mem_padded hmem
    · rw [pointed, if_neg]
      rintro rfl
      refine hne ?_
      rw [← hvalue, Nat.ofDigitChars_nil, Nat.mul_zero]

theorem IsFraction.fraction?_pointed {digits : List Char} {n : Nat} (h : IsFraction digits n)
    {sign : Char} (hdigit : sign.isDigit = false) (hpoint : sign ≠ '.') (rest : List Char) :
    fraction? (pointed digits ++ sign :: rest) = some (n, sign :: rest) := by
  rw [pointed]
  split
  · next hnil =>
    have hvalue := h.value
    rw [hnil, Nat.ofDigitChars_nil, Nat.zero_mul] at hvalue
    rw [← hvalue, List.nil_append]
    unfold fraction?
    split
    · next hcons => exact absurd (List.cons.inj hcons).1 hpoint
    · rfl
  · next hne =>
    have hsome : 1 ≤ digits.length := List.length_pos_iff.mpr hne
    have htake : (digits ++ sign :: rest).takeWhile Char.isDigit = digits := by
      rw [List.takeWhile_append_of_pos h.isDigit,
        List.takeWhile_cons_of_neg (by rw [hdigit]; decide), List.append_nil]
    rw [List.cons_append]
    simp only [fraction?, htake]
    rw [if_pos ⟨hsome, h.length_le⟩, h.value, List.drop_left]

/-! ## Instants -/

theorem daysOfMonth_le (leap : Bool) (month : Nat) : daysOfMonth leap month ≤ 31 := by
  unfold daysOfMonth
  split
  · cases leap <;> decide
  all_goals decide

theorem date?_padded {year month day : Nat} (h : IsDate year month day) (hyear : year ≤ 9999)
    (rest : List Char) :
    date? (padded 4 year ++ '-' :: padded 2 month ++ '-' :: padded 2 day ++ rest)
      = some (dayNumber year month day, rest) := by
  have hmonth := h.month_le
  have hday := h.day_le.trans (daysOfMonth_le _ _)
  simp only [date?, List.append_assoc, List.cons_append]
  rw [digits?_padded (by decide) (show year < 10 ^ 4 by omega)]
  simp only [bind, Option.bind, sign?_cons]
  rw [digits?_padded (by decide) (show month < 10 ^ 2 by omega)]
  simp only [sign?_cons]
  rw [digits?_padded (by decide) (show day < 10 ^ 2 by omega)]
  exact if_pos h

theorem timeOfDay?_padded {hour minute second : Nat} (hhour : hour < 24) (hminute : minute < 60)
    (hsecond : second < 60) (rest : List Char) :
    timeOfDay? (padded 2 hour ++ ':' :: padded 2 minute ++ ':' :: padded 2 second ++ rest)
      = some ((hour * 60 + minute) * 60 + second, rest) := by
  simp only [timeOfDay?, List.append_assoc, List.cons_append]
  rw [digits?_padded (by decide) (show hour < 10 ^ 2 by omega)]
  simp only [bind, Option.bind, sign?_cons]
  rw [digits?_padded (by decide) (show minute < 10 ^ 2 by omega)]
  simp only [sign?_cons]
  rw [digits?_padded (by decide) (show second < 10 ^ 2 by omega)]
  exact if_pos ⟨hhour, hminute, hsecond⟩

/-- The nanoseconds from the start of 1970 to the start of a year. -/
def startOfYear (year : Nat) : Int :=
  dayNumber year 1 1 * 86400 * 1000000000

theorem startOfYear_1677 : startOfYear 1677 = -9246096000000000000 := by
  decide +kernel

theorem startOfYear_2263 : startOfYear 2263 = 9246182400000000000 := by
  decide +kernel

namespace DateTime

/-- Calendar and clock show this so many nanoseconds after the start of 1970: it is a date of the
calendar and a time that a day has, and all the days and the parts of a day up to it are counted. -/
structure IsAt (moment : DateTime) (n : Int) : Prop where
  year_nonneg : 0 ≤ moment.date.year
  isDate : IsDate moment.date.year.toNat moment.date.month moment.date.day
  hour_lt : moment.hour < 24
  minute_lt : moment.minute < 60
  second_lt : moment.second < 60
  nanosecond_lt : moment.nanosecond < 10 ^ 9
  count : n = (dayNumber moment.date.year.toNat moment.date.month moment.date.day * 86400
    + ((moment.hour * 60 + moment.minute) * 60 + moment.second : Nat)) * 1000000000
    + moment.nanosecond

/-- The text is the moment in the form of RFC 3339, in UTC. How many digits the fraction has is left
open, but there are nine at most. -/
def IsWritten (moment : DateTime) (text : String) : Prop :=
  ∃ digits, IsFraction digits moment.nanosecond ∧
    text.toList = padded 4 moment.date.year.toNat ++ '-' :: padded 2 moment.date.month ++
      '-' :: padded 2 moment.date.day ++ 'T' :: padded 2 moment.hour ++
      ':' :: padded 2 moment.minute ++
      ':' :: padded 2 moment.second ++ pointed digits ++ ['Z']

variable {moment : DateTime} {text : String} {n : Int}

/-- **A written moment is read as the instant that calendar and clock show it at.** -/
theorem IsWritten.instant? (hwritten : moment.IsWritten text) (hat : moment.IsAt n)
    (hyear : moment.date.year ≤ 9999) : Calendar.instant? text = some n := by
  obtain ⟨digits, hdigits, htext⟩ := hwritten
  have hdateRead := date?_padded hat.isDate (by omega : moment.date.year.toNat ≤ 9999)
  have htimeRead := timeOfDay?_padded hat.hour_lt hat.minute_lt hat.second_lt
  have hfractionRead := hdigits.fraction?_pointed (by decide : 'Z'.isDigit = false) (by decide) []
  rw [Calendar.instant?, htext]
  simp only [List.append_assoc, List.cons_append] at hdateRead htimeRead ⊢
  rw [hdateRead]
  simp only [bind, Option.bind, sign?_cons]
  rw [htimeRead]
  simp only [hfractionRead, sign?_cons, if_true]
  rw [hat.count]

theorem IsAt.year_le (h : moment.IsAt n) (hlast : n < startOfYear 2263) :
    moment.date.year ≤ 9999 := by
  have hyears := le_daysBeforeYear moment.date.year.toNat
  have hnonneg := h.year_nonneg
  have hcount := h.count
  rw [dayNumber, daysBeforeYear_1970] at hcount
  rw [startOfYear_2263] at hlast
  omega

theorem IsWritten.notMem (h : moment.IsWritten text) {c : Char} (hdigit : c.isDigit = false)
    (hc : c ∉ ['-', 'T', ':', '.', 'Z']) : c ∉ text.toList := by
  obtain ⟨digits, hdigits, htext⟩ := h
  have hpadded (width n : Nat) : c ∉ padded width n := by
    intro hmem
    rw [isDigit_of_mem_padded hmem] at hdigit
    cases hdigit
  have hfraction : c ∉ pointed digits := by
    rw [pointed]
    split
    · exact List.not_mem_nil
    · rw [List.mem_cons, not_or]
      refine ⟨fun he => hc (by simp [he]), fun hmem => ?_⟩
      rw [hdigits.isDigit c hmem] at hdigit
      cases hdigit
  rw [htext]
  simp only [List.mem_cons, List.not_mem_nil, or_false, not_or] at hc
  simp only [List.mem_append, List.mem_cons, List.not_mem_nil, hpadded, hfraction, hc, or_self,
    not_false_eq_true]

theorem IsWritten.getLast? (h : moment.IsWritten text) : text.toList.getLast? = some 'Z' := by
  obtain ⟨digits, -, htext⟩ := h
  rw [htext, List.getLast?_append]
  rfl

end DateTime

/-- A full century is no leap year unless four divide it. -/
example : instant? "1900-02-29T12:00:00Z" = none ∧ (instant? "2000-02-29T12:00:00.5Z").isSome := by
  decide +kernel

end Calendar

open Calendar

namespace TimeLibrary

/-- What a library of times says of itself, as far as it is relied on. -/
structure Documented (library : TimeLibrary) : Prop where
  /-- All instants of the years from 1677 to 2262 are in range. -/
  supports : ∀ n, startOfYear 1677 ≤ n → n < startOfYear 2263 →
    ∃ moment, library.ofNanoseconds n = some moment
  /-- Moments that are given by a number are seen from UTC. -/
  utc : ∀ n moment, library.ofNanoseconds n = some moment → library.offset moment = 0
  /-- Calendar and clock show such a moment at its place. -/
  counts : ∀ n moment, startOfYear 1677 ≤ n → n < startOfYear 2263 →
    library.ofNanoseconds n = some moment → (library.clock moment).IsAt n
  /-- What calendar and clock show of a moment in UTC can be written, if the year has four digits.
  -/
  writes : ∀ moment, library.offset moment = 0 → 0 ≤ (library.clock moment).date.year →
    (library.clock moment).date.year ≤ 9999 →
    ∃ text, library.rfc3339 moment = some text ∧ (library.clock moment).IsWritten text

section Timestamps

open Decimal (minTimestamp maxTimestamp)

variable {library : TimeLibrary} {n : Int}

theorem supported_of_timestamp (hmin : minTimestamp ≤ n) (hmax : n ≤ maxTimestamp) :
    startOfYear 1677 ≤ n ∧ n < startOfYear 2263 := by
  rw [startOfYear_1677, startOfYear_2263]
  rw [minTimestamp] at hmin
  rw [maxTimestamp] at hmax
  omega

theorem Documented.exists_moment (h : library.Documented) (hmin : minTimestamp ≤ n)
    (hmax : n ≤ maxTimestamp) :
    ∃ moment, library.ofNanoseconds n = some moment ∧
      library.rfc3339 moment = some (library.timeText n) ∧
      (library.clock moment).IsWritten (library.timeText n) ∧
      instant? (library.timeText n) = some n := by
  obtain ⟨hfirst, hlast⟩ := supported_of_timestamp hmin hmax
  obtain ⟨moment, hmoment⟩ := h.supports n hfirst hlast
  have hat := h.counts n moment hfirst hlast hmoment
  obtain ⟨text, htext, hwritten⟩ :=
    h.writes moment (h.utc n moment hmoment) hat.year_nonneg (hat.year_le hlast)
  have htimeText : library.timeText n = text := by
    rw [timeText, hmoment, Option.bind_some, htext, Option.getD_some]
  rw [htimeText]
  exact ⟨moment, hmoment, htext, hwritten, hwritten.instant? hat (hat.year_le hlast)⟩

/-- **No timestamp loses anything in its form.** Whatever library of times is used, as long as it
keeps to what it says of itself, a timestamp has the form of a date and a time of day, never that of
a number of nanoseconds; the form is read as the instant that it is, and no other timestamp has the
same. -/
theorem timeText_lossless (h : library.Documented) (hmin : minTimestamp ≤ n)
    (hmax : n ≤ maxTimestamp) :
    (∃ moment, library.ofNanoseconds n = some moment ∧
      library.rfc3339 moment = some (library.timeText n)) ∧
    library.timeText n ≠ toString n ++ "ns" ∧
    instant? (library.timeText n) = some n ∧
    ∀ m, minTimestamp ≤ m → m ≤ maxTimestamp → library.timeText m = library.timeText n → m = n := by
  obtain ⟨moment, hmoment, htext, hwritten, hread⟩ := h.exists_moment hmin hmax
  refine ⟨⟨moment, hmoment, htext⟩, fun hform => ?_, hread, fun m hlow hhigh hsame => ?_⟩
  · -- the letter of UTC is the last one, and no number of nanoseconds ends in it
    have hlast := hwritten.getLast?
    rw [hform, String.toList_append, List.getLast?_append] at hlast
    have hletter : some 's' = some 'Z' := hlast
    exact absurd hletter (by decide)
  · obtain ⟨-, -, -, -, hother⟩ := h.exists_moment hlow hhigh
    rw [hsame, hread] at hother
    exact (Option.some.inj hother).symm

end Timestamps

/-! ## The library of this development -/

theorem nanosecond_ofNanoseconds_lt (n : Int) : (DateTime.ofNanoseconds n).nanosecond < 10 ^ 9 := by
  show (n % perSecond).toNat < 10 ^ 9
  rw [perSecond]
  omega

/-- From the March of the year zero on, calendar and clock show each instant at its place. -/
theorem isAt_ofNanoseconds {n : Int} (h : 0 ≤ n / perSecond / perDay + daysBefore1970) :
    (DateTime.ofNanoseconds n).IsAt n := by
  obtain ⟨year, hyear, hisDate, hday⟩ := Date.ofDays_spec h
  have hsecond : (n / perSecond % perDay).toNat < 86400 := by
    rw [perDay]
    omega
  have hyearNat : (Date.ofDays (n / perSecond / perDay)).year.toNat = year := by
    rw [hyear, Int.toNat_natCast]
  refine ⟨?_, ?_, ?_, Nat.mod_lt _ (by decide), Nat.mod_lt _ (by decide),
    nanosecond_ofNanoseconds_lt n, ?_⟩
  · show 0 ≤ (Date.ofDays (n / perSecond / perDay)).year
    omega
  · show IsDate (Date.ofDays (n / perSecond / perDay)).year.toNat _ _
    rw [hyearNat]
    exact hisDate
  · show (n / perSecond % perDay).toNat / 3600 < 24
    omega
  · simp only [DateTime.ofNanoseconds]
    rw [hyearNat, hday, perDay, perSecond]
    omega

/-- In the years that have to be supported, calendar and clock show each instant at its place. -/
theorem isAt_of_supported {n : Int} (hfirst : startOfYear 1677 ≤ n) (hlast : n < startOfYear 2263) :
    (DateTime.ofNanoseconds n).IsAt n ∧ (DateTime.ofNanoseconds n).date.year ≤ 9999 := by
  have hat : (DateTime.ofNanoseconds n).IsAt n := by
    refine isAt_ofNanoseconds ?_
    rw [startOfYear_1677] at hfirst
    rw [perSecond, perDay, daysBefore1970]
    omega
  exact ⟨hat, hat.year_le hlast⟩

/-- **The library of this development is as documented.** -/
theorem documented_gregorian : gregorian.Documented where
  supports n hfirst hlast := by
    obtain ⟨hat, hyear⟩ := isAt_of_supported hfirst hlast
    have hnonneg := hat.year_nonneg
    exact ⟨n, if_pos ⟨by omega, hyear⟩⟩
  utc _ _ _ := rfl
  counts n moment hfirst hlast hmoment := by
    obtain ⟨-, hmoment⟩ := Option.ite_none_right_eq_some.mp hmoment
    rw [← Option.some.inj hmoment]
    exact (isAt_of_supported hfirst hlast).1
  writes moment _ hfirst hlast := by
    obtain ⟨digits, hdigits, hfraction⟩ := exists_isFraction (nanosecond_ofNanoseconds_lt moment)
    refine ⟨_, if_pos ⟨hfirst, hlast⟩, digits, hdigits, ?_⟩
    rw [String.toList_ofList, ← hfraction]
    rfl

/-- The least timestamp is a fraction of a second before a full one, in a year before 1970. -/
theorem timeText_lossless_minTimestamp :
    (∃ moment, gregorian.ofNanoseconds Decimal.minTimestamp = some moment ∧
      gregorian.rfc3339 moment = some (gregorian.timeText Decimal.minTimestamp)) ∧
    gregorian.timeText Decimal.minTimestamp ≠ toString Decimal.minTimestamp ++ "ns" ∧
    instant? (gregorian.timeText Decimal.minTimestamp) = some Decimal.minTimestamp ∧
    ∀ m, Decimal.minTimestamp ≤ m → m ≤ Decimal.maxTimestamp →
      gregorian.timeText m = gregorian.timeText Decimal.minTimestamp → m = Decimal.minTimestamp :=
  timeText_lossless documented_gregorian (Int.le_refl Decimal.minTimestamp) (by decide)

example : gregorian.timeText Decimal.minTimestamp = "1677-09-21T00:12:43.145224192Z" := by
  decide +kernel

end TimeLibrary

/-! ## Times of capture -/

theorem Decimal.timestamp?_mem {text : Bytes} {n : Int} (h : timestamp? text = some n) :
    minTimestamp ≤ n ∧ n ≤ maxTimestamp := by
  obtain ⟨-, hrange⟩ := Option.filter_eq_some_iff.mp h
  exact of_decide_eq_true hrange

/-- The time of capture is a number that 64 bits with a sign can hold, whatever the first line says.
-/
theorem Record.timestamp_mem (raw : Bytes) :
    Decimal.minTimestamp ≤ (ofBytes raw).timestamp ∧
      (ofBytes raw).timestamp ≤ Decimal.maxTimestamp := by
  show _ ≤ (Metadata.timestampOf? (Metadata.fields raw)).getD 0 ∧
    (Metadata.timestampOf? (Metadata.fields raw)).getD 0 ≤ _
  cases hread : Metadata.timestampOf? (Metadata.fields raw) with
  | none => decide
  | some n =>
    obtain ⟨field, -, hfield⟩ := Option.bind_eq_some_iff.mp hread
    exact Decimal.timestamp?_mem hfield

end TrafficReplay
