/-
# Dates survive their writing

The text of a date shows the fields of universal time down to the second, the year with a sign where
it has not just four digits.  Reading tries the form for exchange first.  It needs four digits in
front and an offset at the end, and the text of a date never has both.  The first of the other forms
is the one in which dates are written, so nothing else can take the text for another date.
-/

import RowFormula.Calendar.DateText
import RowFormula.Proofs.DateUnits
import RowFormula.Proofs.Instants

namespace RowFormula.Calendar

open Grammar (IsDigits)
open Number (digitsValue)

variable {cs rest : List Char} {n least most width : Nat} {y : Int}

/-! ### Numbers -/

/-- The digits of a number, with zeros in front up to a width. -/
def paddedDigits (width n : Nat) : List Char :=
  (Text.padLeft width '0' (Text.decimal n)).toList

theorem paddedDigits_eq (width n : Nat) : paddedDigits width n =
    List.replicate (width - (Nat.toDigits 10 n).length) '0' ++ Nat.toDigits 10 n := by
  rw [paddedDigits, Text.padLeft, Text.decimal, String.toList_append, String.toList_ofList,
    String.toList_ofList, ← String.length_toList, String.toList_ofList]

theorem isDigits_paddedDigits (width n : Nat) : IsDigits (paddedDigits width n) := by
  obtain ⟨hne, hdigits⟩ := Number.isDigits_toDigits n
  rw [paddedDigits_eq]
  exact ⟨List.append_ne_nil_of_right_ne_nil _ hne,
    List.forall_mem_append.2 ⟨Number.isDigit_zeros _, hdigits⟩⟩

theorem digitsValue_paddedDigits (width n : Nat) : digitsValue (paddedDigits width n) = n := by
  rw [paddedDigits_eq, Number.digitsValue_zeros_append, Number.digitsValue_toDigits]

theorem length_paddedDigits (hwidth : 0 < width) (h : n < 10 ^ width) :
    (paddedDigits width n).length = width := by
  have hle := Nat.toDigits_length 10 n width hwidth h
  rw [paddedDigits_eq, List.length_append, List.length_replicate]
  omega

theorem isBlank_of_isDigit {c : Char} (h : c.isDigit = true) : Text.isBlank c = false :=
  Number.isBlank_of_isNumeralChar (Number.isNumeralChar_of_isDigit h)

theorem trimFront_digits_append (h : IsDigits cs) : Text.trimFront (cs ++ rest) = cs ++ rest := by
  obtain ⟨c, cs, rfl⟩ := List.exists_cons_of_ne_nil h.1
  refine Text.trimFront_eq_self fun d hd => ?_
  obtain rfl := Option.some.inj hd
  exact isBlank_of_isDigit (h.2 _ List.mem_cons_self)

namespace DatePattern

/-- A number is read as far as its digits go, or as its width allows. -/
theorem number?_append (hcs : IsDigits cs) (hleast : least ≤ cs.length) (hmost : cs.length ≤ most)
    (hends : cs.length = most ∨ ∀ c ∈ rest.head?, c.isDigit = false)
    (hfits : digitsValue cs < Number.twoTo 63) :
    number? least most (cs ++ rest) = some (digitsValue cs, rest) := by
  have hdigits : ((cs ++ rest).take most).takeWhile Char.isDigit = cs := by
    rw [List.take_append, List.take_of_length_le hmost]
    refine (Grammar.takeWhile_dropWhile_append hcs.2 fun c hc => ?_).1
    rw [List.head?_take] at hc
    rcases hends with hlength | hrest
    · rw [hlength, Nat.sub_self, if_pos rfl] at hc
      cases hc
    · split at hc
      · cases hc
      · exact hrest c hc
  simp only [number?, hdigits, if_neg (not_lt.2 hleast), if_pos hfits, List.drop_left]

/-- Digits up to a width are read as a number, whatever follows. -/
theorem number?_paddedDigits (hwidth : 0 < width) (h : n < 10 ^ width)
    (hfits : n < Number.twoTo 63) :
    number? width width (paddedDigits width n ++ rest) = some (n, rest) := by
  have hlength : (paddedDigits width n).length = width := length_paddedDigits hwidth h
  rw [number?_append (isDigits_paddedDigits width n) hlength.ge hlength.le (.inl hlength)
    ((digitsValue_paddedDigits width n).trans_lt hfits), digitsValue_paddedDigits]

theorem number?_twoDigits (h : n < 100) :
    number? 2 2 (paddedDigits 2 n ++ rest) = some (n, rest) :=
  number?_paddedDigits two_pos h (h.trans (by decide))

/-- Digits in front are no sign. -/
theorem signedNumber?_of_isDigits (hcs : IsDigits cs) (f : NumericField) :
    signedNumber? f (cs ++ rest) = (number? 1 (numberShape f).1 (cs ++ rest)).map fun (n, rest) =>
      ((n : Int), rest) := by
  have hhead : ∀ c more, cs ++ rest = c :: more → c.isDigit = true := by
    obtain ⟨c, cs, rfl⟩ := List.exists_cons_of_ne_nil hcs.1
    intro d more heq
    exact (List.cons.inj heq).1 ▸ hcs.2 _ List.mem_cons_self
  simp only [signedNumber?, trimFront_digits_append hcs]
  split
  · rename_i more _ heq
    exact absurd (hhead _ more heq) (by decide)
  · rename_i more _ heq
    exact absurd (hhead _ more heq) (by decide)
  · rfl

theorem signedNumber?_twoDigits {f : NumericField} (hshape : numberShape f = (2, false))
    (h : n < 100) : signedNumber? f (paddedDigits 2 n ++ rest) = some ((n : Int), rest) := by
  have hlength : (paddedDigits 2 n).length = 2 := length_paddedDigits two_pos h
  have hfits : n < Number.twoTo 63 := h.trans (by decide)
  rw [signedNumber?_of_isDigits (isDigits_paddedDigits 2 n), hshape,
    number?_append (isDigits_paddedDigits 2 n) (by omega) hlength.le (.inl hlength)
      ((digitsValue_paddedDigits 2 n).trans_lt hfits), digitsValue_paddedDigits]
  rfl

/-- The digits of a year. -/
def yearDigits (y : Int) : List Char := (ClockReading.yearText y).toList

theorem yearDigits_of_mem (hfirst : 0 ≤ y) (hlast : y ≤ 9999) :
    yearDigits y = paddedDigits 4 y.toNat := by
  rw [yearDigits, ClockReading.yearText, if_pos ⟨hfirst, hlast⟩]
  rfl

theorem yearDigits_of_lt (h : y < 0) : yearDigits y = '-' :: paddedDigits 4 y.natAbs := by
  rw [yearDigits, ClockReading.yearText, if_neg fun h' => absurd h'.1 (not_le.2 h), if_pos h,
    String.toList_append]
  rfl

theorem yearDigits_of_gt (h : 9999 < y) : yearDigits y = '+' :: paddedDigits 4 y.natAbs := by
  rw [yearDigits, ClockReading.yearText, if_neg fun h' => absurd h'.2 (not_le.2 h),
    if_neg (by omega), String.toList_append]
  rfl

theorem isBlank_of_mem_yearDigits : ∀ c ∈ yearDigits y, Text.isBlank c = false := by
  have hdigits (k : Nat) : ∀ c ∈ paddedDigits 4 k, Text.isBlank c = false :=
    fun c hc => isBlank_of_isDigit ((isDigits_paddedDigits 4 k).2 c hc)
  rcases lt_or_ge y 0 with hneg | hnonneg
  · rw [yearDigits_of_lt hneg]
    exact List.forall_mem_cons.2 ⟨rfl, hdigits _⟩
  rcases lt_or_ge 9999 y with hbig | hsmall
  · rw [yearDigits_of_gt hbig]
    exact List.forall_mem_cons.2 ⟨rfl, hdigits _⟩
  · rw [yearDigits_of_mem hnonneg hsmall]
    exact hdigits _

theorem yearDigits_ne_nil (y : Int) : yearDigits y ≠ [] := by
  rcases lt_or_ge y 0 with hneg | hnonneg
  · rw [yearDigits_of_lt hneg]
    exact List.cons_ne_nil _ _
  rcases lt_or_ge 9999 y with hbig | hsmall
  · rw [yearDigits_of_gt hbig]
    exact List.cons_ne_nil _ _
  · rw [yearDigits_of_mem hnonneg hsmall]
    exact (isDigits_paddedDigits 4 _).1

theorem signedNumber?_minus (cs : List Char) : signedNumber? .year ('-' :: cs) =
    (number? 1 cs.length cs).map fun (n, rest) => (-(n : Int), rest) := rfl

theorem signedNumber?_plus (cs : List Char) : signedNumber? .year ('+' :: cs) =
    (number? 1 cs.length cs).map fun (n, rest) => ((n : Int), rest) := rfl

/-- A year is read in full, with its sign if it has one. -/
theorem signedNumber?_year (hfits : y.natAbs < 1000000)
    (hends : ∀ c ∈ rest.head?, c.isDigit = false) :
    signedNumber? .year (yearDigits y ++ rest) = some (y, rest) := by
  have hread {k most : Nat} (hk : k < 1000000) (hmost : (paddedDigits 4 k).length ≤ most) :
      number? 1 most (paddedDigits 4 k ++ rest) = some (k, rest) := by
    have hdigits := isDigits_paddedDigits 4 k
    have hlt : k < Number.twoTo 63 := hk.trans (by decide)
    rw [number?_append hdigits (List.length_pos_iff.2 hdigits.1) hmost (.inr hends)
      ((digitsValue_paddedDigits 4 k).trans_lt hlt), digitsValue_paddedDigits]
  have hlong (k : Nat) : (paddedDigits 4 k).length ≤ (paddedDigits 4 k ++ rest).length := by
    rw [List.length_append]
    exact Nat.le_add_right _ _
  rcases lt_or_ge y 0 with hneg | hnonneg
  · have hvalue : -(y.natAbs : Int) = y := by omega
    rw [yearDigits_of_lt hneg, List.cons_append, signedNumber?_minus, hread hfits (hlong _)]
    exact congrArg (fun v => some (v, rest)) hvalue
  rcases lt_or_ge 9999 y with hbig | hsmall
  · have hvalue : (y.natAbs : Int) = y := by omega
    rw [yearDigits_of_gt hbig, List.cons_append, signedNumber?_plus, hread hfits (hlong _)]
    exact congrArg (fun v => some (v, rest)) hvalue
  · have hlt : y.toNat < 10 ^ 4 := by omega
    have hwidth : (numberShape .year).1 = 4 := rfl
    rw [yearDigits_of_mem hnonneg hsmall, signedNumber?_of_isDigits (isDigits_paddedDigits 4 _),
      hwidth, hread (by omega) (length_paddedDigits (by decide) hlt).le]
    exact congrArg (fun v => some (v, rest)) (Int.toNat_of_nonneg hnonneg)

end DatePattern

/-! ### The text -/

/-- The characters between the fields of a date in its text. -/
def textOf (year month day hour minute second : List Char) : List Char :=
  year ++ '-' :: (month ++ '-' :: (day ++ ' ' :: (hour ++ ':' :: (minute ++ ':' :: second))))

section Ends

variable {year month day hour minute second : List Char} {c : Char}

theorem mem_of_head?_textOf (hne : year ≠ [])
    (hc : c ∈ (textOf year month day hour minute second).head?) : c ∈ year := by
  rw [textOf, List.head?_append_of_ne_nil _ hne] at hc
  exact List.mem_of_mem_head? hc

theorem mem_of_getLast?_textOf (hne : second ≠ [])
    (hc : c ∈ (textOf year month day hour minute second).getLast?) : c ∈ second := by
  have hparts : textOf year month day hour minute second =
      (year ++ '-' :: (month ++ '-' :: (day ++ ' ' :: (hour ++ ':' :: (minute ++ [':']))))) ++
        second := by
    simp [textOf]
  rw [hparts, List.getLast?_append_of_ne_nil _ hne] at hc
  exact List.mem_of_mem_getLast? hc

end Ends

/-- The text of an instant shows the fields of universal time. -/
theorem toList_text {i : Instant} (hi : i.nanos < billion) :
    i.text.toList = textOf (DatePattern.yearDigits i.utc.date.year)
      (paddedDigits 2 i.utc.date.month) (paddedDigits 2 i.utc.date.day)
      (paddedDigits 2 i.utc.hour) (paddedDigits 2 i.utc.minute)
      (paddedDigits 2 i.utc.secondOfMinute) := by
  have hnanos : i.utc.nanos / billion = 0 := Nat.div_eq_of_lt hi
  have hsecond : i.utc.shownSecond = i.utc.secondOfMinute := by
    rw [ClockReading.shownSecond, hnanos, Nat.add_zero]
  have hhyphen : "-".toList = ['-'] := rfl
  have hcolon : ":".toList = [':'] := rfl
  have hblank : " ".toList = [' '] := rfl
  simp only [Instant.text, ClockReading.dateText, ClockReading.timeText, ClockReading.twoDigits,
    hsecond, String.toList_append, hhyphen, hcolon, hblank, textOf, DatePattern.yearDigits,
    paddedDigits, List.append_assoc, List.cons_append, List.nil_append]

/-- Fields that say what clocks show, to the second. -/
def ClockReading.fields (c : ClockReading) : DateFields where
  year := some c.date.year
  month := some c.date.month
  day := some c.date.day
  halfDay := some (c.hour / 12 : Int)
  dialHour := some (c.hour % 12 : Int)
  minute := some c.minute
  second := some c.secondOfMinute

namespace DatePattern

open NumericField

/-- The items of the form in which dates are written. -/
def writtenForm : List PatternItem :=
  [zeroed year, lit '-', zeroed month, lit '-', zeroed day, gap, zeroed hour, lit ':',
    zeroed minute, lit ':', zeroed second, .named .fraction]

theorem items?_head : items? .standard dateTimeForms[0] = some writtenForm := by
  decide

theorem enter_none {low high v : Int} (hlow : low ≤ v) (hhigh : v ≤ high) :
    DateFields.enter low high v none = .ok (some v) := by
  rw [DateFields.enter, if_neg (by omega)]
  rfl

theorem readItem?_literal (c : Char) (f : DateFields) :
    readItem? (lit c) f (c :: rest) = some (f, rest) := by
  simp [readItem?, lit, dropText?]

theorem readItem?_gap (hcs : IsDigits cs) (f : DateFields) :
    readItem? gap f (' ' :: (cs ++ rest)) = some (f, cs ++ rest) := by
  have hblank : Text.trimFront (' ' :: (cs ++ rest)) = Text.trimFront (cs ++ rest) := rfl
  rw [gap, readItem?, hblank, trimFront_digits_append hcs]

/-- Two digits are entered as the number of their field. -/
theorem readItem?_twoDigits {field : NumericField} {f g : DateFields}
    (hshape : numberShape field = (2, false)) (h : n < 100) (henter : enter? field n f = some g) :
    readItem? (zeroed field) f (paddedDigits 2 n ++ rest) = some (g, rest) := by
  rw [zeroed, readItem?, readNumeric?, signedNumber?_twoDigits hshape h]
  show (enter? field n f >>= fun f => some (f, rest)) = _
  rw [henter]
  rfl

theorem readItem?_year {f g : DateFields} (hfits : y.natAbs < 1000000)
    (hends : ∀ c ∈ rest.head?, c.isDigit = false) (henter : enter? year y f = some g) :
    readItem? (zeroed year) f (yearDigits y ++ rest) = some (g, rest) := by
  rw [zeroed, readItem?, readNumeric?, signedNumber?_year hfits hends]
  show (enter? year y f >>= fun f => some (f, rest)) = _
  rw [henter]
  rfl

theorem readItems?_cons {item : PatternItem} {items : List PatternItem} {f g : DateFields}
    (h : readItem? item f cs = some (g, rest)) :
    readItems? (item :: items) f cs = readItems? items g rest := by
  rw [readItems?, h]
  rfl

section Enter

variable {f : DateFields} {v : Int}

/-- The fields of a date and a time, each entered where there is none yet. -/
theorem enter?_year (hf : f.year = none) (hfits : v.natAbs < 1000000) :
    enter? year v f = some { f with year := some v } := by
  rw [enter?, DateFields.enterNumber, hf, enter_none]
  · rfl
  · unfold DateFields.minInt32
    omega
  · unfold DateFields.maxInt32
    omega

theorem enter?_month (hf : f.month = none) (hfirst : 1 ≤ v) (hlast : v ≤ 12) :
    enter? month v f = some { f with month := some v } := by
  rw [enter?, DateFields.enterNumber, hf, enter_none hfirst hlast]
  rfl

theorem enter?_day (hf : f.day = none) (hfirst : 1 ≤ v) (hlast : v ≤ 31) :
    enter? day v f = some { f with day := some v } := by
  rw [enter?, DateFields.enterNumber, hf, enter_none hfirst hlast]
  rfl

theorem enter?_hour (hhalf : f.halfDay = none) (hdial : f.dialHour = none) (hfirst : 0 ≤ v)
    (hlast : v ≤ 23) :
    enter? hour v f = some { f with halfDay := some (v / 12), dialHour := some (v % 12) } := by
  rw [enter?, DateFields.enterNumber, DateFields.enterHour, enter_none hfirst hlast, hhalf, hdial,
    enter_none (by omega) (by omega), enter_none (by omega) (by omega)]
  rfl

theorem enter?_minute (hf : f.minute = none) (hfirst : 0 ≤ v) (hlast : v ≤ 59) :
    enter? minute v f = some { f with minute := some v } := by
  rw [enter?, DateFields.enterNumber, hf, enter_none hfirst hlast]
  rfl

theorem enter?_second (hf : f.second = none) (hfirst : 0 ≤ v) (hlast : v ≤ 60) :
    enter? second v f = some { f with second := some v } := by
  rw [enter?, DateFields.enterNumber, hf, enter_none hfirst hlast]
  rfl

end Enter

theorem readItem?_fraction_nil (f : DateFields) :
    readItem? (.named .fraction) f [] = some (f, []) := rfl

/-- A time of day is read into fields that have none yet. -/
theorem readItems?_time {c : ClockReading} (hc : c.IsProper) (y m d : Int) :
    readItems? [zeroed hour, lit ':', zeroed minute, lit ':', zeroed second, .named .fraction]
        { year := some y, month := some m, day := some d }
        (paddedDigits 2 c.hour ++ ':' :: (paddedDigits 2 c.minute ++ ':' ::
          paddedDigits 2 c.secondOfMinute)) =
      some { year := some y, month := some m, day := some d, halfDay := some (c.hour / 12 : Int),
             dialHour := some (c.hour % 12 : Int), minute := some c.minute,
             second := some c.secondOfMinute } := by
  have hhour := hc.hour_lt
  have hminute := c.minute_lt
  have hsecond := c.secondOfMinute_lt
  rw [readItems?_cons
      (readItem?_twoDigits rfl (by omega) (enter?_hour rfl rfl (by omega) (by omega))),
    readItems?_cons (readItem?_literal _ _),
    readItems?_cons
      (readItem?_twoDigits rfl (by omega) (enter?_minute rfl (by omega) (by omega))),
    readItems?_cons (readItem?_literal _ _), ← List.append_nil (paddedDigits 2 c.secondOfMinute),
    readItems?_cons
      (readItem?_twoDigits rfl (by omega) (enter?_second rfl (by omega) (by omega))),
    readItems?_cons (readItem?_fraction_nil _), readItems?]

/-- What clocks show is read back from its text. -/
theorem readItems?_textOf {c : ClockReading} (hc : c.IsProper)
    (hyear : c.date.year.natAbs < 1000000) :
    readItems? writtenForm {} (textOf (yearDigits c.date.year) (paddedDigits 2 c.date.month)
      (paddedDigits 2 c.date.day) (paddedDigits 2 c.hour) (paddedDigits 2 c.minute)
      (paddedDigits 2 c.secondOfMinute)) = some c.fields := by
  have hmonth := hc.date.month_le
  have hmonth' := hc.date.one_le_month
  have hday := hc.date.day_le_31
  have hday' := hc.date.one_le_day
  have hhyphen : ∀ cs : List Char, ∀ d ∈ ('-' :: cs).head?, d.isDigit = false := by
    intro cs d hd
    obtain rfl := Option.some.inj hd
    rfl
  rw [textOf, writtenForm,
    readItems?_cons (readItem?_year hyear (hhyphen _) (enter?_year rfl hyear)),
    readItems?_cons (readItem?_literal _ _),
    readItems?_cons
      (readItem?_twoDigits rfl (by omega) (enter?_month rfl (by omega) (by omega))),
    readItems?_cons (readItem?_literal _ _),
    readItems?_cons (readItem?_twoDigits rfl (by omega) (enter?_day rfl (by omega) (by omega))),
    readItems?_cons (readItem?_gap (isDigits_paddedDigits _ _) _), readItems?_time hc]
  rfl

/-! ### The form for exchange -/

/-- A sign is no digit. -/
theorem strictExchange?_cons {c : Char} (hc : c.isDigit = false) (f : DateFields) :
    strictExchange? f (c :: cs) = none := by
  have hnumber : number? 4 4 (c :: cs) = none := by
    simp [number?, List.take_succ_cons, hc]
  rw [strictExchange?, hnumber]
  rfl

/-- Nothing is left over behind a time of day. -/
theorem strictTime?_rest {hours minutes seconds : Nat} (hhours : hours < 100)
    (hminutes : minutes < 100) (hseconds : seconds < 100) (f : DateFields) :
    ∀ read ∈ strictTime? f (paddedDigits 2 hours ++ ':' :: (paddedDigits 2 minutes ++ ':' ::
      paddedDigits 2 seconds)), read.2 = [] := by
  intro read hread
  have hlast : number? 2 2 (paddedDigits 2 seconds) = some (seconds, []) := by
    rw [← List.append_nil (paddedDigits 2 seconds), number?_twoDigits hseconds]
  simp only [strictTime?, number?_twoDigits hhours, number?_twoDigits hminutes, hlast, colon,
    Option.bind_eq_bind, Option.bind_some, Option.mem_def, Option.bind_eq_some_iff] at hread
  obtain ⟨_, -, _, -, _, -, hread⟩ := hread
  exact congrArg Prod.snd (Option.some.inj hread).symm

/-- After four digits and all else the offset is not there. -/
theorem strictExchange?_fourDigits {k months days hours minutes seconds : Nat} (hk : k < 10000)
    (hmonths : months < 100) (hdays : days < 100) (hhours : hours < 100)
    (hminutes : minutes < 100) (hseconds : seconds < 100) (f : DateFields) :
    strictExchange? f (textOf (paddedDigits 4 k) (paddedDigits 2 months) (paddedDigits 2 days)
      (paddedDigits 2 hours) (paddedDigits 2 minutes) (paddedDigits 2 seconds)) = none := by
  have hyear (rest : List Char) : number? 4 4 (paddedDigits 4 k ++ rest) = some (k, rest) :=
    number?_paddedDigits (by decide) hk (hk.trans (by decide))
  simp only [strictExchange?, textOf, hyear, hyphen, number?_twoDigits hmonths,
    number?_twoDigits hdays, Option.bind_eq_bind, Option.bind_some]
  refine Option.bind_eq_none_iff.2 fun f _ => Option.bind_eq_none_iff.2 fun f _ =>
    Option.bind_eq_none_iff.2 fun f _ => ?_
  refine Option.bind_eq_none_iff.2 fun cs hcs => Option.bind_eq_none_iff.2 fun read hread => ?_
  obtain rfl := Option.some.inj hcs
  rw [strictTime?_rest hhours hminutes hseconds f read hread]
  rfl

end DatePattern

/-! ### From fields to instants -/

theorem Date.ofParts?_self {d : Date} (hd : d.IsProper) (hfirst : minYear ≤ d.year)
    (hlast : d.year ≤ maxYear) : Date.ofParts? d.year d.month d.day = some d := by
  have hexists : d.exists? = true := by
    simp only [Date.exists?, Bool.and_eq_true, decide_eq_true_eq]
    exact ⟨⟨⟨hd.one_le_day, hd.day_le⟩, hfirst⟩, hlast⟩
  exact if_pos hexists

namespace ClockReading

variable {c : ClockReading}

/-- No other field was read that the date could contradict. -/
theorem agrees_fields (c : ClockReading) (d : Date) :
    c.fields.agreesOnIsoWeek d = true ∧ c.fields.agreesOnOrdinal d = true := by
  simp [DateFields.agreesOnIsoWeek, DateFields.agreesOnOrdinal, DateFields.agrees, fields]

theorem toDate_fields (hc : c.IsProper) (hfirst : minYear ≤ c.date.year)
    (hlast : c.date.year ≤ maxYear) : c.fields.toDate = .ok c.date := by
  have hparts : DateFields.existing (Date.ofParts? c.date.year (Int.toNat c.date.month)
      (Int.toNat c.date.day)) = .ok c.date := by
    rw [Int.toNat_natCast, Int.toNat_natCast, Date.ofParts?_self hc.date hfirst hlast]
    rfl
  obtain ⟨hweek, hordinal⟩ := c.agrees_fields c.date
  show (do
    let date ← DateFields.existing (Date.ofParts? c.date.year (Int.toNat c.date.month)
      (Int.toNat c.date.day))
    let found : Date × Bool :=
      (date, c.fields.agreesOnIsoWeek date && c.fields.agreesOnOrdinal date)
    if !found.2 then throw FieldFault.contradiction
    else if !DateFields.agrees none ((found.1.month + 2) / 3 : Nat) then
      throw FieldFault.contradiction
    else pure found.1) = Except.ok c.date
  rw [hparts]
  show (if !(c.fields.agreesOnIsoWeek c.date && c.fields.agreesOnOrdinal c.date) then _ else _) = _
  rw [hweek, hordinal]
  rfl

/-- The hour is put together from its half of the day and its place on the dial. -/
theorem toTime_fields (c : ClockReading) : c.fields.toTime = .ok (c.second, 0) := by
  have hsecond : ¬ (c.secondOfMinute : Int) = 60 := by
    have hlt := c.secondOfMinute_lt
    omega
  have htotal : ((12 * (c.hour / 12 : Int) + c.hour % 12) * 3600 + c.minute * 60 +
      c.secondOfMinute).toNat = c.second := by
    unfold hour minute secondOfMinute
    omega
  simp only [DateFields.toTime, fields, Option.getD_some, hsecond, if_false, htotal]
  rfl

theorem toReading_fields (hc : c.IsProper) (hfirst : minYear ≤ c.date.year)
    (hlast : c.date.year ≤ maxYear) :
    c.fields.toReading 0 = .ok { c with nanos := 0 } := by
  rw [DateFields.toReading, toDate_fields hc hfirst hlast, toTime_fields]
  rfl

end ClockReading

/-! ### Reading the text of a date -/

/-- Nothing is cut off a text without blanks at its ends. -/
theorem trim_eq_self {text : String} (hfirst : ∀ c ∈ text.toList.head?, Text.isBlank c = false)
    (hlast : ∀ c ∈ text.toList.getLast?, Text.isBlank c = false) : Text.trim text = text := by
  have hback : text.toList.reverse.dropWhile Text.isBlank = text.toList.reverse :=
    Text.trimFront_eq_self fun c hc => hlast c (List.head?_reverse ▸ hc)
  rw [Text.trim, Text.trimFront_eq_self hfirst, Text.trimBack, hback, List.reverse_reverse,
    String.ofList_toList]

namespace Instant

variable {i j : Instant}

theorem year_utc_mem (hi : i.IsPlain) :
    minYear ≤ i.utc.date.year ∧ i.utc.date.year ≤ maxYear :=
  year_mem_of_supports hi.isSupported

theorem trim_text (hi : i.IsPlain) : Text.trim i.text = i.text := by
  have htext := toList_text hi.nanos_lt
  refine trim_eq_self (fun c hc => ?_) fun c hc => ?_
  · rw [htext] at hc
    exact DatePattern.isBlank_of_mem_yearDigits c
      (mem_of_head?_textOf (DatePattern.yearDigits_ne_nil _) hc)
  · rw [htext] at hc
    have hdigits := isDigits_paddedDigits 2 i.utc.secondOfMinute
    exact isBlank_of_isDigit (hdigits.2 c (mem_of_getLast?_textOf hdigits.1 hc))

/-- The form for exchange does not take the text of a date. -/
theorem readExchange?_text (hi : i.IsPlain) : DatePattern.readExchange? i.text = none := by
  have hproper : i.utc.IsProper := ClockReading.isProper_ofSeconds _ _
  have hmonth := hproper.date.month_le
  have hday := hproper.date.day_le_31
  have hhour := hproper.hour_lt
  have hminute := i.utc.minute_lt
  have hsecond := i.utc.secondOfMinute_lt
  rw [DatePattern.readExchange?, toList_text hi.nanos_lt]
  rcases lt_or_ge i.utc.date.year 0 with hneg | hnonneg
  · rw [DatePattern.yearDigits_of_lt hneg, textOf, List.cons_append,
      DatePattern.strictExchange?_cons rfl]
    rfl
  rcases lt_or_ge 9999 i.utc.date.year with hbig | hsmall
  · rw [DatePattern.yearDigits_of_gt hbig, textOf, List.cons_append,
      DatePattern.strictExchange?_cons rfl]
    rfl
  · rw [DatePattern.yearDigits_of_mem hnonneg hsmall,
      DatePattern.strictExchange?_fourDigits (by omega) (by omega) (by omega) (by omega) (by omega)
        (by omega)]
    rfl

/-- The form in which dates are written takes it for this date. -/
theorem readDateTime?_text (hi : i.IsPlain) :
    DatePattern.readDateTime? DatePattern.writtenForm i.text = some ⟨i.seconds, 0⟩ := by
  have hproper : i.utc.IsProper := ClockReading.isProper_ofSeconds _ _
  obtain ⟨hfirst, hlast⟩ := year_utc_mem hi
  have hyear : i.utc.date.year.natAbs < 1000000 := by
    unfold minYear maxYear at *
    omega
  have hseconds : i.utc.seconds = i.seconds := ClockReading.seconds_ofSeconds _ _
  rw [DatePattern.readDateTime?, DatePattern.fields?, toList_text hi.nanos_lt,
    DatePattern.readItems?_textOf hproper hyear]
  show (i.utc.fields.toReading 0).toOption.bind _ = _
  rw [ClockReading.toReading_fields hproper hfirst hlast]
  exact congrArg (fun s => some (Instant.mk s 0)) hseconds

/-- The text of a date is read as this date without its fraction of a second. -/
theorem readDateText?_text (hi : i.IsPlain) : readDateText? i.text = some ⟨i.seconds, 0⟩ := by
  have hforms : readForms? DatePattern.readDateTime? dateTimeForms i.text =
      some ⟨i.seconds, 0⟩ := by
    refine List.findSome?_eq_some_iff.2 ⟨[], _, _, rfl, ?_, fun _ h => absurd h List.not_mem_nil⟩
    show ((DatePattern.items? .standard dateTimeForms[0]).bind fun items =>
      DatePattern.readDateTime? items i.text) = _
    rw [DatePattern.items?_head, Option.bind_some, readDateTime?_text hi]
  rw [readDateText?, trim_text hi, readExchange?_text hi, hforms]
  rfl

/-- Dates have the same text if they lie in the same second, and else they have not. -/
theorem text_eq_iff (hi : i.IsPlain) (hj : j.IsPlain) : i.text = j.text ↔ i.seconds = j.seconds := by
  constructor
  · intro h
    have hread := readDateText?_text hi
    rw [h, readDateText?_text hj] at hread
    exact (congrArg seconds (Option.some.inj hread)).symm
  · intro h
    obtain ⟨s, nanos⟩ := i
    obtain ⟨s', nanos'⟩ := j
    obtain rfl : s = s' := h
    have hdate : (utc ⟨s, nanos⟩).date = (utc ⟨s, nanos'⟩).date := rfl
    have hsecond : (utc ⟨s, nanos⟩).second = (utc ⟨s, nanos'⟩).second := rfl
    apply String.toList_injective
    rw [toList_text hi.nanos_lt, toList_text hj.nanos_lt]
    simp only [ClockReading.hour, ClockReading.minute, ClockReading.secondOfMinute, hdate, hsecond]

end Instant

end RowFormula.Calendar

namespace RowFormula.Catalog

open Calendar

variable {d e : Instant}

theorem mem_functions_of_dateConversion {f : Function} (hf : f ∈ dateConversion) :
    f ∈ functions := by
  simp only [functions, List.mem_append]
  tauto

/-- Reading a text as a date. -/
theorem answers_date_parse (text : String) :
    Answers "date_parse" [.ofString text] .date (.date (readDateText? text)) := by
  have hmem : dateConversion[0] ∈ functions :=
    mem_functions_of_dateConversion (List.mem_of_getElem? (i := 0) rfl)
  have hdate : dateOf? (.ofString text) = readDateText? text := by
    rw [Value.ofString, dateOf?, Option.bind_some]
  rw [← hdate]
  refine answers_of_mem hmem ?_ (fun _ _ => rfl) fun _ _ => rfl
  exact (by decide : dateConversion[0].signature.Accepts [.string])

/-- A date becomes its text wherever it is added to the empty one. -/
theorem concat_ofInstant (d : Instant) :
    Value.arithmetic .add .string (.ofString "") (.ofInstant d) = .ofString d.text := by
  show Value.ofString ("" ++ d.text) = _
  rw [String.empty_append]

/-- A date outside of leap seconds is read back from its text, without its fraction of a second.  So
reading gives an equal date exactly if there is no fraction, and such dates have the same text
exactly if they are equal. -/
theorem dates_survive_rendering :
    (∀ d : Instant, d.IsPlain → readDateText? d.text = some ⟨d.seconds, 0⟩ ∧
      ∃ v, Answers "date_parse" [Value.arithmetic .add .string (.ofString "") (.ofInstant d)] .date
          v ∧ (Value.compare .eq v (.ofInstant d) = true ↔ d.nanos = 0)) ∧
    ∀ d e : Instant, d.IsPlain → e.IsPlain → (d.text = e.text ↔ d.seconds = e.seconds) ∧
      (d.nanos = 0 → e.nanos = 0 → (d.text = e.text ↔ d = e)) := by
  refine ⟨fun d hd => ⟨d.readDateText?_text hd, .ofInstant ⟨d.seconds, 0⟩, ?_, ?_⟩,
    fun d e hd he => ⟨Instant.text_eq_iff hd he, fun hwhole hwhole' => ?_⟩⟩
  · have hanswers := answers_date_parse d.text
    rw [Instant.readDateText?_text hd, ← concat_ofInstant d] at hanswers
    exact hanswers
  · obtain ⟨s, nanos⟩ := d
    show (Option.some (Instant.mk s 0) == some ⟨s, nanos⟩) = true ↔ nanos = 0
    rw [beq_iff_eq, Option.some.injEq, Instant.mk.injEq, and_iff_right rfl, eq_comm]
  · rw [Instant.text_eq_iff hd he]
    obtain ⟨s, nanos⟩ := d
    obtain ⟨s', nanos'⟩ := e
    obtain rfl : nanos = 0 := hwhole
    obtain rfl : nanos' = 0 := hwhole'
    rw [Instant.mk.injEq, and_iff_left rfl]

/-- Years before zero and beyond four digits have a sign. -/
theorem dates_survive_rendering_of_signed_years :
    let early : Instant := ⟨-100000000000, 0⟩
    let late : Instant := ⟨300000000000, 500000000⟩
    (early.IsPlain ∧ late.IsPlain) ∧
      (early.text = "-1199-02-15 14:13:20" ∧ late.text = "+11476-08-15 05:20:00") ∧
      readDateText? early.text = some early ∧ readDateText? late.text = some ⟨300000000000, 0⟩ ∧
      early.text ≠ late.text := by
  intro early late
  have hearly : early.IsPlain := ⟨by decide, by decide⟩
  have hlate : late.IsPlain := ⟨by decide, by decide⟩
  obtain ⟨hread, htexts⟩ := dates_survive_rendering
  refine ⟨⟨hearly, hlate⟩, ⟨by decide, by decide⟩, (hread early hearly).1,
    (hread late hlate).1, fun h => ?_⟩
  exact absurd ((htexts early late hearly hlate).1.1 h) (by decide)

end RowFormula.Catalog
