/-
# Setting and reading units

Setting a unit of a date changes one field of what the clocks of a zone show and looks for the
first instant that shows the result.  That instant shows it: if the clocks skip the reading there is
none, and if they show it twice both instants do.  So the unit reads back, and all other fields are
as they were.  A week is no field beside the others.  Setting it keeps the day of the week, the time
of day and the ISO year.  Nothing is assumed of the zone but that its clocks are ahead by an offset
that depends on the instant.
-/

import RowFormula.Proofs.CalendarDates
import RowFormula.Proofs.DateShifts
import RowFormula.Proofs.Overflow

namespace RowFormula

namespace Calendar

/-! ### Readings -/

namespace ClockReading

variable {c c' : ClockReading}

/-- A day that exists and a time of day. -/
structure IsProper (c : ClockReading) : Prop where
  date : c.date.IsProper
  second_lt : c.second < 86400

theorem isProper_ofSeconds (seconds : Int) (nanos : Nat) : (ofSeconds seconds nanos).IsProper := by
  refine ⟨(Date.ofDayNumber_spec _).1, ?_⟩
  show (seconds % 86400).toNat < 86400
  omega

/-- A reading is found again from the seconds that it is after the start of 1970. -/
theorem ofSeconds_seconds (h : c.IsProper) : ofSeconds c.seconds c.nanos = c := by
  have hsecond := h.second_lt
  have hday : c.seconds / 86400 = c.date.dayNumber := by
    unfold seconds
    omega
  have hrest : (c.seconds % 86400).toNat = c.second := by
    unfold seconds
    omega
  rw [ofSeconds, hday, hrest, Date.ofDayNumber_dayNumber h.date]

theorem minute_lt (c : ClockReading) : c.minute < 60 :=
  Nat.mod_lt _ (by decide)

theorem secondOfMinute_lt (c : ClockReading) : c.secondOfMinute < 60 :=
  Nat.mod_lt _ (by decide)

theorem IsProper.hour_lt (h : c.IsProper) : c.hour < 24 :=
  Nat.div_lt_of_lt_mul h.second_lt

/-- One unit of a reading. -/
def field (c : ClockReading) : DateUnit → Int
  | .year => c.date.year
  | .month => c.date.month
  | .week => c.date.isoWeek
  | .day => c.date.day
  | .hour => c.hour
  | .minute => c.minute
  | .second => c.secondOfMinute
  | .millisecond => c.nanos / 1000000

/-- A time of day that a clock can show is shown, and the date is kept. -/
theorem IsProper.withTime {hour minute second : Nat} (hc : c.IsProper) (hhour : hour < 24)
    (hminute : minute < 60) (hsecond : second < 60) :
    (c.withTime hour minute second).IsProper ∧
      ∀ unit, (c.withTime hour minute second).field unit =
        match unit with
        | .hour => hour
        | .minute => minute
        | .second => second
        | unit => c.field unit := by
  refine ⟨⟨hc.date, show 3600 * hour + 60 * minute + second < 86400 by omega⟩, fun unit => ?_⟩
  cases unit with
  | year | month | week | day | millisecond => rfl
  | hour =>
      have hshown : (3600 * hour + 60 * minute + second) / 3600 = hour := by omega
      exact congrArg Int.ofNat hshown
  | minute =>
      have hshown : (3600 * hour + 60 * minute + second) / 60 % 60 = minute := by omega
      exact congrArg Int.ofNat hshown
  | second =>
      have hshown : (3600 * hour + 60 * minute + second) % 60 = second := by omega
      exact congrArg Int.ofNat hshown

/-- What the readings have in common if only this unit was set. -/
def Keeps (c c' : ClockReading) : DateUnit → Prop
  | .week => c'.date.weekday = c.date.weekday ∧ c'.date.isoYear = c.date.isoYear ∧
      c'.second = c.second ∧ c'.nanos = c.nanos
  | unit => ∀ other, other ≠ unit → other ≠ .week → c'.field other = c.field other

end ClockReading

namespace Zone

variable {c c' : ClockReading} {i i' : Instant} {n : Int} {unit : DateUnit} {z : Zone}

theorem get_eq (z : Zone) (i : Instant) (unit : DateUnit) :
    z.get i unit = (z.reading i).field unit := by
  cases unit <;> rfl

/-- The first instant that shows a reading shows it. -/
theorem reading_of_earliest? (hc : c.IsProper) (h : z.earliest? c = some i) : z.reading i = c := by
  unfold earliest? at h
  split at h
  · cases h
  · rename_i t hmin
    have hlocal := mem_instantsOf.1 (List.min?_mem hmin)
    dsimp only at h
    split at h
    · obtain rfl := Option.some.inj h
      show ClockReading.ofSeconds (t + z.rule.offsetAt t) c.nanos = c
      rw [hlocal, ClockReading.ofSeconds_seconds hc]
    · cases h

/-- Units other than the year take no negative numbers. -/
theorem exists_nat_of_replaceField? (hunit : unit ≠ .year) (h : replaceField? c n unit = some c') :
    ∃ k : Nat, n = k := by
  refine Int.eq_ofNat_of_zero_le (not_lt.1 fun hnegative => ?_)
  cases unit with
  | year => exact hunit rfl
  | _ =>
      simp only [replaceField?, hnegative, if_true] at h
      cases h

/-- Replacing a unit by `n` gives a reading that shows `n` there and is otherwise the same. -/
theorem replaceField?_spec (hc : c.IsProper) (h : replaceField? c n unit = some c') :
    c'.IsProper ∧ c'.field unit = n ∧ c.Keeps c' unit ∧ n.natAbs ≤ 262143 := by
  by_cases hyear : unit = .year
  · subst hyear
    obtain ⟨date, hdate, rfl⟩ := Option.map_eq_some_iff.1 h
    obtain ⟨rfl, hproper, hmin, hmax⟩ := Date.ofParts?_eq_some hdate
    refine ⟨⟨hproper, hc.second_lt⟩, rfl, fun other hother hweek => ?_, ?_⟩
    · cases other <;> first | rfl | exact absurd rfl hother | exact absurd rfl hweek
    · unfold minYear maxYear at *
      omega
  obtain ⟨k, rfl⟩ := exists_nat_of_replaceField? hyear h
  have hnonneg : ¬ (k : Int) < 0 := by omega
  have hminute := c.minute_lt
  have hsecond := c.secondOfMinute_lt
  cases unit with
  | year => exact absurd rfl hyear
  | month =>
      simp only [replaceField?, hnonneg, if_false, Int.toNat_natCast] at h
      obtain ⟨date, hdate, rfl⟩ := Option.map_eq_some_iff.1 h
      obtain ⟨rfl, hproper, -⟩ := Date.ofParts?_eq_some hdate
      have hle : k ≤ 12 := hproper.month_le
      refine ⟨⟨hproper, hc.second_lt⟩, rfl, fun other hother hweek => ?_, by omega⟩
      cases other <;> first | rfl | exact absurd rfl hother | exact absurd rfl hweek
  | day =>
      simp only [replaceField?, hnonneg, if_false, Int.toNat_natCast] at h
      obtain ⟨date, hdate, rfl⟩ := Option.map_eq_some_iff.1 h
      obtain ⟨rfl, hproper, -⟩ := Date.ofParts?_eq_some hdate
      have hle : k ≤ 31 := hproper.day_le_31
      refine ⟨⟨hproper, hc.second_lt⟩, rfl, fun other hother hweek => ?_, by omega⟩
      cases other <;> first | rfl | exact absurd rfl hother | exact absurd rfl hweek
  | week =>
      simp only [replaceField?, hnonneg, if_false, Int.toNat_natCast] at h
      obtain ⟨date, hdate, rfl⟩ := Option.map_eq_some_iff.1 h
      obtain ⟨hproper, hisoYear, hweek, hday, hle⟩ := Date.ofIsoWeek?_spec hdate
      change k ≤ 53 at hle
      exact ⟨⟨hproper, hc.second_lt⟩, congrArg Int.ofNat hweek, ⟨hday, hisoYear, rfl, rfl⟩,
        by omega⟩
  | hour =>
      simp only [replaceField?, hnonneg, if_false, Int.toNat_natCast] at h
      split at h
      · rename_i hlt
        obtain rfl := Option.some.inj h
        obtain ⟨hproper, hfield⟩ := hc.withTime hlt hminute hsecond
        refine ⟨hproper, hfield .hour, fun other hother _ => ?_, by omega⟩
        rw [hfield]
        cases other <;> first | rfl | exact absurd rfl hother
      · cases h
  | minute =>
      simp only [replaceField?, hnonneg, if_false, Int.toNat_natCast] at h
      split at h
      · rename_i hlt
        obtain rfl := Option.some.inj h
        obtain ⟨hproper, hfield⟩ := hc.withTime hc.hour_lt hlt hsecond
        refine ⟨hproper, hfield .minute, fun other hother _ => ?_, by omega⟩
        rw [hfield]
        cases other <;> first | rfl | exact absurd rfl hother
      · cases h
  | second =>
      simp only [replaceField?, hnonneg, if_false, Int.toNat_natCast] at h
      split at h
      · rename_i hlt
        obtain rfl := Option.some.inj h
        obtain ⟨hproper, hfield⟩ := hc.withTime hc.hour_lt hminute hlt
        refine ⟨hproper, hfield .second, fun other hother _ => ?_, by omega⟩
        rw [hfield]
        cases other <;> first | rfl | exact absurd rfl hother
      · cases h
  | millisecond =>
      simp only [replaceField?, hnonneg, if_false, Int.toNat_natCast] at h
      split at h
      · obtain rfl := Option.some.inj h
        refine ⟨⟨hc.date, hc.second_lt⟩, ?_, fun other hother _ => ?_, by omega⟩
        · show ((k * 1000000 : Nat) : Int) / 1000000 = k
          omega
        · cases other <;> first | rfl | exact absurd rfl hother
      · cases h

theorem set_of_replaceField? (hshows : z.shows i = true)
    (h : replaceField? (z.reading i) n unit = some c) : z.set i n unit = z.instantOf c := by
  rw [set_of_shows hshows, h]
  rfl

/-- A unit that could be set was set on a reading of a supported year. -/
theorem replaceField?_of_set (h : z.set i n unit = .ok i') :
    ∃ c, z.shows i = true ∧ replaceField? (z.reading i) n unit = some c ∧
      z.instantOf c = .ok i' := by
  cases hshows : z.shows i with
  | false => cases (set_of_not_shows hshows).symm.trans h
  | true =>
      cases hreplace : replaceField? (z.reading i) n unit with
      | none =>
          rw [set_of_shows hshows, hreplace] at h
          cases h
      | some c =>
          rw [set_of_replaceField? hshows hreplace] at h
          exact ⟨c, rfl, rfl, h⟩

/-- A unit that could be set reads back, and the rest of the reading is kept. -/
theorem set_eq_ok (h : z.set i n unit = .ok i') :
    z.get i' unit = n ∧ (z.reading i).Keeps (z.reading i') unit ∧ n.natAbs ≤ 262143 := by
  have hproper : (z.reading i).IsProper := ClockReading.isProper_ofSeconds _ _
  obtain ⟨c, -, hreplace, hinstant⟩ := replaceField?_of_set h
  obtain ⟨hc, hfield, hkeeps, hbound⟩ := replaceField?_spec hproper hreplace
  rw [get_eq, reading_of_earliest? hc (instantOf_eq_ok_iff.1 hinstant)]
  exact ⟨hfield, hkeeps, hbound⟩

end Zone

end Calendar

/-! ### The functions -/

namespace Catalog

open Calendar
open Number (exactValue)

variable {d d' : Instant} {v : Value} {name : String} {zone : Option (Option String)} {z : Zone}
  {unit : DateUnit} {n : Int}

/-- The arguments of `date_set`: a date, a number, the name of a unit and perhaps a zone. -/
def setArguments (d : Instant) (v : Value) (name : String) (zone : Option (Option String)) :
    List Value :=
  .ofInstant d :: v :: .ofString name :: zone.toList.map .string

/-- The arguments of `date_get`. -/
def getArguments (d : Instant) (name : String) (zone : Option (Option String)) : List Value :=
  .ofInstant d :: .ofString name :: zone.toList.map .string

theorem zoneGiven?_setArguments :
    zoneGiven? (setArguments d v name zone) 3 = zoneNamed? zone := by
  rcases zone with _ | _ | _ <;> rfl

theorem zoneGiven?_getArguments : zoneGiven? (getArguments d name zone) 2 = zoneNamed? zone := by
  rcases zone with _ | _ | _ <;> rfl

/-- What is asked for by a date, a number, the name of a unit and perhaps a zone. -/
theorem asks_setArguments_iff : Asks (setArguments d v name zone) z d' n unit ↔
    zoneNamed? zone = some z ∧ d = d' ∧ wholeAmount? v.toNumber = some n ∧
      DateUnit.ofName? name = some unit := by
  have hdate : instantAt? (setArguments d v name zone) 0 = some d := rfl
  have hamount : numberAt (setArguments d v name zone) 1 = v.toNumber := rfl
  have hname : textAt? (setArguments d v name zone) 2 = some name := rfl
  constructor
  · intro h
    have hunit := h.unit
    rw [hname, Option.bind_some] at hunit
    exact ⟨zoneGiven?_setArguments.symm.trans h.zone, Option.some.inj (hdate.symm.trans h.date),
      hamount ▸ h.amount, hunit⟩
  · rintro ⟨hzone, rfl, hwhole, hunit⟩
    refine ⟨zoneGiven?_setArguments.trans hzone, hdate, hamount ▸ hwhole, ?_⟩
    rw [hname, Option.bind_some, hunit]

/-- The function that sets a unit. -/
def unitSetting : Function :=
  dateShift "date_set" "Sets one unit of a date, optionally in a time zone" Zone.set

/-- A function that moves dates takes numbers of both kinds. -/
theorem accepts_setArguments {title description : String}
    {f : Zone → Instant → Int → DateUnit → Except UnitFault Instant}
    (hnumeric : v.kind.isNumeric = true) :
    (dateShift title description f).signature.Accepts
      ((setArguments d v name zone).map Value.kind) := by
  have haccepts : ∀ k : Kind, k.isNumeric = true →
      unitSetting.signature.Accepts [.date, k, .string] ∧
        unitSetting.signature.Accepts [.date, k, .string, .string] := by
    intro k
    cases k <;> decide
  cases zone with
  | none => exact (haccepts v.kind hnumeric).1
  | some _ => exact (haccepts v.kind hnumeric).2

theorem dateField_body (call : Call) (hzone : zoneNamed? zone = some z)
    (hunit : DateUnit.ofName? name = some unit) :
    dateField.body call (getArguments d name zone) =
      pure (.integer (Number.ofInt (z.get d unit))) := by
  have hgiven : zoneGiven? (getArguments d name zone) 2 = some z :=
    zoneGiven?_getArguments.trans hzone
  have hdate : instantAt? (getArguments d name zone) 0 = some d := rfl
  have hname : textAt? (getArguments d name zone) 1 = some name := rfl
  simp only [dateField, zoneAt_eq call hgiven, pure_bind, hdate, hname,
    unitOfName_eq call hunit]

/-- Reading a unit in a zone. -/
theorem answers_date_get (d : Instant) (hzone : zoneNamed? zone = some z)
    (hunit : DateUnit.ofName? name = some unit) :
    Answers "date_get" (getArguments d name zone) .integer
      (.integer (Number.ofInt (z.get d unit))) := by
  have hmem : dateField ∈ functions :=
    mem_functions_of_date (List.mem_of_getElem? (i := 7) rfl)
  refine answers_of_mem hmem ?_ (fun _ _ => rfl) fun call _ => dateField_body call hzone hunit
  cases zone with
  | none => exact (by decide : dateField.signature.Accepts [.date, .string])
  | some _ => exact (by decide : dateField.signature.Accepts [.date, .string, .string])

theorem mem_functions_of_unitSetting : unitSetting ∈ functions :=
  mem_functions_of_date (List.mem_of_getElem? (i := 6) rfl)

/-- Setting a unit in a zone. -/
theorem answers_date_set (hnumeric : v.kind.isNumeric = true) (hzone : zoneNamed? zone = some z)
    (hunit : DateUnit.ofName? name = some unit) (hamount : wholeAmount? v.toNumber = some n)
    (hset : z.set d n unit = .ok d') :
    Answers "date_set" (setArguments d v name zone) .date (.ofInstant d') := by
  refine (answers_ofInstant_iff mem_functions_of_unitSetting (accepts_setArguments hnumeric)).2
    ⟨z, d, n, unit, ?_, hset⟩
  exact asks_setArguments_iff.2 ⟨hzone, rfl, hamount, hunit⟩

/-- What a call of `date_set` that gives a date went by. -/
theorem exists_of_answers_date_set
    (h : Answers "date_set" (setArguments d v name zone) .date (.ofInstant d')) :
    ∃ z unit n, zoneNamed? zone = some z ∧ DateUnit.ofName? name = some unit ∧
      wholeAmount? v.toNumber = some n ∧ z.set d n unit = .ok d' := by
  obtain ⟨z, e, n, unit, hasks, hset⟩ := exists_of_answers mem_functions_of_unitSetting h
  obtain ⟨hzone, rfl, hamount, hunit⟩ := asks_setArguments_iff.1 hasks
  exact ⟨z, unit, n, hzone, hunit, hamount, hset⟩

/-- A small whole number is the number again that was set. -/
theorem ofInt_beq_of_wholeAmount? {x : Float} (hwhole : Number.isWhole x = true)
    (hamount : wholeAmount? x = some n) (hn : n.natAbs ≤ 2 ^ 53) :
    (Number.ofInt n == x) = true := by
  have hfinite : x.isFinite = true := (Bool.and_eq_true_iff.1 hwhole).1
  have hvalue := Number.exactValue_of_isWhole hwhole
  have hnan := Number.isNaN_of_isFinite hfinite
  have hint : Number.toInt64 x = n := by
    rw [wholeAmount?, if_pos hfinite] at hamount
    exact Option.some.inj hamount
  rw [Number.toInt64_eq hnan] at hint
  generalize Number.wholePart (exactValue x) = k at *
  obtain rfl : k = n := by
    unfold Number.clampInt64 Number.minInt64 Number.maxInt64 at hint
    omega
  obtain ⟨hnan', hvalue'⟩ := Number.exactValue_ofInt hn
  exact Number.beq_iff.2 ⟨hnan', hnan, hvalue'.trans hvalue.symm⟩

/-- If `date_set` gives a date, then `date_get` reads the number back that was set, and all other
local fields are as they were, whatever the zone is and whichever of two instants with the same
reading is found.  Weeks keep the day of the week, the time of day and the ISO year.  The first part
is about every zone that there could be, and the second about those with a name. -/
theorem date_units_read_back :
    (∀ (z : Zone) (d d' : Instant) (unit : DateUnit) (n : Int), z.set d n unit = .ok d' →
      z.get d' unit = n ∧ (z.reading d).Keeps (z.reading d') unit) ∧
    ∀ (d d' : Instant) (v : Value) (name : String) (zone : Option (Option String)),
      Number.isWhole v.toNumber = true →
      Answers "date_set" (setArguments d v name zone) .date (.ofInstant d') →
      ∃ z unit y, zoneNamed? zone = some z ∧ DateUnit.ofName? name = some unit ∧
        Answers "date_get" (getArguments d' name zone) .integer (.integer y) ∧
        (y == v.toNumber) = true ∧ (z.reading d).Keeps (z.reading d') unit := by
  refine ⟨fun z d d' unit n hset => ?_, fun d d' v name zone hwhole hanswers => ?_⟩
  · obtain ⟨hget, hkeeps, -⟩ := Zone.set_eq_ok hset
    exact ⟨hget, hkeeps⟩
  · obtain ⟨z, unit, n, hzone, hunit, hamount, hset⟩ := exists_of_answers_date_set hanswers
    obtain ⟨hget, hkeeps, hbound⟩ := Zone.set_eq_ok hset
    refine ⟨z, unit, _, hzone, hunit, answers_date_get d' hzone hunit, ?_, hkeeps⟩
    rw [hget]
    exact ofInt_beq_of_wholeAmount? hwhole hamount (by omega)

/-- The third of January 2021 lies in the last week of 2020.  In the first week of that year the
same day of the week is the fifth of January 2020. -/
theorem date_units_read_back_of_first_week :
    Number.isWhole 1.0 = true ∧
      Answers "date_set" (setArguments ⟨1609675200, 0⟩ (.integer 1.0) "week"
        (some (some "Europe/Berlin"))) .date (.ofInstant ⟨1578225600, 0⟩) ∧
      ∃ y, Answers "date_get" (getArguments ⟨1578225600, 0⟩ "week" (some (some "Europe/Berlin")))
        .integer (.integer y) ∧ (y == 1.0) = true := by
  have hwhole : Number.isWhole 1.0 = true := by decide
  have hzone : zoneNamed? (some (some "Europe/Berlin")) = some Zone.all[3] := by decide
  have hunit : DateUnit.ofName? "week" = some .week := by decide
  have hreplace : Zone.replaceField? (Zone.all[3].reading ⟨1609675200, 0⟩) 1 .week =
      some ⟨⟨2020, 1, 5⟩, 46800, 0⟩ := by decide
  have hfound : Zone.all[3].earliest? ⟨⟨2020, 1, 5⟩, 46800, 0⟩ = some ⟨1578225600, 0⟩ := by
    decide
  have hset : Zone.all[3].set ⟨1609675200, 0⟩ 1 .week = .ok ⟨1578225600, 0⟩ :=
    (Zone.set_of_replaceField? (by decide) hreplace).trans
      (Zone.instantOf_eq_ok_iff.2 hfound)
  have hanswers : Answers "date_set" (setArguments ⟨1609675200, 0⟩ (.integer 1.0) "week"
      (some (some "Europe/Berlin"))) .date (.ofInstant ⟨1578225600, 0⟩) :=
    answers_date_set rfl hzone hunit (by decide) hset
  obtain ⟨z, unit, y, -, -, hget, hy, -⟩ := date_units_read_back.2 ⟨1609675200, 0⟩
    ⟨1578225600, 0⟩ (.integer 1.0) "week" (some (some "Europe/Berlin")) hwhole hanswers
  exact ⟨hwhole, hanswers, y, hget, hy⟩

end Catalog

end RowFormula
