/-
# Adding time

Adding an amount of a unit with a length of its own adds this length so many times to the count of
nanoseconds.  So amounts add up, nothing is no change, and the milliseconds from a date to the
result are the length times the amount, without any rest.  Hours and what is smaller have a length
in every zone, although the clocks of the zone take part: if they cannot show the date there is no
result.  Days and weeks have one where clocks are never changed.

Longer units come down to shorter ones.  A year is twelve months and a week is seven days, on the
reading and before anything can fail.
-/

import RowFormula.Proofs.ClockRange

namespace RowFormula

namespace Calendar

variable {c : ClockReading} {i j : Instant} {n k : Int} {unit long short : DateUnit} {z : Zone}

/-- The fault as it concerns this amount of this unit. -/
def UnitFault.regarding (amount : Int) (unit : DateUnit) : UnitFault → UnitFault
  | .overflow _ _ => .overflow amount unit
  | fault => fault

namespace Zone

/-- The milliseconds of a unit of which all have the same length on the clocks of the zone. -/
def length? (z : Zone) : DateUnit → Option Int
  | .millisecond => some 1
  | .second => some 1000
  | .minute => some 60000
  | .hour => some 3600000
  | .day => if z.rule = .fixed 0 then some 86400000 else none
  | .week => if z.rule = .fixed 0 then some 604800000 else none
  | _ => none

/-! ### Universal time -/

theorem reading_of_fixed_zero (hrule : z.rule = .fixed 0) (i : Instant) : z.reading i = i.utc := by
  rw [reading, hrule, OffsetRule.offsetAt, add_zero, Instant.utc]

theorem instantOf_utc (hrule : z.rule = .fixed 0) (h : i.isSupported = true) :
    z.instantOf i.utc = .ok i := by
  have hseconds : i.utc.seconds = i.seconds := ClockReading.seconds_ofSeconds _ _
  have hnanos : i.utc.nanos = i.nanos := rfl
  have hinstants : z.instantsOf i.utc.seconds = [i.seconds] := by
    simp [instantsOf, hrule, OffsetRule.offsets, OffsetRule.offsetAt, hseconds]
  rw [instantOf_eq_ok_iff, earliest?, hinstants, hnanos]
  exact if_pos h

/-- Moving the reading by days moves the instant by their length. -/
theorem shiftDays?_utc_bind (hrule : z.rule = .fixed 0) (fault : UnitFault) :
    orFault fault (shiftDays? i.utc n) >>= z.instantOf = .ok j ↔
      i.addNanos? (n * 86400 * billion) = some j := by
  rw [shiftDays?, Instant.toInstant_utc]
  cases hmoved : i.addNanos? (n * 86400 * billion) with
  | none => exact iff_of_false nofun nofun
  | some moved =>
      show z.instantOf moved.utc = .ok j ↔ _
      rw [instantOf_utc hrule (isSupported_of_addNanos? hmoved), Except.ok.injEq,
        Option.some.injEq]

/-! ### Units with a length -/

/-- Adding a unit with a length is adding nanoseconds. -/
theorem add_eq_ok_iff_addNanos? (hlength : z.length? unit = some k) :
    z.add i n unit = .ok j ↔ z.shows i = true ∧ i.addNanos? (n * k * 1000000) = some j := by
  cases hshows : z.shows i with
  | false =>
      rw [add_of_not_shows hshows]
      exact iff_of_false nofun fun h => Bool.false_ne_true h.1
  | true =>
      rw [and_iff_right rfl]
      cases unit with
      | year | month => cases hlength
      | day | week =>
          obtain ⟨hrule, hk⟩ := Option.ite_none_right_eq_some.1 hlength
          obtain rfl := Option.some.inj hk
          rw [add_of_calendar hshows rfl, reading_of_fixed_zero hrule]
          refine (shiftDays?_utc_bind hrule _).trans (Eq.congr_left (congrArg i.addNanos? ?_))
          unfold billion
          omega
      | hour | minute | second | millisecond =>
          obtain rfl := Option.some.inj hlength
          rw [add_of_clock hshows rfl, orFault_eq_ok_iff, mul_assoc]
          rfl

/-- Adding a unit with a length, told by counts. -/
theorem add_eq_ok_iff (hi : i.nanos < billion) (hlength : z.length? unit = some k) :
    z.add i n unit = .ok j ↔ z.shows i = true ∧ j.isSupported = true ∧ j.nanos < billion ∧
      j.count = i.count + n * k * 1000000 := by
  rw [add_eq_ok_iff_addNanos? hlength, Instant.addNanos?_eq_some_iff hi]

/-- Nothing leads outside of leap seconds into one, or out of the supported years. -/
theorem isPlain_of_add (hi : i.IsPlain) (hlength : z.length? unit = some k)
    (h : z.add i n unit = .ok j) : j.IsPlain := by
  obtain ⟨-, hsupported, hj, -⟩ := (add_eq_ok_iff hi.nanos_lt hlength).1 h
  exact ⟨hsupported, hj⟩

/-- Adding nothing is no change. -/
theorem add_zero_eq_ok_iff (hi : i.IsPlain) (hlength : z.length? unit = some k) :
    z.add i 0 unit = .ok j ↔ z.shows i = true ∧ j = i := by
  rw [add_eq_ok_iff hi.nanos_lt hlength, zero_mul, zero_mul, add_zero]
  constructor
  · rintro ⟨hshows, -, hj, hcount⟩
    exact ⟨hshows, Instant.count_inj hj hi.nanos_lt hcount⟩
  · rintro ⟨hshows, rfl⟩
    exact ⟨hshows, hi.isSupported, hi.nanos_lt, rfl⟩

/-- Amounts add up. -/
theorem add_add {m : Int} {mid : Instant} (hi : i.nanos < billion)
    (hlength : z.length? unit = some k) (hfirst : z.add i m unit = .ok mid)
    (hnext : z.add mid n unit = .ok j) : z.add i (m + n) unit = .ok j := by
  obtain ⟨hshows, -, hmid, hcount⟩ := (add_eq_ok_iff hi hlength).1 hfirst
  obtain ⟨-, hsupported, hj, hcount'⟩ := (add_eq_ok_iff hmid hlength).1 hnext
  refine (add_eq_ok_iff hi hlength).2 ⟨hshows, hsupported, hj, ?_⟩
  rw [hcount', hcount]
  ring

/-- What was added has passed. -/
theorem elapsedMillis_of_add (hi : i.nanos < billion) (hlength : z.length? unit = some k)
    (h : z.add i n unit = .ok j) : Instant.elapsedMillis i j = n * k := by
  obtain ⟨-, -, hj, hcount⟩ := (add_eq_ok_iff hi hlength).1 h
  rw [Instant.elapsedMillis, Instant.elapsedNanos_eq hi hj, hcount, add_sub_cancel_left]
  exact Int.mul_tdiv_cancel _ (by decide)

/-! ### Longer units -/

/-- So many of the shorter unit are one of the longer. -/
def multiples : List (DateUnit × DateUnit × Int) :=
  [(.year, .month, 12), (.week, .day, 7)]

theorem moved?_multiple (h : (long, short, k) ∈ multiples) :
    moved? c n long = moved? c (k * n) short ∧ long.nanos? = none ∧ short.nanos? = none := by
  obtain ⟨rfl, rfl, rfl⟩ | ⟨rfl, rfl, rfl⟩ := by simpa [multiples] using h
  · exact ⟨rfl, rfl, rfl⟩
  · exact ⟨rfl, rfl, rfl⟩

/-- The longer unit gives the same date as so many of the shorter one, or the same fault. -/
theorem add_multiple (h : (long, short, k) ∈ multiples) (z : Zone) (i : Instant) (n : Int) :
    z.add i n long = (z.add i (k * n) short).mapError (UnitFault.regarding n long) := by
  cases hshows : z.shows i with
  | false =>
      rw [add_of_not_shows hshows, add_of_not_shows hshows]
      rfl
  | true =>
      obtain ⟨hmoved, hlong, hshort⟩ := moved?_multiple (c := z.reading i) (n := n) h
      rw [add_of_calendar hshows hlong, add_of_calendar hshows hshort, hmoved]
      cases moved? (z.reading i) (k * n) short with
      | none => rfl
      | some c =>
          show z.instantOf c = (z.instantOf c).mapError _
          rw [instantOf]
          cases z.earliest? c <;> rfl

theorem add_multiple_eq_ok_iff (h : (long, short, k) ∈ multiples) :
    z.add i n long = .ok j ↔ z.add i (k * n) short = .ok j := by
  rw [add_multiple h]
  cases z.add i (k * n) short with
  | ok found => exact Iff.rfl
  | error fault => exact iff_of_false nofun nofun

/-! ### Amounts -/

theorem natAbs_lt_of_shiftMonths? {c' : ClockReading} (hfirst : minYear ≤ c.date.year)
    (hlast : c.date.year ≤ maxYear) (hmonth : c.date.month ≤ 12)
    (h : shiftMonths? c n = some c') : n.natAbs < 2 ^ 62 := by
  obtain ⟨date, hdate, -⟩ := Option.map_eq_some_iff.1 h
  obtain ⟨-, -, hmin, hmax⟩ := Date.ofParts?_eq_some hdate
  unfold minYear maxYear at *
  omega

theorem natAbs_lt_of_shiftDays? {c' : ClockReading} (hc : c.toInstant.IsPlain)
    (h : shiftDays? c n = some c') : n.natAbs < 2 ^ 62 := by
  obtain ⟨i, hmoved, -⟩ := Option.map_eq_some_iff.1 h
  have hle := Instant.natAbs_le_of_addNanos? hc hmoved
  unfold billion at hle
  omega

/-- What the clocks show of a date outside of leap seconds. -/
theorem isPlain_reading (hi : i.IsPlain) (hshows : z.shows i = true) :
    (z.reading i).toInstant.IsPlain := by
  refine ⟨?_, hi.nanos_lt⟩
  have hseconds : (z.reading i).toInstant.seconds = i.seconds + z.rule.offsetAt i.seconds :=
    ClockReading.seconds_ofSeconds _ _
  rw [Instant.isSupported, hseconds]
  exact hshows

/-- An amount that can be added is far from the ends of what 64 bits hold. -/
theorem natAbs_lt_of_add (hi : i.IsPlain) (h : z.add i n unit = .ok j) : n.natAbs < 2 ^ 62 := by
  cases hshows : z.shows i with
  | false => cases (add_of_not_shows hshows).symm.trans h
  | true =>
      cases hunit : unit.nanos? with
      | some k =>
          rw [add_of_clock hshows hunit, orFault_eq_ok_iff] at h
          have hle := Instant.natAbs_le_of_addNanos? hi h
          cases unit with
          | year | month | day | week => cases hunit
          | hour | minute | second =>
              obtain rfl := Option.some.inj hunit
              unfold billion at hle
              omega
          | millisecond =>
              obtain rfl := Option.some.inj hunit
              omega
      | none =>
          rw [add_of_calendar hshows hunit] at h
          cases hmoved : moved? (z.reading i) n unit with
          | none =>
              rw [hmoved] at h
              cases h
          | some c =>
              have hc := isPlain_reading hi hshows
              have hproper : (z.reading i).IsProper := ClockReading.isProper_ofSeconds _ _
              have hmonth := hproper.date.month_le
              have hyear : minYear ≤ (z.reading i).date.year ∧ (z.reading i).date.year ≤ maxYear :=
                year_mem_of_supports hshows
              cases unit with
              | month => exact natAbs_lt_of_shiftMonths? hyear.1 hyear.2 hmonth hmoved
              | year =>
                  have hlt := natAbs_lt_of_shiftMonths? hyear.1 hyear.2 hmonth hmoved
                  omega
              | day => exact natAbs_lt_of_shiftDays? hc hmoved
              | week =>
                  have hlt := natAbs_lt_of_shiftDays? hc hmoved
                  omega
              | hour | minute | second | millisecond => cases hunit

end Zone

end Calendar

namespace Catalog

open Calendar
open Number (clampInt64 exactValue wholePart)

variable {d d' : Instant} {u v w : Value} {name name' : String} {zone : Option (Option String)}
  {z : Zone} {unit long short : DateUnit} {m n k : Int}

/-- The value is this whole number. -/
structure IsWhole (v : Value) (n : Int) : Prop where
  isNumeric : v.kind.isNumeric = true
  isFinite : v.toNumber.isFinite = true
  exactValue_eq : exactValue v.toNumber = n

/-- Beyond 64 bits an amount becomes the nearest one that they hold. -/
theorem IsWhole.wholeAmount? (h : IsWhole v n) :
    wholeAmount? v.toNumber = some (clampInt64 n) := by
  have hpart : wholePart (n : ℚ) = n := by
    unfold wholePart
    split
    · exact Int.floor_intCast n
    · exact Int.ceil_intCast n
  rw [Catalog.wholeAmount?, if_pos h.isFinite,
    Number.toInt64_eq (Number.isNaN_of_isFinite h.isFinite), h.exactValue_eq, hpart]

/-- Adding gives a date. -/
def Adds (d : Instant) (v : Value) (name : String) (zone : Option (Option String))
    (d' : Instant) : Prop :=
  Answers "date_add" (setArguments d v name zone) .date (.ofInstant d')

/-- What the function gives is what the arithmetic gives for the amount itself: an amount that does
not fit into 64 bits gives nothing, and neither does the one that it becomes. -/
theorem adds_iff (hd : d.IsPlain) (hv : IsWhole v n) (hzone : zoneNamed? zone = some z)
    (hunit : DateUnit.ofName? name = some unit) :
    Adds d v name zone d' ↔ z.add d n unit = .ok d' := by
  have hfits {i : Int} (hi : i.natAbs < 2 ^ 62) (hclamp : clampInt64 n = i ∨ n = i) :
      clampInt64 n = i ∧ n = i := by
    unfold clampInt64 Number.minInt64 Number.maxInt64 at *
    omega
  refine (answers_ofInstant_iff mem_functions_of_unitAdding
    (accepts_setArguments hv.isNumeric)).trans ?_
  constructor
  · rintro ⟨z', e, i, unit', hasks, hadd⟩
    obtain ⟨hzone', rfl, hamount, hunit'⟩ := asks_setArguments_iff.1 hasks
    obtain rfl := Option.some.inj (hzone.symm.trans hzone')
    obtain rfl := Option.some.inj (hunit.symm.trans hunit')
    have hclamp := Option.some.inj (hv.wholeAmount?.symm.trans hamount)
    rw [(hfits (Zone.natAbs_lt_of_add hd hadd) (.inl hclamp)).2]
    exact hadd
  · intro hadd
    refine ⟨z, d, n, unit, asks_setArguments_iff.2 ⟨hzone, rfl, ?_, hunit⟩, hadd⟩
    rw [hv.wholeAmount?, (hfits (Zone.natAbs_lt_of_add hd hadd) (.inr rfl)).1]

/-- Adding is refused. -/
def Refuses (d : Instant) (v : Value) (name : String) (zone : Option (Option String)) : Prop :=
  ∃ cause, Rejects "date_add" (setArguments d v name zone) cause

/-- With a zone and a unit that are known, there is a date or an error. -/
theorem refuses_iff (hv : IsWhole v n) (hzone : zoneNamed? zone = some z)
    (hunit : DateUnit.ofName? name = some unit) :
    Refuses d v name zone ↔ ∀ d', ¬ Adds d v name zone d' := by
  constructor
  · rintro ⟨cause, hrejects⟩ d' hadds
    exact hadds.not_rejects hrejects
  · intro hnone
    have hasks : Asks (setArguments d v name zone) z d (clampInt64 n) unit :=
      asks_setArguments_iff.2 ⟨hzone, rfl, hv.wholeAmount?, hunit⟩
    cases hadd : z.add d (clampInt64 n) unit with
    | ok d' =>
        exact absurd ((answers_ofInstant_iff mem_functions_of_unitAdding
          (accepts_setArguments hv.isNumeric)).2 ⟨_, _, _, _, hasks, hadd⟩) (hnone d')
    | error fault =>
        refine ⟨rejectionOf fault, rejects_of_mem mem_functions_of_unitAdding fun call => ?_⟩
        rw [unitAdding, hasks.body_eq, hadd]
        rfl

/-- The milliseconds between two dates. -/
theorem answers_date_diff (d d' : Instant) :
    Answers "date_diff" [.ofInstant d, .ofInstant d'] .integer
      (.integer (Number.ofInt (Instant.elapsedMillis d d'))) := by
  have hmem : date[3] ∈ functions := mem_functions_of_date (List.mem_of_getElem? (i := 3) rfl)
  refine answers_of_mem hmem ?_ (fun _ _ => rfl) fun _ _ => rfl
  exact (by decide : date[3].signature.Accepts [.date, .date])

/-- Elapsed time adds up.  With a unit of which all have the same length, a date outside of leap
seconds stays the same if nothing is added to it, two amounts that were added one after the other
come to the same as their sum, and the difference that results is the amount times the length.
This is said of every zone that there could be, and again of the functions in the zones with a name:
there the sum is the whole number itself, taken from any value that is this number, and the
difference is told exactly if it has no more than 53 bits.  In all zones a year is as good as twelve
months and a week as seven days: the same date is found, or the same fault, and then both are
refused. -/
theorem elapsed_time_adds_up :
    (∀ (z : Zone) (d : Instant) (unit : DateUnit) (length : Int), d.IsPlain →
      z.length? unit = some length →
        (∀ d', z.add d 0 unit = .ok d' ↔ z.shows d = true ∧ d' = d) ∧
        (∀ m n d' d'', z.add d m unit = .ok d' → z.add d' n unit = .ok d'' →
          z.add d (m + n) unit = .ok d'') ∧
        ∀ n d', z.add d n unit = .ok d' → Instant.elapsedMillis d d' = n * length) ∧
    (∀ (d : Instant) (name : String) (zone : Option (Option String)) (z : Zone) (unit : DateUnit)
      (length : Int), d.IsPlain → zoneNamed? zone = some z → DateUnit.ofName? name = some unit →
      z.length? unit = some length →
        (∀ v d', IsWhole v 0 → (Adds d v name zone d' ↔ z.shows d = true ∧ d' = d)) ∧
        (∀ u v w m n d' d'', IsWhole u m → IsWhole v n → IsWhole w (m + n) →
          Adds d u name zone d' → Adds d' v name zone d'' → Adds d w name zone d'') ∧
        ∀ v n d', IsWhole v n → Adds d v name zone d' → (n * length).natAbs ≤ 2 ^ 53 →
          ∃ y, Answers "date_diff" [.ofInstant d, .ofInstant d'] .integer (.integer y) ∧
            y.isNaN = false ∧ exactValue y = (n * length : Int)) ∧
    ∀ (long short : DateUnit) (times : Int), (long, short, times) ∈ Zone.multiples →
      (∀ (z : Zone) (d : Instant) (n : Int), z.add d n long =
        (z.add d (times * n) short).mapError (UnitFault.regarding n long)) ∧
      ∀ (d : Instant) (name name' : String) (zone : Option (Option String)) (z : Zone) (n : Int)
        (v w : Value), d.IsPlain → zoneNamed? zone = some z →
        DateUnit.ofName? name = some long → DateUnit.ofName? name' = some short →
        IsWhole v n → IsWhole w (times * n) →
          (∀ d', Adds d v name zone d' ↔ Adds d w name' zone d') ∧
          (Refuses d v name zone ↔ Refuses d w name' zone) := by
  refine ⟨?arithmetic, ?functions, ?multiples⟩
  case arithmetic =>
    intro z d unit length hd hlength
    exact ⟨fun d' => Zone.add_zero_eq_ok_iff hd hlength,
      fun m n d' d'' => Zone.add_add hd.nanos_lt hlength,
      fun n d' => Zone.elapsedMillis_of_add hd.nanos_lt hlength⟩
  case functions =>
    intro d name zone z unit length hd hzone hunit hlength
    refine ⟨fun v d' hv => ?_, fun u v w m n d' d'' hu hv hw hfirst hnext => ?_,
      fun v n d' hv hadds hsmall => ?_⟩
    · rw [adds_iff hd hv hzone hunit, Zone.add_zero_eq_ok_iff hd hlength]
    · rw [adds_iff hd hu hzone hunit] at hfirst
      rw [adds_iff (Zone.isPlain_of_add hd hlength hfirst) hv hzone hunit] at hnext
      exact (adds_iff hd hw hzone hunit).2 (Zone.add_add hd.nanos_lt hlength hfirst hnext)
    · have hmillis := Zone.elapsedMillis_of_add hd.nanos_lt hlength
        ((adds_iff hd hv hzone hunit).1 hadds)
      obtain ⟨hnan, hvalue⟩ := Number.exactValue_ofInt hsmall
      exact ⟨_, hmillis ▸ answers_date_diff d d', hnan, hvalue⟩
  case multiples =>
    intro long short times hmultiple
    refine ⟨Zone.add_multiple hmultiple, ?_⟩
    intro d name name' zone z n v w hd hzone hunit hunit' hv hw
    have hsame (d' : Instant) : Adds d v name zone d' ↔ Adds d w name' zone d' := by
      rw [adds_iff hd hv hzone hunit, adds_iff hd hw hzone hunit',
        Zone.add_multiple_eq_ok_iff hmultiple]
    refine ⟨hsame, ?_⟩
    rw [refuses_iff hv hzone hunit, refuses_iff hw hzone hunit']
    exact forall_congr' fun d' => not_congr (hsame d')

/-- Three hours before, then five hours after, at a fraction of a millisecond in Berlin; and the date
a year after the last day of a February. -/
theorem elapsed_time_adds_up_in_berlin :
    let d : Instant := ⟨1582934400, 123456789⟩
    let berlin := some (some "Europe/Berlin")
    d.IsPlain ∧ Adds d (.integer (Number.ofInt (-3))) "hour" berlin ⟨1582923600, 123456789⟩ ∧
      Adds d (.integer (Number.ofInt 2)) "hour" berlin ⟨1582941600, 123456789⟩ ∧
      (∃ y, Answers "date_diff" [.ofInstant d, .ofInstant ⟨1582941600, 123456789⟩] .integer
        (.integer y) ∧ exactValue y = 7200000) ∧
      ∀ d', Adds d (.integer (Number.ofInt 1)) "year" berlin d' ↔
        Adds d (.integer (Number.ofInt 12)) "month" berlin d' := by
  intro d berlin
  have hd : d.IsPlain := ⟨by decide, by decide⟩
  have hmid : Instant.IsPlain ⟨1582923600, 123456789⟩ := ⟨by decide, by decide⟩
  have hzone : zoneNamed? berlin = some Zone.all[3] := by decide
  have hhour : DateUnit.ofName? "hour" = some .hour := by decide
  have hyear : DateUnit.ofName? "year" = some .year := by decide
  have hmonth : DateUnit.ofName? "month" = some .month := by decide
  have hwhole : ∀ n ∈ [(-3 : Int), 5, 2, 1, 12], IsWhole (.integer (Number.ofInt n)) n := by
    intro n hn
    have hfinite : ∀ n ∈ [(-3 : Int), 5, 2, 1, 12], (Number.ofInt n).isFinite = true ∧
        n.natAbs ≤ 2 ^ 53 := by
      decide
    exact ⟨rfl, (hfinite n hn).1, (Number.exactValue_ofInt (hfinite n hn).2).2⟩
  have hshows : Zone.all[3].shows d = true ∧
      Zone.all[3].shows ⟨1582923600, 123456789⟩ = true := by
    decide
  have hfirst : Adds d (.integer (Number.ofInt (-3))) "hour" berlin ⟨1582923600, 123456789⟩ := by
    refine (adds_iff hd (hwhole _ (by decide)) hzone hhour).2
      ((Zone.add_eq_ok_iff_addNanos? rfl).2 ⟨hshows.1, by decide⟩)
  have hnext : Adds ⟨1582923600, 123456789⟩ (.integer (Number.ofInt 5)) "hour" berlin
      ⟨1582941600, 123456789⟩ := by
    refine (adds_iff hmid (hwhole _ (by decide)) hzone hhour).2
      ((Zone.add_eq_ok_iff_addNanos? rfl).2 ⟨hshows.2, by decide⟩)
  obtain ⟨-, htimes, hmultiples⟩ := elapsed_time_adds_up
  obtain ⟨-, hsum, hdiff⟩ := htimes d "hour" berlin Zone.all[3] .hour 3600000 hd hzone hhour rfl
  have htotal : Adds d (.integer (Number.ofInt 2)) "hour" berlin ⟨1582941600, 123456789⟩ :=
    hsum _ _ _ (-3) 5 _ _ (hwhole _ (by decide)) (hwhole _ (by decide)) (hwhole _ (by decide))
      hfirst hnext
  obtain ⟨y, hanswers, -, hvalue⟩ := hdiff _ 2 _ (hwhole _ (by decide)) htotal (by decide)
  refine ⟨hd, hfirst, htotal, ⟨y, hanswers, hvalue.trans (by norm_num)⟩, ?_⟩
  exact ((hmultiples .year .month 12 List.mem_cons_self).2 d "year" "month" berlin Zone.all[3] 1
    _ _ hd hzone hyear hmonth (hwhole _ (by decide)) (hwhole _ (by decide))).1

end Catalog

end RowFormula
