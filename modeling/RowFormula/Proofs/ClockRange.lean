/-
# Dates that clocks cannot show

The supported years are those of universal time.  Close to their ends the clocks of a zone may show
a year beyond, and all arithmetic with units starts from what they show, even where only the
instant counts.  There the functions break off.  This is the only way in which they do: everything
that is computed afterwards is checked, and what fails is rejected.
-/

import RowFormula.Proofs.DateUnits
import RowFormula.Proofs.Instants

namespace RowFormula

namespace Calendar

variable {i : Instant} {c : ClockReading} {n k : Int} {unit : DateUnit} {z : Zone}
  {fault : UnitFault} {x : Option Instant}

namespace Zone

/-- Arithmetic gives a date of a supported year, or a fault other than that the clocks of the zone
do not show the date to start from. -/
def Settles : Except UnitFault Instant → Prop
  | .ok i => i.isSupported = true
  | .error fault => ∀ z, fault ≠ .unshown z

/-- The clocks of a zone show a date if their time lies in the supported years. -/
theorem shows_iff : z.shows i = true ↔
    firstSecond ≤ i.seconds + z.rule.offsetAt i.seconds ∧
      i.seconds + z.rule.offsetAt i.seconds < endSecond :=
  supports_iff

theorem shows_eq_false_iff : z.shows i = false ↔
    ¬ (firstSecond ≤ i.seconds + z.rule.offsetAt i.seconds ∧
      i.seconds + z.rule.offsetAt i.seconds < endSecond) := by
  rw [← Bool.not_eq_true, shows_iff]

/-- Further than 14 hours from the ends of the supported years, the clocks of every zone with a name
show the date. -/
theorem shows_of_mem_all (hz : z ∈ all) (hfirst : firstSecond + 50400 ≤ i.seconds)
    (hlast : i.seconds < endSecond - 50400) : z.shows i = true := by
  have hoffsets : ∀ z ∈ all, ∀ offset ∈ z.rule.offsets, -50400 ≤ offset ∧ offset ≤ 50400 := by
    decide
  have hoffset := hoffsets z hz _ (z.rule.offsetAt_mem_offsets i.seconds)
  rw [shows_iff]
  omega

theorem isSupported_of_earliest? (h : z.earliest? c = some i) : i.isSupported = true := by
  unfold earliest? at h
  split at h
  · cases h
  · obtain ⟨hsupported, hfound⟩ := Option.ite_none_right_eq_some.1 h
    exact Option.some.inj hfound ▸ hsupported

theorem isSupported_of_addNanos? {i' : Instant} (h : i.addNanos? n = some i') :
    i'.isSupported = true := by
  obtain ⟨hsupported, hmoved⟩ := Option.ite_none_right_eq_some.1 h
  exact Option.some.inj hmoved ▸ hsupported

theorem settles_instantOf (z : Zone) (c : ClockReading) : Settles (z.instantOf c) := by
  cases h : z.earliest? c with
  | some i =>
      rw [instantOf_eq_ok_iff.2 h]
      exact isSupported_of_earliest? h
  | none =>
      rw [instantOf, h]
      exact fun _ => nofun

theorem settles_orFault (hfault : ∀ z, fault ≠ .unshown z)
    (h : ∀ i, x = some i → i.isSupported = true) : Settles (orFault fault x) := by
  cases x with
  | some i => exact h i rfl
  | none => exact hfault

theorem settles_orFault_bind {x : Option ClockReading} (z : Zone)
    (hfault : ∀ z, fault ≠ .unshown z) : Settles (orFault fault x >>= z.instantOf) := by
  cases x with
  | some c => exact settles_instantOf z c
  | none => exact hfault

/-- Adding settles once the clocks show the date. -/
theorem settles_add (h : z.shows i = true) (n : Int) (unit : DateUnit) :
    Settles (z.add i n unit) := by
  cases hunit : unit.nanos? with
  | none =>
      rw [add_of_calendar h hunit]
      exact settles_orFault_bind z fun _ => nofun
  | some k =>
      rw [add_of_clock h hunit]
      exact settles_orFault (fun _ => nofun) fun _ => isSupported_of_addNanos?

theorem settles_set (h : z.shows i = true) (n : Int) (unit : DateUnit) :
    Settles (z.set i n unit) := by
  rw [set_of_shows h]
  exact settles_orFault_bind z fun _ => nofun

end Zone

end Calendar

namespace Catalog

open Calendar

variable {f : Zone → Instant → Int → DateUnit → Except UnitFault Instant} {args : List Value}
  {d : Instant} {name title description : String} {z : Zone} {unit : DateUnit} {n : Int}
  {cause : Rejection} {fault : UnitFault}

/-- The function breaks off. -/
def Breaks (name : String) (args : List Value) : Prop :=
  ∃ cause, cause.breaksOff = true ∧ Rejects name args cause

/-- The function gives a date, which may be missing but else lies in a supported year, or rejects
its arguments with an error that a formula reports. -/
def Concludes (name : String) (args : List Value) : Prop :=
  (∃ d : Option Instant, (∀ i ∈ d, i.isSupported = true) ∧ Answers name args .date (.date d)) ∨
    ∃ cause, cause.breaksOff = false ∧ Rejects name args cause

/-- The function is asked for arithmetic with a date at which the time of the zone lies outside of
the supported years. -/
def LeavesYears (args : List Value) : Prop :=
  ∃ z d n unit, Asks args z d n unit ∧
    ¬ (firstSecond ≤ d.seconds + z.rule.offsetAt d.seconds ∧
      d.seconds + z.rule.offsetAt d.seconds < endSecond)

/-- The arithmetic starts from what the clocks of the zone show. -/
def StartsFromClocks (f : Zone → Instant → Int → DateUnit → Except UnitFault Instant) : Prop :=
  ∀ z i n unit, (z.shows i = true → Zone.Settles (f z i n unit)) ∧
    (z.shows i = false → f z i n unit = .error (.unshown z))

theorem startsFromClocks_add : StartsFromClocks Zone.add :=
  fun _ _ n unit => ⟨fun h => Zone.settles_add h n unit, Zone.add_of_not_shows⟩

theorem startsFromClocks_set : StartsFromClocks Zone.set :=
  fun _ _ n unit => ⟨fun h => Zone.settles_set h n unit, Zone.set_of_not_shows⟩

theorem breaksOff_rejectionOf (h : ∀ z, fault ≠ .unshown z) :
    (rejectionOf fault).breaksOff = false := by
  cases fault with
  | unshown z => exact absurd rfl (h z)
  | skipped | overflow | outOfRange => rfl

theorem not_breaks_of_concludes (h : Concludes name args) : ¬ Breaks name args := by
  rintro ⟨cause, hbreaks, hrejects⟩
  rcases h with ⟨d, -, hanswers⟩ | ⟨cause', hcause', hrejects'⟩
  · exact hanswers.not_rejects hrejects
  · rw [hrejects.unique hrejects', hcause'] at hbreaks
    cases hbreaks

section Outcomes

variable (hf : dateShift title description f ∈ functions)

include hf

theorem breaks_of_leavesYears (hstarts : StartsFromClocks f) (h : LeavesYears args) :
    Breaks title args := by
  obtain ⟨z, d, n, unit, hasks, houtside⟩ := h
  refine ⟨rejectionOf (.unshown z), rfl, rejects_of_mem hf fun call => ?_⟩
  rw [hasks.body_eq, (hstarts z d n unit).2 (Zone.shows_eq_false_iff.2 houtside)]
  rfl

theorem concludes_of_not_leavesYears
    (haccepts : (dateShift title description f).signature.Accepts (args.map Value.kind))
    (hstarts : StartsFromClocks f) (h : ¬ LeavesYears args) : Concludes title args := by
  by_cases hasks : ∃ z d n unit, Asks args z d n unit
  · obtain ⟨z, d, n, unit, hasks⟩ := hasks
    have hshows : z.shows d = true :=
      Zone.shows_iff.2 (by_contra fun houtside => h ⟨z, d, n, unit, hasks, houtside⟩)
    have hsettles := (hstarts z d n unit).1 hshows
    cases hmoved : f z d n unit with
    | ok i =>
        rw [hmoved] at hsettles
        refine .inl ⟨some i, fun j hj => Option.some.inj hj ▸ hsettles, ?_⟩
        exact (answers_ofInstant_iff hf haccepts).2 ⟨z, d, n, unit, hasks, hmoved⟩
    | error fault =>
        rw [hmoved] at hsettles
        refine .inr ⟨_, breaksOff_rejectionOf hsettles, rejects_of_mem hf fun call => ?_⟩
        rw [hasks.body_eq, hmoved]
        rfl
  · simp only [not_exists] at hasks
    rcases body_of_not_asks hasks with hmissing | ⟨cause, hcause, hreject⟩
    · exact .inl ⟨none, nofun, answers_of_body hf haccepts hmissing⟩
    · exact .inr ⟨cause, hcause, rejects_of_mem hf hreject⟩

end Outcomes

/-- Every zone that can be asked for is in the list of them. -/
theorem Asks.mem_all (h : Asks args z d n unit) : z ∈ Zone.all := by
  have hzone := h.zone
  unfold zoneGiven? at hzone
  cases htext : textAt? args 3 with
  | none =>
      rw [htext] at hzone
      exact Option.some.inj hzone ▸ List.mem_cons_self
  | some name =>
      rw [htext] at hzone
      exact List.mem_of_find?_eq_some hzone

/-- The function that adds to a date. -/
def unitAdding : Function :=
  dateShift "date_add" "Adds an amount of a unit to a date, optionally in a time zone" Zone.add

theorem mem_functions_of_unitAdding : unitAdding ∈ functions :=
  mem_functions_of_date (List.mem_of_getElem? (i := 5) rfl)

/-- The functions that do arithmetic with units of a date. -/
def dateArithmetic : List Function :=
  [unitAdding, unitSetting]

end Catalog

end RowFormula
