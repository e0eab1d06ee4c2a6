/-
# Moving dates

Calendar arithmetic starts from what the clocks of a zone show.  Adding goes on in one of two ways:
units of the calendar move the reading and look for the first instant that shows the result, and
units of the clock move the instant itself, by a length of time that does not depend on the zone.

The functions that move dates differ in nothing but this arithmetic.  What else they do does not
depend on the call, so what they make of their arguments is worked out once, as `shifted`.
-/

import RowFormula.Calendar.Unit
import RowFormula.Proofs.Substrings

namespace RowFormula

namespace Calendar

/-- The nanoseconds of a unit of the clock.  Units of the calendar have no length of their own. -/
def DateUnit.nanos? : DateUnit → Option Int
  | .hour => some (3600 * billion)
  | .minute => some (60 * billion)
  | .second => some billion
  | .millisecond => some 1000000
  | _ => none

namespace Zone

variable {c : ClockReading} {i i' : Instant} {n k : Int} {unit : DateUnit} {z : Zone}

/-- The reading to which an amount of a unit of the calendar leads. -/
def moved? (c : ClockReading) (n : Int) : DateUnit → Option ClockReading
  | .year => shiftMonths? c (12 * n)
  | .month => shiftMonths? c n
  | .week => shiftDays? c (7 * n)
  | .day => shiftDays? c n
  | _ => none

theorem instantOf_eq_ok_iff : z.instantOf c = .ok i ↔ z.earliest? c = some i := by
  unfold instantOf
  cases z.earliest? c with
  | none => exact iff_of_false nofun nofun
  | some found =>
      show Except.ok found = .ok i ↔ _
      rw [Except.ok.injEq, Option.some.injEq]

theorem orFault_eq_ok_iff {α : Type} {fault : UnitFault} {x : Option α} {a : α} :
    orFault fault x = .ok a ↔ x = some a := by
  cases x with
  | none => exact iff_of_false nofun nofun
  | some b =>
      show Except.ok b = .ok a ↔ _
      rw [Except.ok.injEq, Option.some.injEq]

theorem readingOf_of_shows (h : z.shows i = true) : z.readingOf i = .ok (z.reading i) :=
  if_pos h

theorem readingOf_of_not_shows (h : z.shows i = false) : z.readingOf i = .error (.unshown z) :=
  if_neg (Bool.eq_false_iff.1 h)

theorem add_of_not_shows (h : z.shows i = false) : z.add i n unit = .error (.unshown z) := by
  rw [add, readingOf_of_not_shows h]
  rfl

theorem set_of_not_shows (h : z.shows i = false) : z.set i n unit = .error (.unshown z) := by
  rw [set, readingOf_of_not_shows h]
  rfl

/-- Units of the calendar move the reading. -/
theorem add_of_calendar (hshows : z.shows i = true) (hunit : unit.nanos? = none) :
    z.add i n unit =
      orFault (.overflow n unit) (moved? (z.reading i) n unit) >>= z.instantOf := by
  rw [add, readingOf_of_shows hshows]
  cases unit with
  | year | month | week | day => rfl
  | hour | minute | second | millisecond => cases hunit

/-- Units of the clock move the instant. -/
theorem add_of_clock (hshows : z.shows i = true) (hunit : unit.nanos? = some k) :
    z.add i n unit = orFault (.overflow n unit) (i.addNanos? (n * k)) := by
  rw [add, readingOf_of_shows hshows]
  cases unit with
  | year | month | week | day => cases hunit
  | hour | minute =>
      obtain rfl := Option.some.inj hunit
      rw [← mul_assoc]
      rfl
  | second | millisecond =>
      obtain rfl := Option.some.inj hunit
      rfl

/-- A unit is set on the reading. -/
theorem set_of_shows (hshows : z.shows i = true) :
    z.set i n unit =
      orFault (.outOfRange n unit) (replaceField? (z.reading i) n unit) >>= z.instantOf := by
  rw [set, readingOf_of_shows hshows]
  rfl

end Zone

end Calendar

/-! ### The functions -/

namespace Catalog

open Calendar

variable {f : Zone → Instant → Int → DateUnit → Except UnitFault Instant} {args : List Value}
  {d d' : Instant} {v : Value} {name title description : String} {zone : Option (Option String)}
  {z : Zone} {unit : DateUnit} {n : Int} {cause : Rejection} {call : Call}

theorem mem_functions_of_date {f : Function} (hf : f ∈ date) : f ∈ functions := by
  simp only [functions, List.mem_append]
  tauto

/-- The zone of an optional argument, which is universal time if the argument is left out or
missing. -/
def zoneNamed? : Option (Option String) → Option Zone
  | some (some name) => Zone.ofName? (Text.trim name)
  | _ => some Zone.utc

/-- The zone that the argument at a position names. -/
def zoneGiven? (args : List Value) (position : Nat) : Option Zone :=
  match textAt? args position with
  | none => some Zone.utc
  | some name => Zone.ofName? (Text.trim name)

theorem zoneAt_eq {position : Nat} (call : Call) (h : zoneGiven? args position = some z) :
    zoneAt call args position = pure z := by
  unfold zoneGiven? at h
  unfold zoneAt
  cases htext : textAt? args position with
  | none =>
      rw [htext] at h
      exact congrArg pure (Option.some.inj h)
  | some name =>
      rw [htext] at h
      change Zone.ofName? (Text.trim name) = some z at h
      show call.require (.unknownZone name) (Zone.ofName? (Text.trim name)) = pure z
      rw [h]
      rfl

/-- A zone that does not exist is rejected. -/
theorem zoneAt_of_none {position : Nat} (h : zoneGiven? args position = none) :
    ∃ name, ∀ call : Call, zoneAt call args position = call.reject (.unknownZone name) := by
  unfold zoneGiven? at h
  unfold zoneAt
  cases htext : textAt? args position with
  | none =>
      rw [htext] at h
      cases h
  | some name =>
      rw [htext] at h
      change Zone.ofName? (Text.trim name) = none at h
      refine ⟨name, fun call => ?_⟩
      show call.require (.unknownZone name) (Zone.ofName? (Text.trim name)) = _
      rw [h]
      rfl

theorem unitOfName_eq (call : Call) (h : DateUnit.ofName? name = some unit) :
    unitOfName call name = pure unit := by
  rw [unitOfName, h]
  rfl

theorem unitOfName_of_none (call : Call) (h : DateUnit.ofName? name = none) :
    unitOfName call name = call.reject (.unknownDateUnit name) := by
  rw [unitOfName, h]
  rfl

/-- The function is asked to do arithmetic: nothing is missing, and zone and unit are known. -/
structure Asks (args : List Value) (z : Zone) (d : Instant) (n : Int) (unit : DateUnit) :
    Prop where
  zone : zoneGiven? args 3 = some z
  date : instantAt? args 0 = some d
  amount : wholeAmount? (numberAt args 1) = some n
  unit : (textAt? args 2).bind DateUnit.ofName? = some unit

/-- What is asked for is computed. -/
theorem Asks.body_eq (h : Asks args z d n unit) (call : Call) :
    (dateShift title description f).body call args =
      orReject call (f z d n unit) >>= fun i => pure (.ofInstant i) := by
  obtain ⟨name, hname, hunit⟩ := Option.bind_eq_some_iff.1 h.unit
  simp only [dateShift, zoneAt_eq call h.zone, pure_bind, h.date, h.amount, hname,
    unitOfName_eq call hunit]

/-- Without a request the missing date is given, or a name is not known.  It is the same in every
call. -/
theorem body_of_not_asks (h : ∀ z d n unit, ¬ Asks args z d n unit) :
    (∀ call, (dateShift title description f).body call args = pure (.missing .date)) ∨
      ∃ cause, cause.breaksOff = false ∧
        ∀ call, (dateShift title description f).body call args = call.reject cause := by
  cases hzone : zoneGiven? args 3 with
  | none =>
      obtain ⟨name, hreject⟩ := zoneAt_of_none hzone
      refine .inr ⟨.unknownZone name, rfl, fun call => ?_⟩
      simp only [dateShift, hreject]
      rfl
  | some z =>
      have hmissing (hnone : instantAt? args 0 = none ∨ wholeAmount? (numberAt args 1) = none ∨
          textAt? args 2 = none) (call : Call) :
          (dateShift title description f).body call args = pure (.missing .date) := by
        simp only [dateShift, zoneAt_eq call hzone, pure_bind]
        split
        · rename_i hdate hamount hname
          simp only [hdate, hamount, hname, reduceCtorEq, or_self] at hnone
        · rfl
      cases hdate : instantAt? args 0 with
      | none => exact .inl (hmissing (.inl hdate))
      | some d =>
          cases hamount : wholeAmount? (numberAt args 1) with
          | none => exact .inl (hmissing (.inr (.inl hamount)))
          | some n =>
              cases hname : textAt? args 2 with
              | none => exact .inl (hmissing (.inr (.inr hname)))
              | some name =>
                  cases hunit : DateUnit.ofName? name with
                  | none =>
                      refine .inr ⟨.unknownDateUnit name, rfl, fun call => ?_⟩
                      simp only [dateShift, zoneAt_eq call hzone, pure_bind, hdate, hamount, hname,
                        unitOfName_of_none call hunit]
                      rfl
                  | some unit =>
                      exact absurd ⟨hzone, hdate, hamount, by rw [hname, Option.bind_some, hunit]⟩
                        (h z d n unit)

section Outcomes

variable (hf : dateShift title description f ∈ functions)

include hf

theorem body_of_answers {k : Kind} (h : Answers title args k v) :
    ∃ call, (dateShift title description f).body call args = pure v := by
  obtain ⟨g, hget, -, -, hbody⟩ := h
  obtain ⟨serial, hget'⟩ := registry_has _ hf
  obtain rfl := Option.some.inj (hget.symm.trans hget')
  let call : Call := { plainCall (dateShift title description f) with resultKind := k }
  exact ⟨call, hbody call rfl⟩

theorem answers_of_body
    (haccepts : (dateShift title description f).signature.Accepts (args.map Value.kind))
    (h : ∀ call, (dateShift title description f).body call args = pure v) :
    Answers title args .date v :=
  answers_of_mem hf haccepts (fun _ _ => rfl) fun call _ => h call

/-- A date is given only if it is asked for and the arithmetic finds it. -/
theorem exists_of_answers (h : Answers title args .date (.ofInstant d')) :
    ∃ z d n unit, Asks args z d n unit ∧ f z d n unit = .ok d' := by
  obtain ⟨call, hbody⟩ := body_of_answers hf h
  by_cases hasks : ∃ z d n unit, Asks args z d n unit
  · obtain ⟨z, d, n, unit, hasks⟩ := hasks
    rw [hasks.body_eq] at hbody
    refine ⟨z, d, n, unit, hasks, ?_⟩
    cases hmoved : f z d n unit with
    | error fault =>
        rw [hmoved] at hbody
        exact absurd hbody (reject_ne_pure call)
    | ok found =>
        rw [hmoved] at hbody
        have hvalue : Value.ofInstant found = .ofInstant d' := evaluation_pure_inj hbody
        rw [Value.ofInstant, Value.ofInstant, Value.date.injEq, Option.some.injEq] at hvalue
        rw [hvalue]
  · simp only [not_exists] at hasks
    rcases body_of_not_asks hasks with hmissing | ⟨cause, -, hreject⟩
    · exact nomatch evaluation_pure_inj ((hmissing call).symm.trans hbody)
    · exact absurd ((hreject call).symm.trans hbody) (reject_ne_pure call)

/-- A function that moves dates gives a date exactly if it is asked for one that its arithmetic
finds. -/
theorem answers_ofInstant_iff
    (haccepts : (dateShift title description f).signature.Accepts (args.map Value.kind)) :
    Answers title args .date (.ofInstant d') ↔
      ∃ z d n unit, Asks args z d n unit ∧ f z d n unit = .ok d' := by
  refine ⟨exists_of_answers hf, fun ⟨z, d, n, unit, hasks, hmoved⟩ => ?_⟩
  refine answers_of_body hf haccepts fun call => ?_
  rw [hasks.body_eq, hmoved]
  rfl

end Outcomes

end Catalog

end RowFormula
