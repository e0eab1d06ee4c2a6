/-
# Readers of dates agree

A date in plain text is read by the first of several forms that takes the text.  Their order does
not matter, because the forms hardly overlap.  Whatever a form reads as a number, a fraction or
blanks consists of digits, signs, points and blanks.  The other characters of a text, its marks, are
those of the form.  So the marks of a text leave one form that can have read it, and besides it only
the same form without a fraction, which reads nothing else.

The arguments of a command line are read by some of these forms, and hence alike.
-/

import RowFormula.Proofs.Arguments
import RowFormula.Proofs.DateTexts

namespace RowFormula.Calendar

variable {c : Char} {cs mid rest ms ms' : List Char} {f g : DateFields} {text : String}
variable {item : PatternItem} {items : List PatternItem} {d e : Instant}

namespace DatePattern

/-! ### Marks -/

/-- Numbers with their signs, fractions and blanks have no marks. -/
def isMark (c : Char) : Bool :=
  !(c.isDigit || Text.isBlank c || c == '-' || c == '+' || c == '.')

/-- The marks of a text, in their order. -/
def marks (cs : List Char) : List Char := cs.filter isMark

theorem isMark_of_isDigit (h : c.isDigit = true) : isMark c = false := by
  rw [isMark, h]
  rfl

theorem isMark_of_isBlank (h : Text.isBlank c = true) : isMark c = false := by
  rw [isMark, h, Bool.or_true]
  rfl

theorem marks_append (front cs : List Char) : marks (front ++ cs) = marks front ++ marks cs :=
  List.filter_append _ _

theorem marks_eq_nil (h : ∀ c ∈ cs, isMark c = false) : marks cs = [] :=
  List.filter_eq_nil_iff.2 fun c hc => by simp [h c hc]

/-- What is taken from the front of a text has these marks. -/
def Takes (ms cs rest : List Char) : Prop :=
  marks cs = ms ++ marks rest

theorem Takes.trans (h : Takes ms cs mid) (h' : Takes ms' mid rest) :
    Takes (ms ++ ms') cs rest := by
  rw [Takes, h, h', List.append_assoc]

theorem takes_append (front rest : List Char) : Takes (marks front) (front ++ rest) rest :=
  marks_append front rest

theorem takes_cons (hc : isMark c = false) (cs : List Char) : Takes [] (c :: cs) cs :=
  List.filter_cons_of_neg (by simp [hc])

theorem takes_dropWhile {test : Char → Bool} (h : ∀ c, test c = true → isMark c = false)
    (cs : List Char) : Takes [] cs (cs.dropWhile test) := by
  have htaken : marks (cs.takeWhile test) = [] :=
    marks_eq_nil fun c hc => h c (List.mem_takeWhile_imp hc)
  have htakes := takes_append (cs.takeWhile test) (cs.dropWhile test)
  rwa [htaken, List.takeWhile_append_dropWhile] at htakes

theorem takes_trimFront (cs : List Char) : Takes [] cs (Text.trimFront cs) :=
  takes_dropWhile (fun _ => isMark_of_isBlank) cs

/-! ### Numbers and fractions -/

theorem takes_of_number? {least most n : Nat} (h : number? least most cs = some (n, rest)) :
    Takes [] cs rest := by
  obtain ⟨digits, hdigits⟩ : ∃ digits, (cs.take most).takeWhile Char.isDigit = digits := ⟨_, rfl⟩
  have hprefix : digits <+: cs :=
    hdigits ▸ (List.takeWhile_prefix _).trans (List.take_prefix most cs)
  have hplain : marks digits = [] :=
    marks_eq_nil fun c hc => isMark_of_isDigit (List.mem_takeWhile_imp (hdigits ▸ hc))
  have hrest : rest = cs.drop digits.length := by
    simp only [number?, hdigits] at h
    split at h
    · cases h
    · split at h
      · exact (congrArg Prod.snd (Option.some.inj h)).symm
      · cases h
  have htakes := takes_append digits rest
  rwa [hplain, hrest, List.prefix_iff_eq_append.1 hprefix, ← hrest] at htakes

theorem takes_of_fraction? {n : Nat} (h : fraction? cs = some (n, rest)) : Takes [] cs rest := by
  obtain ⟨⟨_, mid⟩, hnumber, hrest⟩ := Option.bind_eq_some_iff.1 h
  obtain rfl := congrArg Prod.snd (Option.some.inj hrest)
  exact (takes_of_number? hnumber).trans (takes_dropWhile (fun _ => isMark_of_isDigit) mid)

theorem takes_of_signedNumber? {field : NumericField} {n : Int}
    (h : signedNumber? field cs = some (n, rest)) : Takes [] cs rest := by
  have hnumber {least most : Nat} {front : List Char} {value : Nat × List Char → Int}
      (h : (number? least most front).map (fun p => (value p, p.2)) = some (n, rest)) :
      Takes [] front rest := by
    obtain ⟨_, hnumber, hrest⟩ := Option.map_eq_some_iff.1 h
    obtain rfl := congrArg Prod.snd hrest
    exact takes_of_number? hnumber
  have htrim := takes_trimFront cs
  simp only [signedNumber?] at h
  split at h
  case h_1 front _ hfront =>
    rw [hfront] at htrim
    exact htrim.trans ((takes_cons rfl front).trans (hnumber h))
  case h_2 front _ hfront =>
    rw [hfront] at htrim
    exact htrim.trans ((takes_cons rfl front).trans (hnumber h))
  case h_3 => exact htrim.trans (hnumber h)

theorem takes_of_readNumeric? {field : NumericField}
    (h : readNumeric? field f cs = some (g, rest)) : Takes [] cs rest := by
  obtain ⟨_, hnumber, henter⟩ := Option.bind_eq_some_iff.1 h
  obtain ⟨_, -, hrest⟩ := Option.bind_eq_some_iff.1 henter
  obtain rfl := congrArg Prod.snd (Option.some.inj hrest)
  exact takes_of_signedNumber? hnumber

/-! ### Items of a form -/

theorem takes_of_dropText? {front : List Char} (h : dropText? front cs = some rest) :
    Takes (marks front) cs rest := by
  suffices hcs : cs = front ++ rest from hcs ▸ takes_append front rest
  induction front generalizing cs with
  | nil => exact Option.some.inj h
  | cons p front ih =>
      cases cs with
      | nil => cases h
      | cons c cs =>
          rw [dropText?] at h
          split at h
          · rename_i hc
            rw [hc, List.cons_append, ← ih h]
          · cases h

end DatePattern

namespace PatternItem

/-- Items that read numbers, fractions, blanks and fixed texts. -/
def isPlain : PatternItem → Bool
  | literal _ | blank _ | numeric _ _ | named .fraction => true
  | named _ => false

/-- The marks of an item are those of its fixed text. -/
def marks : PatternItem → List Char
  | literal text => DatePattern.marks text
  | _ => []

end PatternItem

namespace DatePattern

/-- What an item takes from a text has the marks of the item. -/
theorem takes_of_readItem? (hitem : item.isPlain = true)
    (h : readItem? item f cs = some (g, rest)) : Takes item.marks cs rest := by
  cases item with
  | literal front =>
      obtain ⟨_, hdrop, hrest⟩ := Option.map_eq_some_iff.1 h
      obtain rfl := congrArg Prod.snd hrest
      exact takes_of_dropText? hdrop
  | blank front =>
      obtain rfl := congrArg Prod.snd (Option.some.inj h)
      exact takes_trimFront cs
  | numeric field padding => exact takes_of_readNumeric? h
  | named field =>
      obtain rfl : field = .fraction := by
        cases field <;> first | rfl | cases hitem
      simp only [readItem?, readNamed?] at h
      split at h
      · rename_i front
        obtain ⟨_, hfraction, henter⟩ := Option.bind_eq_some_iff.1 h
        obtain ⟨_, -, hrest⟩ := Option.bind_eq_some_iff.1 henter
        obtain rfl := congrArg Prod.snd (Option.some.inj hrest)
        exact (takes_cons rfl front).trans (takes_of_fraction? hfraction)
      · obtain rfl := congrArg Prod.snd (Option.some.inj h)
        rfl

/-- A text that a form reads has the marks of the form. -/
theorem marks_of_readItems? (hitems : ∀ item ∈ items, item.isPlain = true)
    (h : readItems? items f cs = some g) : marks cs = items.flatMap PatternItem.marks := by
  induction items generalizing f cs with
  | nil =>
      cases cs with
      | nil => rfl
      | cons c cs => cases h
  | cons item items ih =>
      obtain ⟨hitem, hitems⟩ := List.forall_mem_cons.1 hitems
      obtain ⟨⟨f', rest⟩, hread, h⟩ := Option.bind_eq_some_iff.1 h
      rw [List.flatMap_cons, ← ih hitems h]
      exact takes_of_readItem? hitem hread

/-- A form that admits a fraction at its end also reads what it reads without. -/
theorem readItems?_fraction (h : readItems? items f cs = some g) :
    readItems? (items ++ [.named .fraction]) f cs = some g := by
  induction items generalizing f cs with
  | nil =>
      cases cs with
      | nil => exact h
      | cons c cs => cases h
  | cons item items ih =>
      obtain ⟨⟨f', rest⟩, hread, h⟩ := Option.bind_eq_some_iff.1 h
      rw [List.cons_append, readItems?_cons hread]
      exact ih h

/-! ### The form for exchange -/

theorem takes_of_hyphen (h : hyphen cs = some rest) : Takes [] cs rest := by
  unfold hyphen at h
  split at h
  · obtain rfl := Option.some.inj h
    exact takes_cons rfl _
  · cases h

theorem takes_of_colon (h : colon cs = some rest) : Takes [':'] cs rest := by
  unfold colon at h
  split at h
  · obtain rfl := Option.some.inj h
    exact takes_append [':'] _
  · cases h

theorem takes_of_dateTimeSeparator (h : dateTimeSeparator cs = some rest) :
    ∃ ms, Takes ms cs rest := by
  unfold dateTimeSeparator at h
  split at h
  · rename_i c _
    split at h
    · obtain rfl := Option.some.inj h
      exact ⟨_, takes_append [c] _⟩
    · cases h
  · cases h

theorem takes_of_strictTime? (h : strictTime? f cs = some (g, rest)) :
    Takes [':', ':'] cs rest := by
  simp only [strictTime?, Option.bind_eq_bind, Option.bind_eq_some_iff, Prod.exists] at h
  obtain ⟨_, _, hhour, _, hcolon, _, _, hminute, _, hcolon', _, cs, hsecond, _, -, _, -, _, -, h⟩ :=
    h
  have htime : Takes [':', ':'] _ cs :=
    (takes_of_number? hhour).trans ((takes_of_colon hcolon).trans
      ((takes_of_number? hminute).trans ((takes_of_colon hcolon').trans
        (takes_of_number? hsecond))))
  split at h
  · rename_i front
    obtain ⟨_, hfraction, henter⟩ := Option.bind_eq_some_iff.1 h
    obtain ⟨_, -, hrest⟩ := Option.bind_eq_some_iff.1 henter
    obtain rfl := congrArg Prod.snd (Option.some.inj hrest)
    exact htime.trans ((takes_cons rfl front).trans (takes_of_fraction? hfraction))
  · obtain rfl := congrArg Prod.snd (Option.some.inj h)
    exact htime

/-- An offset has a mark: it is a letter, or has a colon. -/
theorem takes_of_offset? {n : Int} (h : offset? colon true false cs = some (n, rest)) :
    ∃ ms, ms ≠ [] ∧ Takes ms cs rest := by
  unfold offset? at h
  split at h
  · cases h
  rename_i c front
  split at h
  · rename_i hletter
    obtain rfl := congrArg Prod.snd (Option.some.inj h)
    refine ⟨marks [c], ?_, takes_append [c] front⟩
    rcases (by simpa using hletter : c = 'Z' ∨ c = 'z') with rfl | rfl <;> decide
  split at h
  · obtain ⟨_, hhours, h⟩ := Option.bind_eq_some_iff.1 h
    obtain ⟨mid, hcolon, h⟩ := Option.bind_eq_some_iff.1 h
    dsimp only at h
    -- fewer than two characters are left for the minutes, or there are enough
    split at h
    · cases h
    · cases h
    obtain ⟨_, hminutes, h⟩ := Option.bind_eq_some_iff.1 h
    split at h
    · obtain rfl := congrArg Prod.snd (Option.some.inj h)
      refine ⟨marks [c] ++ [':'], List.append_ne_nil_of_right_ne_nil _ (List.cons_ne_nil _ _), ?_⟩
      exact (takes_append [c] front).trans ((takes_of_number? hhours).trans
        ((takes_of_colon hcolon).trans (takes_of_number? hminutes)))
    · cases h
  · cases h

/-- In the form for exchange the marks do not end with the colons of the time. -/
theorem takes_of_strictExchange? (h : strictExchange? f cs = some (g, rest)) :
    ∃ front zone, zone ≠ [] ∧ Takes (front ++ ':' :: ':' :: zone) cs rest := by
  simp only [strictExchange?, Option.bind_eq_bind, Option.bind_eq_some_iff, Prod.exists] at h
  obtain ⟨_, _, hyear, _, hhyphen, _, _, hmonth, _, hhyphen', _, _, hday, _, -, _, -, _, -, _,
    hseparator, _, _, htime, _, _, hoffset, h⟩ := h
  obtain ⟨front, hfront⟩ := takes_of_dateTimeSeparator hseparator
  obtain ⟨zone, hzone, htakes⟩ := takes_of_offset? hoffset
  have hdate : Takes [] cs _ :=
    (takes_of_number? hyear).trans ((takes_of_hyphen hhyphen).trans
      ((takes_of_number? hmonth).trans ((takes_of_hyphen hhyphen').trans
        (takes_of_number? hday))))
  split at h
  · obtain ⟨_, -, hrest⟩ := Option.bind_eq_some_iff.1 h
    obtain rfl := congrArg Prod.snd (Option.some.inj hrest)
    exact ⟨front, zone, hzone,
      hdate.trans (hfront.trans ((takes_of_strictTime? htime).trans htakes))⟩
  · cases h

/-- The offset has marks of its own, so that two colons come before the last mark. -/
theorem two_le_count_of_readExchange? (h : readExchange? text = some d) :
    2 ≤ (marks text.toList).dropLast.count ':' := by
  obtain ⟨⟨f, rest⟩, hread, h⟩ := Option.bind_eq_some_iff.1 h
  obtain ⟨front, zone, hzone, htakes⟩ := takes_of_strictExchange? hread
  cases rest with
  | cons c rest => cases h
  | nil =>
      have hmarks : marks text.toList = (front ++ [':', ':']) ++ zone := by
        rw [htakes]
        simp [marks]
      rw [hmarks, List.dropLast_append_of_ne_nil hzone]
      simp only [List.count_append]
      exact Nat.le_add_right_of_le (Nat.le_add_left _ _)

/-! ### The forms -/

open NumericField

/-- A bare date. -/
def dayForm : List PatternItem := [zeroed year, lit '-', zeroed month, lit '-', zeroed day]

/-- A bare date with the month in front. -/
def slashForm : List PatternItem := [zeroed month, lit '/', zeroed day, lit '/', zeroed year]

/-- A date and a time of day, apart by blanks. -/
def clockForm : List PatternItem := dayForm ++ gap :: clock

/-- A date and a time of day, apart by a letter. -/
def letterForm : List PatternItem := dayForm ++ lit 'T' :: clock

/-- A date with hours and minutes. -/
def minuteForm : List PatternItem := dayForm ++ [gap, zeroed hour, lit ':', zeroed minute]

/-- A form with the fraction that may follow the seconds. -/
def withFraction (items : List PatternItem) : List PatternItem := items ++ [.named .fraction]

theorem withFraction_clockForm : withFraction clockForm = writtenForm := rfl

theorem items?_dateTimeForms : dateTimeForms.map (items? .standard) =
    [writtenForm, clockForm, withFraction letterForm, letterForm, minuteForm].map some := by
  decide

theorem items?_dateForms : dateForms.map (items? .standard) = [dayForm, slashForm].map some := by
  decide

theorem mem_of_items? {form : String} {forms : List String} {known : List (List PatternItem)}
    (hforms : forms.map (items? .standard) = known.map some) (hform : form ∈ forms)
    (hitems : items? .standard form = some items) : items ∈ known := by
  have hmem := List.mem_map.2 ⟨form, hform, hitems⟩
  rw [hforms] at hmem
  exact (List.mem_map_of_injective (Option.some_injective _)).1 hmem

theorem marks_of_fields? (hitems : items.all PatternItem.isPlain = true)
    (h : fields? items text = some f) :
    marks text.toList = items.flatMap PatternItem.marks :=
  marks_of_readItems? (List.all_eq_true.1 hitems) h

theorem marks_of_readDateTime? (hitems : items.all PatternItem.isPlain = true)
    (h : readDateTime? items text = some d) :
    marks text.toList = items.flatMap PatternItem.marks := by
  obtain ⟨f, hf, -⟩ := Option.bind_eq_some_iff.1 h
  exact marks_of_fields? hitems hf

theorem marks_of_readDate? (hitems : items.all PatternItem.isPlain = true)
    (h : readDate? items text = some d) :
    marks text.toList = items.flatMap PatternItem.marks := by
  obtain ⟨f, hf, -⟩ := Option.bind_eq_some_iff.1 h
  exact marks_of_fields? hitems hf

theorem readDateTime?_withFraction (h : readDateTime? items text = some d) :
    readDateTime? (withFraction items) text = some d := by
  obtain ⟨f, hf, h⟩ := Option.bind_eq_some_iff.1 h
  rw [readDateTime?, fields?, withFraction, readItems?_fraction hf]
  exact h

/-- Reads a text by the one form that its marks leave. -/
def readByMarks? (text : String) : Option Instant :=
  match marks text.toList with
  | [':', ':'] => readDateTime? writtenForm text
  | ['T', ':', ':'] => readDateTime? (withFraction letterForm) text
  | [':'] => readDateTime? minuteForm text
  | [] => readDate? dayForm text
  | ['/', '/'] => readDate? slashForm text
  | _ => readExchange? text

end DatePattern

/-! ### Readings -/

open DatePattern

/-- A text is read as an instant, by any of the forms. -/
inductive ReadsAs (text : String) (d : Instant) : Prop where
  | exchange (h : readExchange? text = some d)
  | dateTime {form : String} {items : List PatternItem} (hform : form ∈ dateTimeForms)
      (hitems : items? .standard form = some items) (h : readDateTime? items text = some d)
  | date {form : String} {items : List PatternItem} (hform : form ∈ dateForms)
      (hitems : items? .standard form = some items) (h : DatePattern.readDate? items text = some d)

/-- Whatever form reads a text, its marks tell which. -/
theorem ReadsAs.readByMarks?_eq (h : ReadsAs text d) : readByMarks? text = some d := by
  cases h with
  | exchange h =>
      -- no other form has two colons and a mark behind them
      have hcount := two_le_count_of_readExchange? h
      unfold readByMarks?
      split
      case h_6 => exact h
      all_goals
        rename_i hmarks
        rw [hmarks] at hcount
        exact absurd hcount (by decide)
  | dateTime hform hitems h =>
      have hmem := mem_of_items? items?_dateTimeForms hform hitems
      simp only [List.mem_cons, List.not_mem_nil, or_false] at hmem
      rcases hmem with rfl | rfl | rfl | rfl | rfl
      · have hmarks : marks text.toList = [':', ':'] := marks_of_readDateTime? rfl h
        rw [readByMarks?, hmarks]
        exact h
      · have hmarks : marks text.toList = [':', ':'] := marks_of_readDateTime? rfl h
        rw [readByMarks?, hmarks, ← withFraction_clockForm]
        exact readDateTime?_withFraction h
      · have hmarks : marks text.toList = ['T', ':', ':'] := marks_of_readDateTime? rfl h
        rw [readByMarks?, hmarks]
        exact h
      · have hmarks : marks text.toList = ['T', ':', ':'] := marks_of_readDateTime? rfl h
        rw [readByMarks?, hmarks]
        exact readDateTime?_withFraction h
      · have hmarks : marks text.toList = [':'] := marks_of_readDateTime? rfl h
        rw [readByMarks?, hmarks]
        exact h
  | date hform hitems h =>
      have hmem := mem_of_items? items?_dateForms hform hitems
      simp only [List.mem_cons, List.not_mem_nil, or_false] at hmem
      rcases hmem with rfl | rfl
      · have hmarks : marks text.toList = [] := marks_of_readDate? rfl h
        rw [readByMarks?, hmarks]
        exact h
      · have hmarks : marks text.toList = ['/', '/'] := marks_of_readDate? rfl h
        rw [readByMarks?, hmarks]
        exact h

/-- A text is read as one date at most, so that the order of the forms does not matter. -/
theorem ReadsAs.unique (h : ReadsAs text d) (h' : ReadsAs text e) : d = e :=
  Option.some.inj (h.readByMarks?_eq.symm.trans h'.readByMarks?_eq)

theorem exists_of_readForms? {read : List PatternItem → String → Option Instant}
    {forms : List String} (h : readForms? read forms text = some d) :
    ∃ form ∈ forms, ∃ items, items? .standard form = some items ∧ read items text = some d := by
  obtain ⟨form, hform, h⟩ := List.exists_of_findSome?_eq_some h
  exact ⟨form, hform, Option.bind_eq_some_iff.1 h⟩

theorem isSome_readForms? {read : List PatternItem → String → Option Instant}
    {forms : List String} {form : String} (hform : form ∈ forms)
    (hitems : items? .standard form = some items) (h : read items text = some d) :
    (readForms? read forms text).isSome = true := by
  refine List.findSome?_isSome_iff.2 ⟨form, hform, ?_⟩
  rw [hitems, Option.bind_some, h]
  rfl

/-- The first form that takes a text reads it as every other form does that takes it. -/
theorem readDateText?_eq_some_iff : readDateText? text = some d ↔ ReadsAs (Text.trim text) d := by
  have hreads : ∀ e, readDateText? text = some e → ReadsAs (Text.trim text) e := by
    intro e h
    simp only [readDateText?] at h
    rcases Option.or_eq_some_iff.1 h with h | ⟨-, h⟩
    · exact .exchange h
    rcases Option.or_eq_some_iff.1 h with h | ⟨-, h⟩
    · obtain ⟨form, hform, items, hitems, h⟩ := exists_of_readForms? h
      exact .dateTime hform hitems h
    · obtain ⟨form, hform, items, hitems, h⟩ := exists_of_readForms? h
      exact .date hform hitems h
  refine ⟨hreads d, fun h => ?_⟩
  have hsome : (readDateText? text).isSome = true := by
    rw [readDateText?, Option.isSome_or, Option.isSome_or, Bool.or_eq_true, Bool.or_eq_true]
    cases h with
    | exchange h => exact .inl (Option.isSome_of_eq_some h)
    | dateTime hform hitems h => exact .inr (.inl (isSome_readForms? hform hitems h))
    | date hform hitems h => exact .inr (.inr (isSome_readForms? hform hitems h))
  obtain ⟨e, he⟩ := Option.isSome_iff_exists.1 hsome
  rw [he, (hreads e he).unique h]

end RowFormula.Calendar

namespace RowFormula.CommandLine

open Calendar (ReadsAs)

variable {text : String} {d : Calendar.Instant}

/-- The forms of an argument are among those of a text. -/
theorem readsAs_of_readDate? (h : readDate? text = some d) : ReadsAs text d := by
  rcases Option.or_eq_some_iff.1 h with h | ⟨-, h⟩
  · exact .exchange h
  rcases Option.or_eq_some_iff.1 h with h | ⟨-, h⟩
  · obtain ⟨form, hform, items, hitems, h⟩ := Calendar.exists_of_readForms? h
    obtain rfl := List.mem_singleton.1 hform
    exact .dateTime (by decide) hitems h
  · obtain ⟨form, hform, items, hitems, h⟩ := Calendar.exists_of_readForms? h
    obtain rfl := List.mem_singleton.1 hform
    exact .date (by decide) hitems h

/-- A text that is read as a date is neither missing nor anything else. -/
theorem readValue_date (h : readDate? (Text.trim text) = some d) :
    readValue .date text = .ok (.ofInstant d) := by
  have hblank : readDate? (Text.trim "") = none := by decide
  have hquestion : readDate? (Text.trim "?") = none := by decide
  have hpresent : ¬ (text = "" ∨ text = "?") := by
    rintro (rfl | rfl)
    · cases hblank.symm.trans h
    · cases hquestion.symm.trans h
  rw [readValue, if_neg hpresent, readPresent?, h]
  rfl

/-- What is read as a date on a command line, the reader of texts reads as the same date.  So an
attribute has the date that parsing its text gives, and no form of either reader takes the text for
another one. -/
theorem date_readers_agree (h : readDate? (Text.trim text) = some d) :
    Calendar.readDateText? text = some d ∧
      (∀ name kindName, name ≠ "" → '=' ∉ name.toList → Kind.ofName? kindName = some .date →
        readAttribute (name ++ ":" ++ kindName ++ "=" ++ text) = .ok (name, .ofInstant d)) ∧
      Catalog.Answers "date_parse" [.ofString text] .date (.ofInstant d) ∧
      ∀ e, ReadsAs (Text.trim text) e → e = d := by
  have hreads := readsAs_of_readDate? h
  have htext : Calendar.readDateText? text = some d := Calendar.readDateText?_eq_some_iff.2 hreads
  refine ⟨htext, fun name kindName hname hequals hkind => ?reads, ?parses,
    fun e he => he.unique hreads⟩
  case reads =>
    exact readAttribute_eq_ok_iff.2
      ⟨kindName, text, .date, rfl, hname, hequals, hkind, readValue_date h⟩
  case parses =>
    have hanswers := Catalog.answers_date_parse text
    rw [htext] at hanswers
    exact hanswers

/-- A leap second between blanks, digits that are not filled up, and an offset. -/
theorem date_readers_agree_on_leap_second :
    let leap : Calendar.Instant := ⟨1483228799, 1000000000⟩
    Calendar.readDateText? " 2016-12-31 23:59:60\t" = some leap ∧
      readAttribute "d:date= 2016-12-31 23:59:60\t" = .ok ("d", .ofInstant leap) ∧
      Catalog.Answers "date_parse" [.ofString " 2016-12-31 23:59:60\t"] .date (.ofInstant leap) ∧
      Calendar.readDateText? "+2016-1-2" = some ⟨1451692800, 0⟩ ∧
      Calendar.readDateText? "2016-01-02T03:04:05+01:00" = some ⟨1451700245, 0⟩ := by
  intro leap
  have hleap : readDate? (Text.trim " 2016-12-31 23:59:60\t") = some leap := by decide +kernel
  obtain ⟨hread, hattribute, hparse, -⟩ := date_readers_agree hleap
  exact ⟨hread, hattribute "d" "date" (by decide) (by decide) (by decide), hparse,
    (date_readers_agree (by decide +kernel)).1, (date_readers_agree (by decide +kernel)).1⟩

end RowFormula.CommandLine
