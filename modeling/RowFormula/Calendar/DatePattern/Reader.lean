/-
# Reading dates by patterns

Reading follows the items of a pattern through the text and collects fields.
Blanks of a pattern stand for any run of blanks, also none; numbers may have
blanks in front; names of days and months are the English ones in any case.
-/

import RowFormula.Calendar.DatePattern.Fields
import RowFormula.Number.Powers
import RowFormula.Number.Read

namespace RowFormula.Calendar.DatePattern

open RowFormula.Number (digitsValue)

/-- What remains of a text after reading something from its front. -/
abbrev Reads (α : Type) := List Char → Option (α × List Char)

/-- Drops a fixed text from the front. -/
def dropText? : List Char → List Char → Option (List Char)
  | [], cs => some cs
  | _ :: _, [] => none
  | p :: ps, c :: cs => if p = c then dropText? ps cs else none

/-- Drops a fixed text from the front, without regard to ASCII case. -/
def dropName? : List Char → List Char → Option (List Char)
  | [], cs => some cs
  | _ :: _, [] => none
  | p :: ps, c :: cs => if p.toLower = c.toLower then dropName? ps cs else none

/-- Reads at least `least` and at most `most` digits, as many as there are. -/
def number? (least most : Nat) : Reads Nat := fun cs =>
  let digits := (cs.take most).takeWhile Char.isDigit
  if digits.length < least then none
  else
    let n := digitsValue digits
    if n < Number.twoTo 63 then some (n, cs.drop digits.length) else none

/-- The usual width of a number, and whether it may carry a sign. -/
def numberShape : NumericField → Nat × Bool
  | .year | .isoYear => (4, true)
  | .quarter | .daysFromSunday | .weekdayFromMonday => (1, false)
  | .ordinal => (3, false)
  | .nanosecond => (9, false)
  | .timestamp => (1000, false)
  | _ => (2, false)

/-- Reads a number of its usual width.  A sign, where it is allowed, lifts the
limit on the width. -/
def signedNumber? (f : NumericField) : Reads Int := fun cs =>
  let (width, signed) := numberShape f
  match signed, Text.trimFront cs with
  | true, '-' :: rest => (number? 1 rest.length rest).map fun (n, rest) => (-(n : Int), rest)
  | true, '+' :: rest => (number? 1 rest.length rest).map fun (n, rest) => ((n : Int), rest)
  | _, rest => (number? 1 width rest).map fun (n, rest) => ((n : Int), rest)

/-- English names, by the three letters that all of them start with and the
letters that may follow. -/
def dayNames : List (String × String) :=
  [("mon", "day"), ("tue", "sday"), ("wed", "nesday"), ("thu", "rsday"), ("fri", "day"),
    ("sat", "urday"), ("sun", "day")]

def monthNames : List (String × String) :=
  [("jan", "uary"), ("feb", "ruary"), ("mar", "ch"), ("apr", "il"), ("may", ""), ("jun", "e"),
    ("jul", "y"), ("aug", "ust"), ("sep", "tember"), ("oct", "ober"), ("nov", "ember"),
    ("dec", "ember")]

/-- Reads a name, giving its place in the list.  The rest of a long name is
optional. -/
def name? (long : Bool) : List (String × String) → (index : Nat) → Reads Nat
  | [], _, _ => none
  | (start, tail) :: names, index, cs =>
    match dropName? start.toList cs with
    | none => name? long names (index + 1) cs
    | some rest =>
      if long then some (index, (dropName? tail.toList rest).getD rest)
      else some (index, rest)

/-- Reads a fraction of a second of any length.  Digits after the ninth are
skipped. -/
def fraction? : Reads Nat := fun cs => do
  let (n, rest) ← number? 1 9 cs
  some (n * Number.tenTo (9 - (cs.length - rest.length)), rest.dropWhile Char.isDigit)

/-- Reads a fraction of a second in exactly so many places. -/
def fractionPlaces? (places : Nat) : Reads Nat := fun cs => do
  let (n, rest) ← number? places places cs
  some (n * Number.tenTo (9 - places), rest)

/-- Reads an offset from universal time in hours and minutes, as seconds.
`separator` reads what stands between them. -/
def offset? (separator : List Char → Option (List Char)) (zulu looseMinutes : Bool) :
    Reads Int := fun cs =>
  match cs with
  | [] => none
  | c :: rest =>
    if zulu && (c == 'Z' || c == 'z') then some (0, rest)
    else if c == '+' || c == '-' || c == '−' then do
      let (hours, rest) ← number? 2 2 rest
      let rest ← separator rest
      let (minutes, rest) ←
        match rest with
        | [] | [_] => if looseMinutes && rest.isEmpty then some (0, rest) else none
        | _ => do
          let (minutes, rest) ← number? 2 2 rest
          if minutes < 60 then some (minutes, rest) else none
      let seconds : Int := hours * 3600 + minutes * 60
      some (if c == '+' then seconds else -seconds, rest)
    else none

/-- Any run of colons and blanks. -/
def looseSeparator (cs : List Char) : Option (List Char) :=
  some (cs.dropWhile fun c => c == ':' || Text.isBlank c)

/-- Exactly one colon. -/
def colon : List Char → Option (List Char)
  | ':' :: cs => some cs
  | _ => none

/-- The letter or blank between date and time in the form for exchange. -/
def dateTimeSeparator : List Char → Option (List Char)
  | c :: cs => if c == 'T' || c == 't' || c == ' ' then some cs else none
  | [] => none

/-- Enters the number of a field. -/
def enter? (field : NumericField) (v : Int) (f : DateFields) : Option DateFields :=
  (f.enterNumber field v).toOption

/-- Enters an offset. -/
def enterOffset? (v : Int) (f : DateFields) : Option DateFields :=
  match f.offset with
  | none => some { f with offset := some v }
  | some old => if old = v then some f else none

/-- Reads a number field. -/
def readNumeric? (field : NumericField) (f : DateFields) : Reads DateFields := fun cs => do
  let (v, rest) ← signedNumber? field cs
  let f ← enter? field v f
  some (f, rest)

/-- Reads two digits each for hours, minutes and seconds, with the fraction that
may follow. -/
def strictTime? (f : DateFields) : Reads DateFields := fun cs => do
  let (hour, cs) ← number? 2 2 cs
  let cs ← colon cs
  let (minute, cs) ← number? 2 2 cs
  let cs ← colon cs
  let (second, cs) ← number? 2 2 cs
  let f ← enter? .hour hour f
  let f ← enter? .minute minute f
  let f ← enter? .second second f
  match cs with
  | '.' :: rest => do
    let (nanos, cs) ← fraction? rest
    let f ← enter? .nanosecond nanos f
    some (f, cs)
  | _ => some (f, cs)

/-- Drops a hyphen. -/
def hyphen : List Char → Option (List Char)
  | '-' :: cs => some cs
  | _ => none

/-- Reads the form for exchange exactly: fixed widths, a `T` or a blank between
date and time, and an offset of less than a day. -/
def strictExchange? (f : DateFields) : Reads DateFields := fun cs => do
  let (year, cs) ← number? 4 4 cs
  let cs ← hyphen cs
  let (month, cs) ← number? 2 2 cs
  let cs ← hyphen cs
  let (day, cs) ← number? 2 2 cs
  let f ← enter? .year year f
  let f ← enter? .month month f
  let f ← enter? .day day f
  let cs ← dateTimeSeparator cs
  let (f, cs) ← strictTime? f cs
  let (offset, cs) ← offset? colon true false cs
  if offset.natAbs ≤ 86340 then
    let f ← enterOffset? offset f
    some (f, cs)
  else none

/-- Reads a date, a separator and a time with the freedom of number fields, and an
offset that may also be `Z` or `UTC`. -/
def looseExchange? (f : DateFields) : Reads DateFields := fun cs => do
  let (f, cs) ← readNumeric? .year f cs
  let cs ← hyphen (Text.trimFront cs)
  let (f, cs) ← readNumeric? .month f cs
  let cs ← hyphen (Text.trimFront cs)
  let (f, cs) ← readNumeric? .day f cs
  let cs ← dateTimeSeparator cs
  let (f, cs) ← readNumeric? .hour f cs
  let cs ← colon (Text.trimFront cs)
  let (f, cs) ← readNumeric? .minute f cs
  let cs ← colon (Text.trimFront cs)
  let (f, cs) ← readNumeric? .second f cs
  let (f, cs) ←
    match cs with
    | '.' :: rest => do
      let (nanos, cs) ← fraction? rest
      let f ← enter? .nanosecond nanos f
      some (f, cs)
    | _ => some (f, cs)
  let cs := Text.trimFront cs
  match dropName? ['u', 't', 'c'] cs with
  | some rest => do
    let f ← enterOffset? 0 f
    some (f, rest)
  | none => do
    let (offset, rest) ← offset? looseSeparator true false cs
    let f ← enterOffset? offset f
    some (f, rest)

/-- Reads a field that is not a number. -/
def readNamed? (field : NamedField) (f : DateFields) : Reads DateFields := fun cs =>
  match field with
  | .shortMonth => do
    let (i, rest) ← name? false monthNames 1 cs
    let f ← enter? .month i f
    some (f, rest)
  | .longMonth => do
    let (i, rest) ← name? true monthNames 1 cs
    let f ← enter? .month i f
    some (f, rest)
  | .shortDay => do
    let (i, rest) ← name? false dayNames 1 cs
    let f ← enter? .weekdayFromMonday i f
    some (f, rest)
  | .longDay => do
    let (i, rest) ← name? true dayNames 1 cs
    let f ← enter? .weekdayFromMonday i f
    some (f, rest)
  | .smallHalfDay | .halfDay => do
    let (half, rest) ← name? false [("am", ""), ("pm", "")] 0 cs
    let halfDay ← (DateFields.enter 0 1 half f.halfDay).toOption
    some ({ f with halfDay }, rest)
  | .fraction =>
    match cs with
    | '.' :: rest => do
      let (nanos, rest) ← fraction? rest
      let f ← enter? .nanosecond nanos f
      some (f, rest)
    | _ => some (f, cs)
  | .fractionPlaces places true =>
    match cs with
    | '.' :: rest => do
      let (nanos, rest) ← fractionPlaces? places rest
      let f ← enter? .nanosecond nanos f
      some (f, rest)
    | _ => some (f, cs)
  | .fractionPlaces places false => do
    let (nanos, rest) ← fractionPlaces? places cs
    let f ← enter? .nanosecond nanos f
    some (f, rest)
  | .zoneName => some (f, cs.dropWhile fun c => !Text.isBlank c)
  | .offset _ => do
    let (v, rest) ← offset? looseSeparator false false (Text.trimFront cs)
    let f ← enterOffset? v f
    some (f, rest)
  | .looseOffset => do
    let (v, rest) ← offset? looseSeparator true true (Text.trimFront cs)
    let f ← enterOffset? v f
    some (f, rest)
  | .exchange => looseExchange? f cs

/-- Reads one item. -/
def readItem? (item : PatternItem) (f : DateFields) : Reads DateFields := fun cs =>
  match item with
  | .literal text => (dropText? text cs).map fun rest => (f, rest)
  | .blank _ => some (f, Text.trimFront cs)
  | .numeric field _ => readNumeric? field f cs
  | .named field => readNamed? field f cs

/-- Reads all items and demands that nothing is left over. -/
def readItems? : List PatternItem → DateFields → List Char → Option DateFields
  | [], f, [] => some f
  | [], _, _ :: _ => none
  | item :: items, f, cs => do
    let (f, rest) ← readItem? item f cs
    readItems? items f rest

/-- The fields of a text that follows a pattern. -/
def fields? (items : List PatternItem) (text : String) : Option DateFields :=
  readItems? items {} text.toList

/-- Reads a text in the form for exchange. -/
def readExchange? (text : String) : Option Instant := do
  let (f, rest) ← strictExchange? {} text.toList
  if rest.isEmpty then f.toInstant.toOption else none

/-- Reads date and time without an offset, taken as universal time. -/
def readDateTime? (items : List PatternItem) (text : String) : Option Instant := do
  let f ← fields? items text
  let c ← (f.toReading 0).toOption
  some c.toInstant

/-- Reads a date, taken as its midnight in universal time. -/
def readDate? (items : List PatternItem) (text : String) : Option Instant := do
  let f ← fields? items text
  let d ← f.toDate.toOption
  some (ClockReading.midnight d).toInstant

/-- Reads an instant with its offset, or from a count of seconds. -/
def readInstant? (items : List PatternItem) (text : String) : Option Instant := do
  let f ← fields? items text
  f.toInstant.toOption

/-- Reads a text by a pattern as whatever it turns out to be: an instant, a date
with a time, or a date. -/
def readAny? (items : List PatternItem) (text : String) : Option Instant :=
  (readInstant? items text).or ((readDateTime? items text).or (readDate? items text))

end RowFormula.Calendar.DatePattern
