/-
# Reports

A report shows an error over the text of the formula: the message, the lines that the
error is about, a label under the offending part, and advice.

The label is given in positions of the text.  A label within one line is drawn below
that line; one that spans lines is drawn in the margin, and of the lines in between only
a gap is shown.
-/

import RowFormula.Error
import RowFormula.Report.Ink
import RowFormula.Report.Line

namespace RowFormula.Report

/-- The part of a text that is marked: from one position up to another. -/
structure Label where
  start : Nat
  stop : Nat
  deriving DecidableEq, Repr

/-- The label for a span, kept inside a text of so many bytes.  A byte counts as a
position, so the label fits the span where every character takes one byte. -/
def Label.ofSpan (size : Nat) (span : Span) : Label :=
  let start := min span.start size
  ⟨start, max start (min span.stop size)⟩

namespace Label

def contains (l : Label) (position : Nat) : Bool :=
  l.start ≤ position && position < l.stop

/-- The last position of a label, or its only one. -/
def last (l : Label) : Nat := max (l.stop - 1) l.start

/-- Whether both ends of a label lie in a text of so many characters. -/
def fits (l : Label) (length : Nat) : Bool :=
  l.start ≤ length && (l.stop ≤ l.start || l.stop - 1 ≤ length)

/-- The text under a label. -/
def textOf (l : Label) (source : String) : String :=
  String.ofList ((source.toList.drop l.start).take (l.stop - l.start))

end Label

/-- The name under which reports mention the text of a formula. -/
def sourceName : String := "<formula>"

def repeated (count : Nat) (text : String) : String :=
  String.join (List.replicate count text)

section Drawing

variable (colored : Bool)

/-- Paints a text and puts it as often as given. -/
def strokes (ink : Ink) (count : Nat) (text : String) : String :=
  repeated count (ink.paint colored text)

/-- The margin beside a line of the formula. -/
def numberMargin (width number : Nat) : String :=
  " " ++ Ink.margin.paint colored (Text.padLeft width ' ' (Text.decimal number) ++ " │") ++ " "

/-- The margin beside everything else. -/
def otherMargin (width : Nat) (bar : String) : String :=
  " " ++ Ink.skippedMargin.paint colored (repeated (width + 1) " " ++ bar) ++ " "

/-- A line of the formula, its label in another ink than the rest. -/
def lineText (label : Label) (l : Line) : String :=
  String.join (l.shown.mapIdx fun column c =>
    let ink := if label.contains (l.start + column) then Ink.label else Ink.plain
    if Text.isBlank c then strokes colored ink (l.columnsAt column) " "
    else ink.paint colored (String.singleton c))

/-- A row below a line: each of its first characters decides what stands in its first
column and what fills up the others. -/
def rowBelow (l : Line) (count : Nat) (cell : Nat → String × String) : String :=
  String.join ((List.range count).map fun column =>
    let (first, further) := cell column
    match l.columnsAt column with
    | 0 => ""
    | columns + 1 => first ++ repeated columns further)

/-- Drawing in the ink of labels. -/
def labelStroke (text : String) : String := Ink.label.paint colored text

/-- The label of a part within one line: a row that underlines it, and a row with an
arrow to the message. -/
def inlineLabel (width : Nat) (label : Label) (l : Line) (message : String) : String :=
  let middle := (label.start + label.stop) / 2 - l.start
  let count := label.stop - l.start + 2
  let bar := labelStroke colored "─"
  let underline (column : Nat) : String × String :=
    let marked := label.contains (l.start + column)
    if column = middle then
      if marked then (labelStroke colored "┬", bar)
      else (labelStroke colored "│", labelStroke colored " ")
    else if marked then (bar, bar)
    else (" ", " ")
  let arrow (column : Nat) : String × String :=
    if column = middle then (labelStroke colored "╰", bar)
    else if middle < column then (bar, bar)
    else (" ", " ")
  otherMargin colored width "│" ++ rowBelow l count underline ++ "\n" ++
    otherMargin colored width "│" ++ rowBelow l count arrow ++ " " ++ message ++ "\n"

/-- The rows for a part within one line.  A label that does not fit the line is not
drawn, and neither is the line. -/
def inlineRows (width : Nat) (label : Label) (number : Nat) (l : Line) (message : String) :
    String :=
  if l.start ≤ label.start && label.stop ≤ l.stop then
    numberMargin colored width number ++ lineText colored label l ++ "\n" ++
      inlineLabel colored width label l message
  else otherMargin colored width "│" ++ "\n"

/-- An arrow from the margin to a line. -/
def marginArrow (corner : String) : String :=
  labelStroke colored corner ++ labelStroke colored "─" ++ labelStroke colored "▶" ++
    labelStroke colored " "

/-- The rows for the last line of a part that spans lines. -/
def closingRows (width : Nat) (l : Line) (message : String) : String :=
  let count := l.chars.length + 2
  let bar := labelStroke colored "─"
  otherMargin colored width "│" ++ labelStroke colored "│" ++ "   " ++
    rowBelow l count (fun _ => (" ", " ")) ++ "\n" ++
    otherMargin colored width "│" ++ labelStroke colored "╰" ++ repeated 3 bar ++
    rowBelow l count (fun _ => (bar, bar)) ++ " " ++ message ++ "\n"

/-- The rows for a part that spans lines.  Of the lines that hold neither of its ends a
single gap is shown. -/
def spanningRows (width : Nat) (label : Label) (message : String) :
    (number : Nat) → (gap : Bool) → List Line → String
  | _, _, [] => ""
  | number, gap, l :: ls =>
    if l.contains label.start then
      numberMargin colored width number ++ marginArrow colored "╭" ++
        lineText colored label l ++ "\n" ++ spanningRows width label message (number + 1) false ls
    else if l.contains label.last then
      numberMargin colored width number ++ marginArrow colored "├" ++
        lineText colored label l ++ "\n" ++ closingRows colored width l message ++
        spanningRows width label message (number + 1) false ls
    else
      (if gap then ""
        else otherMargin colored width "┆" ++ labelStroke colored "┆" ++ "   " ++ "\n") ++
        spanningRows width label message (number + 1) true ls

/-- The advice.  Below a part that spans lines it is indented, and the bar of a part
that starts right behind the first line reaches down to it. -/
def helpRows (width : Nat) (indent : String) (help : Option String) : String :=
  match help with
  | none => ""
  | some help =>
    let margin := otherMargin colored width "│" ++ indent
    margin ++ "\n" ++ margin ++ Ink.note.paint colored "Help" ++ ": " ++ help ++ "\n"

/-- The excerpt of a text with its label. -/
def excerpt (source : String) (label : Label) (d : Diagnosis) : String :=
  let lines := linesOf source
  let first := lineNumber lines label.start
  let final := lineNumber lines label.last
  let width := (Text.decimal (final + 1)).length
  let column := label.start - (lines.getD first default).start
  let place := sourceName ++ ":" ++ Text.decimal (first + 1) ++ ":" ++ Text.decimal (column + 1)
  let margin (text : String) : String := Ink.margin.paint colored text
  let shown := (lines.drop first).take (final + 1 - first)
  let indent :=
    if first = final then ""
    else
      (if label.start = (lines.getD 0 default).stop then labelStroke colored "│" ++ " "
        else "  ") ++ "  "
  let body :=
    match shown with
    | [l] => inlineRows colored width label (first + 1) l d.message
    | ls => spanningRows colored width label d.message (first + 1) false ls
  repeated (width + 2) " " ++ margin "╭" ++ margin "─" ++ margin "[" ++ " " ++ place ++ " " ++
    margin "]" ++ "\n" ++
    repeated (width + 2) " " ++ margin "│" ++ "\n" ++ body ++
    helpRows colored width indent d.help ++
    margin (repeated (width + 2) "─" ++ "╯") ++ "\n"

/-- A diagnosis over the text that it is about.  Where the label lies outside of the
text only the message is shown. -/
def ofDiagnosis (source : String) (d : Diagnosis) : String :=
  let label := Label.ofSpan source.utf8ByteSize d.span
  Ink.headline.paint colored ("[" ++ d.code ++ "] Error:") ++ " " ++ d.message ++ "\n" ++
    (if label.fits source.length then excerpt colored source label d else "")

/-- The report of an error.  An error whose formula is not known is shown as one line
of text. -/
def ofError (e : Error) : String :=
  match e.source? with
  | some source => ofDiagnosis colored source e.diagnosis
  | none => e.diagnosis.severity ++ ": " ++ e.text ++ "\n"

end Drawing

end RowFormula.Report
