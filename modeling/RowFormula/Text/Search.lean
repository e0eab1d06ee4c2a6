/-
# Searching and cutting

Positions and lengths count characters.  Searching is for literal text; patterns
have their own modules.
-/

namespace RowFormula.Text

/-- What follows `needle` at the front of `cs`, if it stands there. -/
def dropText? : (needle : List Char) → (cs : List Char) → Option (List Char)
  | [], cs => some cs
  | _ :: _, [] => none
  | n :: needle, c :: cs => if n = c then dropText? needle cs else none

/-- Position of the first occurrence of `needle`, counted from `start`. -/
def indexFrom? (needle : List Char) : (start : Nat) → List Char → Option Nat
  | start, [] => if needle.isEmpty then some start else none
  | start, c :: cs =>
    if (dropText? needle (c :: cs)).isSome then some start
    else indexFrom? needle (start + 1) cs

/-- Position of the first occurrence of a text in another. -/
def index? (needle haystack : String) : Option Nat :=
  indexFrom? needle.toList 0 haystack.toList

def contains (haystack needle : String) : Bool :=
  (index? needle haystack).isSome

def startsWith (s front : String) : Bool :=
  (dropText? front.toList s.toList).isSome

def endsWith (s back : String) : Bool :=
  (dropText? back.toList.reverse s.toList.reverse).isSome

/-- Replaces the occurrences of `needle`, which is not empty.  `skip` characters
belong to the occurrence just replaced. -/
def replaceFrom (needle replacement : List Char) : (skip : Nat) → List Char → List Char
  | _, [] => []
  | skip + 1, _ :: cs => replaceFrom needle replacement skip cs
  | 0, c :: cs =>
    if (dropText? needle (c :: cs)).isSome then
      replacement ++ replaceFrom needle replacement (needle.length - 1) cs
    else c :: replaceFrom needle replacement 0 cs

/-- Replaces every occurrence of a text, from left to right and without overlap.
The empty text occurs before every character and at the end. -/
def replace (s needle replacement : String) : String :=
  if needle.isEmpty then
    String.ofList (s.toList.foldr (fun c cs => replacement.toList ++ c :: cs) replacement.toList)
  else String.ofList (replaceFrom needle.toList replacement.toList 0 s.toList)

/-- What stands before and behind the first occurrence of a character. -/
def splitFirst? (mark : Char) (s : String) : Option (String × String) :=
  let before := s.toList.takeWhile (· != mark)
  match s.toList.drop before.length with
  | [] => none
  | _ :: behind => some (String.ofList before, String.ofList behind)

/-- What stands before and behind the last occurrence of a character. -/
def splitLast? (mark : Char) (s : String) : Option (String × String) :=
  let reversed := s.toList.reverse
  let behind := reversed.takeWhile (· != mark)
  match reversed.drop behind.length with
  | [] => none
  | _ :: before => some (String.ofList before.reverse, String.ofList behind.reverse)

/-- The first `n` characters, or all if there are fewer. -/
def front (n : Nat) (s : String) : String :=
  String.ofList (s.toList.take n)

/-- The last `n` characters, or all if there are fewer. -/
def back (n : Nat) (s : String) : String :=
  String.ofList (s.toList.drop (s.length - n))

/-- The `length` characters from position `start` on. -/
def slice (start length : Nat) (s : String) : String :=
  String.ofList ((s.toList.drop start).take length)

theorem dropText?_eq_some_iff {needle cs rest : List Char} :
    dropText? needle cs = some rest ↔ cs = needle ++ rest := by
  induction needle generalizing cs with
  | nil => simp [dropText?, eq_comm]
  | cons n needle ih =>
    cases cs with
    | nil => simp [dropText?]
    | cons c cs =>
      by_cases h : n = c
      · simp [dropText?, h, ih]
      · simp [dropText?, h, Ne.symm h]

end RowFormula.Text
