/-
# Matching a whole text and searching in it

`matches` sets the pattern between anchors and parentheses, as a text, where `finds` takes it as it
is.  They agree on what a pattern is unless it ends in a comment or closes the parenthesis that
`matches` puts in front of it.
-/

import RowFormula.Proofs.Searching
import RowFormula.Proofs.WholePatterns

namespace RowFormula.Catalog

open Pattern (ClosesEarly EndsInComment IsPattern MatchesWhole Named PatternFault)

variable {text pattern : String}

/-! ### Questions by a pattern -/

/-- A question about a text by a pattern, which is put into another form before it is read. -/
def patternPredicate (name description : String) (whole : String → String) : Function :=
  textPredicate name description fun call text pattern => do
    let p ← readPattern call (whole pattern)
    pure (p.pattern.matchesIn text)

section Body

variable {name description : String} {whole : String → String} {named : Named}
  {fault : PatternFault}

theorem body_patternPredicate (call : Call) :
    (patternPredicate name description whole).body call [.ofString text, .ofString pattern] =
      (readPattern call (whole pattern) >>= fun p => pure (p.pattern.matchesIn text)) >>=
        fun b => pure (.ofBool b) := rfl

theorem gives_patternPredicate (hf : patternPredicate name description whole ∈ functions)
    (h : Pattern.read (whole pattern) = .ok named) :
    Gives name [.ofString text, .ofString pattern] (.ofBool (named.pattern.matchesIn text)) := by
  refine gives_of_mem hf fun call => ?_
  rw [body_patternPredicate, readPattern, h]
  rfl

theorem rejects_patternPredicate (hf : patternPredicate name description whole ∈ functions)
    (h : Pattern.read (whole pattern) = .error fault) :
    Rejects name [.ofString text, .ofString pattern]
      (.invalidRegex (whole pattern) fault.message) := by
  refine rejects_of_mem hf fun call => ?_
  rw [body_patternPredicate, readPattern, h]
  rfl

/-- There is an answer for every text if the pattern can be read, and else there is none. -/
theorem exists_gives_iff (hf : patternPredicate name description whole ∈ functions) :
    (∃ v, Gives name [.ofString text, .ofString pattern] v) ↔ IsPattern (whole pattern) := by
  cases h : Pattern.read (whole pattern) with
  | ok named => exact ⟨fun _ => ⟨named, h⟩, fun _ => ⟨_, gives_patternPredicate hf h⟩⟩
  | error fault =>
      have hrejects : Rejects name [.ofString text, .ofString pattern] _ :=
        rejects_patternPredicate hf h
      refine ⟨fun ⟨v, hv⟩ => absurd hrejects hv.not_rejects, fun ⟨named, hnamed⟩ => ?_⟩
      rw [h] at hnamed
      cases hnamed

theorem exists_rejects_iff (hf : patternPredicate name description whole ∈ functions) :
    (∃ shown message, Rejects name [.ofString text, .ofString pattern]
      (.invalidRegex shown message)) ↔ ¬ IsPattern (whole pattern) := by
  cases h : Pattern.read (whole pattern) with
  | ok named =>
      have hgives : Gives name [.ofString text, .ofString pattern] _ :=
        gives_patternPredicate hf h
      refine ⟨fun ⟨_, _, hrejects⟩ => absurd hrejects hgives.not_rejects, fun hnot => ?_⟩
      exact absurd ⟨named, h⟩ hnot
  | error fault =>
      refine ⟨fun _ ⟨named, hnamed⟩ => ?_, fun _ => ⟨_, _, rejects_patternPredicate hf h⟩⟩
      rw [h] at hnamed
      cases hnamed

theorem gives_true_iff (hf : patternPredicate name description whole ∈ functions) :
    Gives name [.ofString text, .ofString pattern] (.ofBool true) ↔
      ∃ named, Pattern.read (whole pattern) = .ok named ∧
        named.pattern.matchesIn text = true := by
  constructor
  · intro htrue
    obtain ⟨named, h⟩ := (exists_gives_iff hf).1 ⟨_, htrue⟩
    refine ⟨named, h, ?_⟩
    have heq := htrue.unique (gives_patternPredicate hf h)
    simpa [Value.ofBool] using heq.symm
  · rintro ⟨named, h, hmatch⟩
    exact hmatch ▸ gives_patternPredicate hf h

end Body

theorem matches_mem : patternPredicate "matches"
    "Whether the whole text matches the regular expression" wholePattern ∈ functions :=
  mem_functions_of_information (List.mem_of_getElem? (i := 4) rfl)

theorem finds_mem : patternPredicate "finds"
    "Whether the regular expression matches somewhere in the text" id ∈ functions :=
  mem_functions_of_information (List.mem_of_getElem? (i := 5) rfl)

theorem exists_gives_matches_iff :
    (∃ v, Gives "matches" [.ofString text, .ofString pattern] v) ↔
      IsPattern (wholePattern pattern) :=
  exists_gives_iff matches_mem

theorem exists_gives_finds_iff :
    (∃ v, Gives "finds" [.ofString text, .ofString pattern] v) ↔ IsPattern pattern := by
  show _ ↔ IsPattern (id pattern)
  exact exists_gives_iff finds_mem

theorem exists_rejects_matches_iff :
    (∃ shown message, Rejects "matches" [.ofString text, .ofString pattern]
      (.invalidRegex shown message)) ↔ ¬ IsPattern (wholePattern pattern) :=
  exists_rejects_iff matches_mem

theorem exists_rejects_finds_iff :
    (∃ shown message, Rejects "finds" [.ofString text, .ofString pattern]
      (.invalidRegex shown message)) ↔ ¬ IsPattern pattern := by
  show _ ↔ ¬ IsPattern (id pattern)
  exact exists_rejects_iff finds_mem

/-- For a pattern that does not end in a comment, `matches` says yes if and only if the pattern
matches the whole text. -/
theorem gives_matches_iff {named : Named} (h : Pattern.read pattern = .ok named)
    (hcomment : ¬ EndsInComment pattern) :
    Gives "matches" [.ofString text, .ofString pattern] (.ofBool true) ↔
      MatchesWhole named.pattern text := by
  have hwhole := Pattern.read_wholePattern h hcomment
  rw [gives_true_iff matches_mem, ← Pattern.matchesIn_anchored]
  constructor
  · rintro ⟨named', h', hmatch⟩
    rw [hwhole] at h'
    cases h'
    exact hmatch
  · exact fun hmatch => ⟨_, hwhole, hmatch⟩

/-- `finds` says yes if and only if the pattern matches some part of the text. -/
theorem gives_finds_iff {named : Named} (h : Pattern.read pattern = .ok named) :
    Gives "finds" [.ofString text, .ofString pattern] (.ofBool true) ↔
      named.pattern.matchesIn text = true := by
  rw [gives_true_iff finds_mem]
  constructor
  · rintro ⟨named', h', hmatch⟩
    obtain rfl := Except.ok.inj (h.symm.trans h')
    exact hmatch
  · exact fun hmatch => ⟨named, h, hmatch⟩

/-! ### Where the functions agree -/

/-- For every text, `matches` answers if and only if `finds` does, and both reject what is no
pattern by itself; whenever `matches` says yes, `finds` does, and the pattern matches the whole
text. -/
structure MatchesAsFinds (pattern : String) : Prop where
  gives_iff : ∀ text, (∃ v, Gives "matches" [.ofString text, .ofString pattern] v) ↔
    ∃ v, Gives "finds" [.ofString text, .ofString pattern] v
  rejects_iff : ∀ text, ∀ name ∈ ["matches", "finds"],
    (∃ shown message, Rejects name [.ofString text, .ofString pattern]
      (.invalidRegex shown message)) ↔ ¬ IsPattern pattern
  finds : ∀ text, Gives "matches" [.ofString text, .ofString pattern] (.ofBool true) →
    Gives "finds" [.ofString text, .ofString pattern] (.ofBool true)
  whole : ∀ text, Gives "matches" [.ofString text, .ofString pattern] (.ofBool true) →
    ∃ named, Pattern.read pattern = .ok named ∧ MatchesWhole named.pattern text

end RowFormula.Catalog
