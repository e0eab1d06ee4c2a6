/-
# What labels mark

Errors say where they are in bytes, and a report marks characters.  A label is handed on from one to
the other as it is, so it stands under the right text as long as a character is a byte.  Behind a
longer character it is shifted to the right, and over one it is too wide.  At the very end of a text
there is nothing left that a label could take in wrongly, so there a longer character does no harm.
-/

import RowFormula.Proofs.Fragments
import RowFormula.Proofs.Locations

namespace RowFormula

namespace Span

variable {cs front under behind : List Char} {span : Span} {source : String}

/-- A position between two characters divides a text. -/
theorem exists_append_of_isValid {n : Nat} (h : String.Pos.Raw.IsValid source ⟨n⟩) :
    ∃ front behind, source.toList = front ++ behind ∧ n = bytesOf front := by
  obtain ⟨s, t, rfl, hn⟩ := String.Pos.Raw.isValid_iff_exists_append.1 h
  refine ⟨s.toList, t.toList, String.toList_append, ?_⟩
  rw [bytesOf_eq_utf8ByteSize, String.ofList_toList]
  exact congrArg String.Pos.Raw.byteIdx hn

theorem length_le_bytesOf (cs : List Char) : cs.length ≤ bytesOf cs := by
  induction cs with
  | nil => exact Nat.le_refl 0
  | cons c cs ih =>
      have hpositive := c.utf8Size_pos
      rw [List.length_cons, bytesOf]
      omega

/-- Only characters of one byte take as many bytes as there are characters. -/
theorem bytesOf_eq_length_iff : bytesOf cs = cs.length ↔ ∀ c ∈ cs, c.utf8Size = 1 := by
  induction cs with
  | nil => simp [bytesOf]
  | cons c cs ih =>
      have hpositive := c.utf8Size_pos
      have hle := length_le_bytesOf cs
      rw [List.forall_mem_cons, ← ih, bytesOf, List.length_cons]
      omega

theorem eq_nil_of_bytesOf_le_zero (h : bytesOf cs ≤ 0) : cs = [] :=
  List.eq_nil_of_length_eq_zero (Nat.le_zero.1 ((length_le_bytesOf cs).trans h))

/-- A span that fits a text has some characters of it in front, some under it, and the others
behind. -/
theorem Fits.exists_parts (h : span.Fits source) :
    ∃ front under behind, source.toList = front ++ (under ++ behind) ∧
      span = ⟨bytesOf front, bytesOf (front ++ under)⟩ := by
  obtain ⟨front, rest, hfront, hstart⟩ := exists_append_of_isValid h.start_isValid
  obtain ⟨upto, behind, hupto, hstop⟩ := exists_append_of_isValid h.stop_isValid
  have hle := h.start_le_stop
  rw [hstart, hstop] at hle
  rcases List.append_eq_append_iff.1 (hfront.symm.trans hupto) with
    ⟨under, rfl, rfl⟩ | ⟨extra, rfl, rfl⟩
  · exact ⟨front, under, behind, hfront, congrArg₂ Span.mk hstart hstop⟩
  · -- The span would end before it starts unless nothing lies in between.
    rw [bytesOf_append] at hle
    have hextra : extra = [] := eq_nil_of_bytesOf_le_zero (by omega)
    subst hextra
    rw [List.append_nil] at hstart
    refine ⟨upto, [], rest, hupto, ?_⟩
    rw [List.append_nil]
    exact congrArg₂ Span.mk hstart hstop

theorem fits_parts (h : source.toList = front ++ (under ++ behind)) :
    Fits ⟨bytesOf front, bytesOf (front ++ under)⟩ source := by
  have hstop := isValid_bytesOf (h.trans (List.append_assoc front under behind).symm)
  refine ⟨?_, hstop.le_utf8ByteSize, isValid_bytesOf h, hstop⟩
  rw [bytesOf_append]
  exact Nat.le_add_right _ _

/-- The text under a span. -/
theorem textOf_parts (h : source.toList = front ++ (under ++ behind)) :
    textOf ⟨bytesOf front, bytesOf (front ++ under)⟩ source = String.ofList under := by
  have hle : bytesOf front ≤ bytesOf (front ++ under) := (fits_parts h).start_le_stop
  have hlength : bytesOf (front ++ under) - bytesOf front = bytesOf under := by
    rw [bytesOf_append, Nat.add_sub_cancel_left]
  rw [textOf, chars?, if_pos hle, h, dropBytes?_bytesOf, Option.bind_some, hlength,
    takeBytes?_bytesOf, Option.getD_some]

end Span

namespace Report

open RowFormula.Span (bytesOf bytesOf_append bytesOf_eq_length_iff length_le_bytesOf)

namespace Label

variable {front under behind : List Char} {l : Label} {span : Span} {source : String}

/-- The label is at the positions of the characters under the span. -/
def Marks (l : Label) (span : Span) (source : String) : Prop :=
  ∃ front under behind, source.toList = front ++ (under ++ behind) ∧
    span = ⟨bytesOf front, bytesOf (front ++ under)⟩ ∧
    l = ⟨front.length, (front ++ under).length⟩

/-- A label at the right positions takes in the right text. -/
theorem Marks.textOf_eq (h : l.Marks span source) : l.textOf source = span.textOf source := by
  rcases h with ⟨front, under, behind, hsource, rfl, rfl⟩
  rw [Span.textOf_parts hsource, textOf, hsource]
  show String.ofList (((front ++ (under ++ behind)).drop front.length).take
    ((front ++ under).length - front.length)) = _
  rw [List.length_append, Nat.add_sub_cancel_left, List.drop_left, List.take_left]

/-- The label that a report draws for a span. -/
theorem ofSpan_parts (h : source.toList = front ++ (under ++ behind)) :
    ofSpan source.utf8ByteSize ⟨bytesOf front, bytesOf (front ++ under)⟩ =
      ⟨bytesOf front, bytesOf (front ++ under)⟩ :=
  ofSpan_of_fits (Span.fits_parts h)

/-- The characters under the label. -/
theorem textOf_ofSpan_parts (h : source.toList = front ++ (under ++ behind)) :
    textOf (ofSpan source.utf8ByteSize ⟨bytesOf front, bytesOf (front ++ under)⟩) source =
      String.ofList (((front ++ (under ++ behind)).drop (bytesOf front)).take (bytesOf under)) := by
  rw [ofSpan_parts h, textOf, h]
  show String.ofList (List.take (bytesOf (front ++ under) - bytesOf front) _) = _
  rw [bytesOf_append, Nat.add_sub_cancel_left]

/-- All characters up to the end of the span take a byte each. -/
def IsPlainUpTo (span : Span) (source : String) : Prop :=
  ∃ front under behind, source.toList = front ++ (under ++ behind) ∧
    span = ⟨bytesOf front, bytesOf (front ++ under)⟩ ∧ ∀ c ∈ front ++ under, c.utf8Size = 1

/-- A label marks the characters under its span exactly if bytes and characters are the same up to
there. -/
theorem marks_ofSpan_iff (hfits : span.Fits source) :
    (ofSpan source.utf8ByteSize span).Marks span source ↔ IsPlainUpTo span source := by
  rw [ofSpan_of_fits hfits]
  constructor
  · rintro ⟨front, under, behind, hsource, rfl, hlabel⟩
    have hstop : bytesOf (front ++ under) = (front ++ under).length := congrArg stop hlabel
    exact ⟨front, under, behind, hsource, rfl, bytesOf_eq_length_iff.1 hstop⟩
  · rintro ⟨front, under, behind, hsource, rfl, hplain⟩
    have hstart : bytesOf front = front.length :=
      bytesOf_eq_length_iff.2 fun c hc => hplain c (List.mem_append_left under hc)
    refine ⟨front, under, behind, hsource, rfl, ?_⟩
    rw [bytesOf_eq_length_iff.2 hplain, hstart]

/-- Behind characters of one byte each, a label takes in its fragment and nothing else if nothing
stands behind the fragment, or if the fragment too has only such characters. -/
theorem textOf_ofSpan_of_plain (h : source.toList = front ++ (under ++ behind))
    (hfront : ∀ c ∈ front, c.utf8Size = 1)
    (hunder : behind = [] ∨ ∀ c ∈ under, c.utf8Size = 1) :
    textOf (ofSpan source.utf8ByteSize ⟨bytesOf front, bytesOf (front ++ under)⟩) source =
      String.ofList under := by
  rw [textOf_ofSpan_parts h, bytesOf_eq_length_iff.2 hfront, List.drop_left]
  rcases hunder with rfl | hplain
  · rw [List.append_nil, List.take_of_length_le (length_le_bytesOf under)]
  · rw [bytesOf_eq_length_iff.2 hplain, List.take_left]

/-- Behind a character of several bytes the label for the last character of a text is empty. -/
theorem textOf_ofSpan_last {init : List Char} {last : Char}
    (h : source.toList = init ++ ([last] ++ [])) (hwide : bytesOf init ≠ init.length) :
    textOf (ofSpan source.utf8ByteSize ⟨bytesOf init, bytesOf (init ++ [last])⟩) source = "" := by
  have hle := length_le_bytesOf init
  have hbeyond : (init ++ ([last] ++ [])).length ≤ bytesOf init := by
    rw [List.append_nil, List.length_append, List.length_singleton]
    omega
  rw [textOf_ofSpan_parts h, List.drop_eq_nil_of_le hbeyond, List.take_nil]

/-- Labels take in what errors call the fragment, whatever the fragment is, exactly in those texts
of which at most the last character takes more than one byte. -/
theorem textOf_ofSpan_iff (source : String) :
    (∀ span : Span, span.Fits source →
      textOf (ofSpan source.utf8ByteSize span) source = span.textOf source) ↔
    ∀ c ∈ source.toList.dropLast, c.utf8Size = 1 := by
  constructor
  · intro hselects
    rcases List.eq_nil_or_concat' source.toList with hnil | ⟨init, last, hsource⟩
    · rw [hnil]
      exact List.forall_mem_nil _
    · rw [hsource, List.dropLast_concat]
      refine bytesOf_eq_length_iff.1 (by_contra fun hwide => ?_)
      have hparts : source.toList = init ++ ([last] ++ []) := hsource
      have hselected := hselects _ (Span.fits_parts hparts)
      rw [textOf_ofSpan_last hparts hwide, Span.textOf_parts hparts] at hselected
      exact absurd (congrArg String.toList hselected) (by simp)
  · intro hplain span hfits
    obtain ⟨front, under, behind, hsource, rfl⟩ := hfits.exists_parts
    rw [Span.textOf_parts hsource]
    by_cases hbehind : behind = []
    · by_cases hunder : under = []
      · -- An empty fragment is marked by an empty label, wherever this stands.
        rw [textOf_ofSpan_parts hsource, hunder]
        rfl
      · rw [hsource, ← List.append_assoc, hbehind, List.append_nil,
          List.dropLast_append_of_ne_nil hunder] at hplain
        exact textOf_ofSpan_of_plain hsource
          (fun c hc => hplain c (List.mem_append_left _ hc)) (.inl hbehind)
    · rw [hsource, ← List.append_assoc, List.dropLast_append_of_ne_nil hbehind] at hplain
      exact textOf_ofSpan_of_plain hsource
        (fun c hc => hplain c (List.mem_append_left _ (List.mem_append_left _ hc)))
        (.inr fun c hc => hplain c (List.mem_append_left _ (List.mem_append_right _ hc)))

end Label

/-- When labels are right.  The label for a span stands at the characters under it exactly if no
character up to there takes more than one byte, and then it takes in the fragment.  As far as only
the text under the label counts, all labels of a text are right exactly if at most its last
character takes more than one byte. -/
theorem labels_right_iff (source : String) :
    (∀ span : Span, span.Fits source →
      ((Label.ofSpan source.utf8ByteSize span).Marks span source ↔
        Label.IsPlainUpTo span source)) ∧
    (∀ (l : Label) (span : Span), l.Marks span source → l.textOf source = span.textOf source) ∧
    ((∀ span : Span, span.Fits source →
        (Label.ofSpan source.utf8ByteSize span).textOf source = span.textOf source) ↔
      ∀ c ∈ source.toList.dropLast, c.utf8Size = 1) := by
  refine ⟨?positions, ?text, ?texts⟩
  case positions => exact fun _ hfits => Label.marks_ofSpan_iff hfits
  case text => exact fun _ _ hmarks => hmarks.textOf_eq
  case texts => exact Label.textOf_ofSpan_iff source

/-- Up to a character of two bytes, and at this character if it is the last one, labels are right. -/
theorem labels_right_of_last_letter :
    let source := "1 - é"
    Span.Fits ⟨0, 3⟩ source ∧ Span.Fits ⟨4, 6⟩ source ∧
      (Label.ofSpan source.utf8ByteSize ⟨0, 3⟩).textOf source = "1 -" ∧
      (Label.ofSpan source.utf8ByteSize ⟨4, 6⟩).textOf source = "é" := by
  intro source
  have hfront : source.toList = [] ++ (['1', ' ', '-'] ++ [' ', 'é']) := by decide
  have hback : source.toList = ['1', ' ', '-', ' '] ++ (['é'] ++ []) := by decide
  have hspan : Span.mk 0 3 = ⟨bytesOf [], bytesOf ([] ++ ['1', ' ', '-'])⟩ := by decide
  have hspan' : Span.mk 4 6 =
      ⟨bytesOf ['1', ' ', '-', ' '], bytesOf (['1', ' ', '-', ' '] ++ ['é'])⟩ := by
    decide
  have hfits : Span.Fits ⟨0, 3⟩ source := hspan ▸ Span.fits_parts hfront
  have hfits' : Span.Fits ⟨4, 6⟩ source := hspan' ▸ Span.fits_parts hback
  obtain ⟨hpositions, htext, htexts⟩ := labels_right_iff source
  have hplain : ∀ c ∈ [] ++ ['1', ' ', '-'], c.utf8Size = 1 :=
    bytesOf_eq_length_iff.1 (by decide)
  have hplain' : ∀ c ∈ source.toList.dropLast, c.utf8Size = 1 :=
    bytesOf_eq_length_iff.1 (by decide)
  have hmarks := (hpositions _ hfits).2 ⟨_, _, _, hfront, hspan, hplain⟩
  have hunder : Span.textOf ⟨0, 3⟩ source = "1 -" := by decide
  have hunder' : Span.textOf ⟨4, 6⟩ source = "é" := by decide
  refine ⟨hfits, hfits', (htext _ _ hmarks).trans hunder, ?_⟩
  exact (htexts.2 hplain' _ hfits').trans hunder'

/-- The text that is no number stands behind a character of two bytes, and the label under it is one
character too far to the right. -/
theorem label_beside_fragment :
    let source := "\"é\" + sqrt(\"a\")"
    ∃ error, Formula.compile (({} : Engine).context ⟨0, 0⟩ {}) source = .error error ∧
      error.source? = some source ∧ error.diagnosis.span.Fits source ∧
      error.diagnosis.span.textOf source = "\"a\"" ∧
      (Label.ofSpan source.utf8ByteSize error.diagnosis.span).textOf source = "a\")" := by
  intro source
  have hcheck : ((Formula.compile (({} : Engine).context ⟨0, 0⟩ {}) source).map fun _ =>
      ()).mapError (fun error => (error.source?, error.diagnosis.span)) =
        .error (some source, ⟨12, 15⟩) := by
    decide +kernel
  cases herror : Formula.compile (({} : Engine).context ⟨0, 0⟩ {}) source with
  | ok f =>
      rw [herror] at hcheck
      cases hcheck
  | error error =>
      rw [herror] at hcheck
      obtain ⟨hsource, hspan⟩ := Prod.mk.inj (Except.error.inj hcheck)
      have hparts : source.toList = "\"é\" + sqrt(".toList ++ ("\"a\"".toList ++ [')']) := by
        decide
      refine ⟨error, rfl, hsource, ?_⟩
      rw [hspan]
      exact ⟨Span.fits_parts hparts, Span.textOf_parts hparts,
        (Label.textOf_ofSpan_parts hparts).trans (by decide)⟩

end Report

end RowFormula
