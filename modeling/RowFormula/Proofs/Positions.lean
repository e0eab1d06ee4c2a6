/-
# Positions in a text

A span fits a text if both of its ends stand between characters of it.  Recognition moves on
by whole characters only, so every cursor stands between two characters, whichever steps
succeeded or failed on the way.  The same is true of the place that attempts are noted for, and
with it of the error for a text that is not recognised.
-/

import RowFormula.Error.Syntax
import RowFormula.Proofs.Recognition

namespace RowFormula

namespace Span

/-- The span lies in the text and cuts no character in two. -/
structure Fits (span : Span) (text : String) : Prop where
  start_le_stop : span.start ≤ span.stop
  stop_le_size : span.stop ≤ text.utf8ByteSize
  start_isValid : String.Pos.Raw.IsValid text ⟨span.start⟩
  stop_isValid : String.Pos.Raw.IsValid text ⟨span.stop⟩

theorem bytesOf_eq_utf8ByteSize (cs : List Char) :
    bytesOf cs = (String.ofList cs).utf8ByteSize := by
  induction cs with
  | nil => rfl
  | cons c cs ih =>
      have hsplit : String.ofList (c :: cs) = String.singleton c ++ String.ofList cs := by
        rw [String.singleton_eq_ofList, ← String.ofList_append]
        rfl
      rw [bytesOf, ih, hsplit, String.utf8ByteSize_append, String.utf8ByteSize_singleton]

/-- The first characters of a text, however many, end at a valid position. -/
theorem isValid_bytesOf {text : String} {front back : List Char}
    (h : text.toList = front ++ back) : String.Pos.Raw.IsValid text ⟨bytesOf front⟩ := by
  refine String.Pos.Raw.isValid_iff_exists_append.2
    ⟨String.ofList front, String.ofList back, ?_, ?_⟩
  · rw [← String.ofList_append, ← h, String.ofList_toList]
  · rw [bytesOf_eq_utf8ByteSize]
    rfl

/-- What stands behind the characters that are dropped. -/
theorem dropBytes?_bytesOf (front back : List Char) :
    dropBytes? (bytesOf front) (front ++ back) = some back := by
  induction front with
  | nil => cases back <;> rfl
  | cons c front ih =>
      rw [List.cons_append, bytesOf, dropBytes?, if_pos (Nat.le_add_right _ _),
        Nat.add_sub_cancel_left, ih]
      have hpositive := c.utf8Size_pos
      omega

end Span

namespace Grammar

/-! ### Cursors -/

namespace Cursor

/-- The other cursor stands further on in the same text. -/
def Reaches (s s' : Cursor) : Prop := ∃ cs, s.Passes cs s'

theorem Passes.reaches {s s' : Cursor} {cs : List Char} (h : s.Passes cs s') : s.Reaches s' :=
  ⟨cs, h⟩

theorem Reaches.refl (s : Cursor) : s.Reaches s := ⟨[], .nil s⟩

theorem Reaches.trans {s s₁ s' : Cursor} (h : s.Reaches s₁) (h' : s₁.Reaches s') :
    s.Reaches s' := by
  obtain ⟨cs, hcs⟩ := h
  obtain ⟨ds, hds⟩ := h'
  exact ⟨cs ++ ds, hcs.append hds⟩

/-- The text between two cursors, the first of which was reached from the start. -/
theorem Reaches.fits {source : String} {s s' : Cursor} (h : Reaches ⟨source.toList, 0⟩ s)
    (h' : s.Reaches s') : Span.Fits ⟨s.position, s'.position⟩ source := by
  obtain ⟨front, hfront, hstart⟩ := h
  obtain ⟨cs, hcs, hstop⟩ := h'
  have hwhole : source.toList = (front ++ cs) ++ s'.rest := by
    rw [List.append_assoc, ← hcs]
    exact hfront
  have hstart : s.position = Span.bytesOf front := by rw [hstart, Nat.zero_add]
  have hstop : s'.position = Span.bytesOf (front ++ cs) := by
    rw [hstop, hstart, Span.bytesOf_append]
  have hvalid := Span.isValid_bytesOf hwhole
  rw [← hstop] at hvalid
  refine ⟨?_, hvalid.le_utf8ByteSize, ?_, hvalid⟩
  · rw [hstop, hstart, Span.bytesOf_append]
    exact Nat.le_add_right _ _
  · rw [hstart]
    exact Span.isValid_bytesOf hfront

end Cursor

open Cursor (Reaches)

/-- The attempts are noted for a place further on. -/
def Attempts.StandBehind (a : Attempts) (start : Cursor) : Prop :=
  ∃ s, start.Reaches s ∧ a.position = s.position

theorem Attempts.StandBehind.note {a before : Attempts} {start s : Cursor} {c : Construct}
    (h : a.StandBehind start) (hs : start.Reaches s) :
    (a.note before c s.position).StandBehind start := by
  unfold Attempts.note
  split
  · exact h
  · split
    · exact h
    · split
      · exact ⟨s, hs, rfl⟩
      · exact h

namespace Recognize

variable {α β : Type}

/-- The step goes on from where it is taken, and so do the attempts, also when it fails. -/
def GoesOn (p : Recognize α) : Prop :=
  ∀ (start s : Cursor) (a : Attempts), start.Reaches s → a.StandBehind start →
    (outcome p s a).2.StandBehind start ∧ ∀ r ∈ (outcome p s a).1, start.Reaches r.2

section Steps

variable {p q : Recognize α}

theorem goesOn_pure (x : α) : GoesOn (pure x) := by
  intro start s a hs ha
  refine ⟨ha, fun r hr => ?_⟩
  cases hr
  exact hs

theorem goesOn_fail : GoesOn (fail : Recognize α) :=
  fun _ _ _ _ ha => ⟨ha, nofun⟩

theorem goesOn_get : GoesOn get := by
  intro start s a hs ha
  refine ⟨ha, fun r hr => ?_⟩
  cases hr
  exact hs

theorem GoesOn.bind {f : α → Recognize β} (hp : GoesOn p) (hf : ∀ x, GoesOn (f x)) :
    GoesOn (p >>= f) := by
  intro start s a hs ha
  obtain ⟨ha', hs'⟩ := hp start s a hs ha
  rw [outcome_bind]
  split
  · rename_i x s' a' h
    rw [h] at ha' hs'
    exact hf x start s' a' (hs' _ rfl) ha'
  · rename_i a' h
    rw [h] at ha'
    exact ⟨ha', nofun⟩

theorem GoesOn.orElse (hp : GoesOn p) (hq : GoesOn q) : GoesOn (p <|> q) := by
  intro start s a hs ha
  obtain ⟨ha', hs'⟩ := hp start s a hs ha
  rw [outcome_orElse]
  split
  · rename_i r a' h
    rw [h] at ha' hs'
    exact ⟨ha', hs'⟩
  · rename_i a' h
    rw [h] at ha'
    exact hq start s a' hs ha'

theorem GoesOn.construct {c : Construct} (hp : GoesOn p) : GoesOn (construct c p) := by
  intro start s a hs ha
  obtain ⟨ha', hs'⟩ := hp start s a hs ha
  rw [outcome_construct]
  split
  · rename_i r a' h
    rw [h] at ha' hs'
    exact ⟨ha', hs'⟩
  · rename_i a' h
    rw [h] at ha'
    exact ⟨ha'.note hs, nofun⟩

theorem GoesOn.spanned (hp : GoesOn p) : GoesOn (spanned p) :=
  goesOn_get.bind fun _ => hp.bind fun _ => goesOn_get.bind fun _ => goesOn_pure _

theorem goesOn_first {ps : List (Recognize α)} (h : ∀ p ∈ ps, GoesOn p) : GoesOn (first ps) := by
  induction ps with
  | nil => exact goesOn_fail
  | cons p ps ih =>
      exact (h p (.head _)).orElse (ih fun q hq => h q (.tail _ hq))

theorem GoesOn.repeatUpTo (hp : GoesOn p) (times : Nat) : GoesOn (repeatUpTo p times) := by
  induction times with
  | zero => exact goesOn_pure _
  | succ times ih =>
      exact (hp.bind fun _ => ih.bind fun _ => goesOn_pure _).orElse (goesOn_pure _)

theorem GoesOn.many (hp : GoesOn p) : GoesOn (many p) :=
  goesOn_get.bind fun _ => hp.repeatUpTo _

/-- A step that notes nothing goes on if it does so when it succeeds. -/
theorem goesOn_of_yields (hnotes : ∀ s a, (outcome p s a).2 = a)
    (hyields : ∀ s x s', Yields p s x s' → s.Reaches s') : GoesOn p := by
  intro start s a hs ha
  refine ⟨by rwa [hnotes], fun r hr => ?_⟩
  exact hs.trans (hyields s r.1 r.2 ⟨a, hr⟩)

theorem goesOn_satisfy (test : Char → Bool) : GoesOn (satisfy test) := by
  refine goesOn_of_yields (fun s a => ?_) fun _ _ _ h => h.of_satisfy.2.reaches
  obtain ⟨rest, position⟩ := s
  rw [satisfy, outcome_bind_of_some outcome_get]
  cases rest with
  | nil => rfl
  | cons c cs =>
      dsimp only
      split <;> rfl

theorem goesOn_run (test : Char → Bool) : GoesOn (run test) :=
  goesOn_of_yields (fun _ _ => rfl) fun _ _ _ h => h.of_run.2.reaches

theorem goesOn_run1 (test : Char → Bool) : GoesOn (run1 test) := by
  refine (goesOn_run test).bind fun cs => ?_
  split
  · exact goesOn_fail
  · exact goesOn_pure _

theorem goesOn_char (c : Char) : GoesOn (char c) :=
  (goesOn_satisfy _).bind fun _ => goesOn_pure _

theorem goesOn_text (cs : List Char) : GoesOn (text cs) := by
  induction cs with
  | nil => exact goesOn_pure _
  | cons c cs ih => exact (goesOn_char c).bind fun _ => ih

theorem goesOn_isNotNext (c : Char) : GoesOn (isNotNext c) := by
  refine goesOn_get.bind fun s => ?_
  split
  · split
    · exact goesOn_fail
    · exact goesOn_pure _
  · exact goesOn_pure _

theorem goesOn_blanks : GoesOn blanks := (goesOn_run _).bind fun _ => goesOn_pure _

end Steps

/-! ### The grammar -/

theorem goesOn_name : GoesOn name :=
  ((goesOn_satisfy _).bind fun _ => (goesOn_run _).bind fun _ => goesOn_pure _).construct

theorem goesOn_exponent : GoesOn exponent :=
  (goesOn_satisfy _).bind fun _ =>
    (((goesOn_satisfy _).bind fun _ => goesOn_pure _).orElse (goesOn_pure _)).bind fun _ =>
      (goesOn_run1 _).bind fun _ => goesOn_pure _

theorem goesOn_float : GoesOn float := by
  refine (goesOn_first ?_).construct
  simp only [List.forall_mem_cons, List.not_mem_nil, false_implies, implies_true, and_true]
  refine ⟨?point, ?leadingPoint, ?exponent⟩
  case point =>
    exact (goesOn_run1 _).bind fun _ => (goesOn_char _).bind fun _ => (goesOn_run _).bind fun _ =>
      (goesOn_exponent.orElse (goesOn_pure _)).bind fun _ => goesOn_pure _
  case leadingPoint =>
    exact (goesOn_char _).bind fun _ => (goesOn_run1 _).bind fun _ =>
      (goesOn_exponent.orElse (goesOn_pure _)).bind fun _ => goesOn_pure _
  case exponent =>
    exact (goesOn_run1 _).bind fun _ => goesOn_exponent.bind fun _ => goesOn_pure _

theorem goesOn_integer : GoesOn integer := (goesOn_run1 _).construct

theorem goesOn_escapeOf (allowed : Char → Bool) : GoesOn (escapeOf allowed) :=
  (goesOn_char _).bind fun _ => (goesOn_satisfy _).bind fun _ => goesOn_pure _

theorem goesOn_plainBefore (delimiter : Char) : GoesOn (plainBefore delimiter) :=
  (goesOn_satisfy _).bind fun _ => goesOn_pure _

theorem goesOn_unicodeEscape : GoesOn unicodeEscape :=
  (goesOn_text _).bind fun _ => (goesOn_satisfy _).bind fun _ => (goesOn_satisfy _).bind fun _ =>
    (goesOn_satisfy _).bind fun _ => (goesOn_satisfy _).bind fun _ => goesOn_pure _

theorem goesOn_bracketed : GoesOn bracketed := by
  have hpart : ∀ p ∈ [escapeOf fun c => c == '[' || c == ']' || c == '\\', plainBefore ']'],
      GoesOn p :=
    List.forall_mem_cons.2
      ⟨goesOn_escapeOf _, List.forall_mem_singleton.2 (goesOn_plainBefore _)⟩
  refine GoesOn.construct ((goesOn_char _).bind fun _ => GoesOn.bind (GoesOn.construct ?_)
    fun _ => (goesOn_char _).bind fun _ => goesOn_pure _)
  refine (goesOn_first hpart).many.bind fun parts => ?_
  split
  · exact goesOn_fail
  · exact goesOn_pure _

theorem goesOn_macroReference : GoesOn macroReference :=
  ((goesOn_text _).bind fun _ => (goesOn_run1 _).construct.bind fun _ =>
    (goesOn_char _).bind fun _ => goesOn_pure _).construct

theorem goesOn_quotedText : GoesOn quotedText := by
  have hpart : ∀ p ∈ [escapeOf fun c => c == '"' || c == '\\' || c == 'n' || c == 'r' || c == 't',
      unicodeEscape, plainBefore '"'], GoesOn p :=
    List.forall_mem_cons.2 ⟨goesOn_escapeOf _, List.forall_mem_cons.2
      ⟨goesOn_unicodeEscape, List.forall_mem_singleton.2 (goesOn_plainBefore _)⟩⟩
  exact ((goesOn_char _).bind fun _ => (goesOn_first hpart).many.construct.bind fun _ =>
    (goesOn_char _).bind fun _ => goesOn_pure _).construct

/-- An operator that must not be followed by some character. -/
theorem goesOn_guarded {cs : List Char} {guarded : Prop} [Decidable guarded] {next : Char} :
    GoesOn (do
      text cs
      if guarded then
        blanks
        isNotNext next) := by
  refine (goesOn_text cs).bind fun _ => ?_
  split
  · exact goesOn_blanks.bind fun _ => goesOn_isNotNext next
  · exact goesOn_pure _

theorem goesOn_sign : GoesOn sign := by
  refine goesOn_first fun p hp => ?_
  obtain ⟨op, -, rfl⟩ := List.mem_map.1 hp
  exact goesOn_guarded.construct.spanned.bind fun _ => goesOn_pure _

theorem goesOn_infixOperator : GoesOn infixOperator := by
  refine goesOn_first fun p hp => ?_
  obtain ⟨op, -, rfl⟩ := List.mem_map.1 hp
  exact goesOn_guarded.construct.spanned.bind fun _ => goesOn_pure _

theorem goesOn_signs : GoesOn signs := by
  have hmore : GoesOn (do blanks; sign) := goesOn_blanks.bind fun _ => goesOn_sign
  exact ((goesOn_sign.bind fun _ => hmore.many.bind fun _ => goesOn_pure _).orElse
    (goesOn_pure _)).bind fun _ => goesOn_blanks.bind fun _ => goesOn_pure _

theorem goesOn_leaf {make : List Char → Leaf} {p : Recognize (List Char)} (hp : GoesOn p) :
    GoesOn (leaf make p) :=
  hp.spanned.bind fun _ => goesOn_pure _

section Parts

variable {inner : Recognize Chain} {p : Recognize Primary}

theorem GoesOn.operand (hp : GoesOn p) : GoesOn (operand p) :=
  goesOn_signs.bind fun _ => hp.bind fun _ => goesOn_pure _

theorem GoesOn.link (hp : GoesOn p) : GoesOn (link p) :=
  goesOn_blanks.bind fun _ => goesOn_infixOperator.bind fun _ => goesOn_blanks.bind fun _ =>
    hp.operand.bind fun _ => goesOn_pure _

theorem GoesOn.chain (hp : GoesOn p) : GoesOn (chain p) :=
  hp.operand.bind fun _ => hp.link.many.bind fun _ => goesOn_pure _

theorem GoesOn.group (h : GoesOn inner) : GoesOn (group inner) :=
  GoesOn.bind (GoesOn.spanned (GoesOn.construct ((goesOn_char _).bind fun _ =>
    goesOn_blanks.bind fun _ => h.bind fun _ => goesOn_blanks.bind fun _ =>
      (goesOn_char _).bind fun _ => goesOn_pure _))) fun _ => goesOn_pure _

theorem GoesOn.arguments (h : GoesOn inner) : GoesOn (arguments inner) := by
  have hmore : GoesOn (do blanks; char ','; blanks; inner) :=
    goesOn_blanks.bind fun _ => (goesOn_char _).bind fun _ => goesOn_blanks.bind fun _ => h
  exact h.bind fun _ => hmore.many.bind fun _ => goesOn_pure _

theorem GoesOn.call (h : GoesOn inner) : GoesOn (call inner) := by
  refine GoesOn.bind (GoesOn.spanned (GoesOn.construct ?_)) fun _ => goesOn_pure _
  exact goesOn_name.bind fun _ => goesOn_blanks.bind fun _ => (goesOn_char _).bind fun _ =>
    goesOn_blanks.bind fun _ => (h.arguments.orElse (goesOn_pure _)).bind fun _ =>
      goesOn_blanks.bind fun _ => (goesOn_char _).bind fun _ => goesOn_pure _

theorem GoesOn.primary (h : GoesOn inner) : GoesOn (primary inner) := by
  refine goesOn_first ?_
  simp only [List.forall_mem_cons, List.not_mem_nil, false_implies, implies_true, and_true]
  exact ⟨h.group, h.call, goesOn_leaf goesOn_bracketed, goesOn_leaf goesOn_macroReference,
    goesOn_leaf goesOn_float, goesOn_leaf goesOn_integer, goesOn_leaf goesOn_quotedText,
    goesOn_leaf goesOn_name⟩

end Parts

theorem goesOn_expression (levels : Nat) : GoesOn (expression levels) := by
  induction levels with
  | zero => exact goesOn_fail
  | succ levels ih => exact ih.primary.chain.construct

theorem goesOn_endOfInput : GoesOn endOfInput := by
  refine GoesOn.construct (goesOn_get.bind fun s => ?_)
  split
  · exact goesOn_pure _
  · exact goesOn_fail

theorem goesOn_wholeText : GoesOn wholeText :=
  goesOn_get.bind fun _ => GoesOn.construct (goesOn_blanks.bind fun _ =>
    (goesOn_expression _).bind fun _ => goesOn_blanks.bind fun _ =>
      goesOn_endOfInput.bind fun _ => goesOn_pure _)

/-- The attempts of a text that is not recognised are noted for a place in it. -/
theorem standBehind_of_recognize {source : List Char} {a : Attempts}
    (h : recognize source = .error a) : a.StandBehind ⟨source, 0⟩ := by
  rw [recognize_eq] at h
  split at h
  · cases h
  · rename_i a' houtcome
    cases h
    have hstart : Attempts.StandBehind {} ⟨source, 0⟩ := ⟨⟨source, 0⟩, .refl _, rfl⟩
    have hnoted := (goesOn_wholeText ⟨source, 0⟩ ⟨source, 0⟩ {} (.refl _) hstart).1
    rwa [houtcome] at hnoted

end Recognize

end Grammar

/-- The error at the place of the attempts is about the character there, or about the end of
the text. -/
theorem SyntaxError.fits_ofAttempts {source : String} {a : Grammar.Attempts}
    (h : a.StandBehind ⟨source.toList, 0⟩) : (ofAttempts source a).span.Fits source := by
  obtain ⟨s, hs, hposition⟩ := h
  have hrest : Span.dropBytes? a.position source.toList = some s.rest := by
    obtain ⟨front, hfront, hs⟩ := hs
    rw [hposition, hs, Nat.zero_add, show source.toList = front ++ s.rest from hfront]
    exact Span.dropBytes?_bytesOf front s.rest
  unfold ofAttempts
  rw [hrest, hposition, Option.getD_some]
  obtain ⟨rest, position⟩ := s
  cases rest with
  | nil => exact hs.fits (.refl _)
  | cons c cs =>
      have hnext : Grammar.Cursor.Passes ⟨c :: cs, position⟩ [c] ⟨cs, position + c.utf8Size⟩ :=
        ⟨rfl, rfl⟩
      exact hs.fits hnext.reaches

end RowFormula
