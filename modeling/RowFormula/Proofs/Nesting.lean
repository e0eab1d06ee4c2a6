/-
# The nesting of parentheses

Before a text is read, a scan over its characters refuses it if parentheses nest too deeply.
The scan skips texts in quotes and names in brackets, but it knows nothing of macro
references.  For a formula of the grammar it therefore counts what it should count if the
names of its macros are inert, that is, if scanning them leaves no trace.  No weaker condition
on the names would do: a macro name that is not inert spoils one of two simple formulas.
-/

import Mathlib.Tactic.SplitIfs
import RowFormula.Proofs.Acceptance
import RowFormula.Proofs.Evaluation
import RowFormula.Tree.Parse

namespace RowFormula

open Grammar
open Grammar.Cursor (Passes)

namespace Grammar

mutual

/-- How many parentheses of groups and calls are open at the deepest place. -/
def Chain.nesting : Chain → Nat
  | .single x => x.nesting
  | .link x _ _ rest => max x.nesting rest.nesting

def Operand.nesting : Operand → Nat
  | .mk _ p => p.nesting

def Primary.nesting : Primary → Nat
  | .group inner _ => inner.nesting + 1
  | .call _ args _ => nestingOfAll args + 1
  | .leaf _ _ => 0

def nestingOfAll : List Chain → Nat
  | [] => 0
  | c :: cs => max c.nesting (nestingOfAll cs)

end

/-- The name of a macro reference. -/
def Leaf.macroNames : Leaf → List (List Char)
  | .macroRef name => [name]
  | _ => []

mutual

/-- The names of all macro references. -/
def Chain.macroNames : Chain → List (List Char)
  | .single x => x.macroNames
  | .link x _ _ rest => x.macroNames ++ rest.macroNames

def Operand.macroNames : Operand → List (List Char)
  | .mk _ p => p.macroNames

def Primary.macroNames : Primary → List (List Char)
  | .group inner _ => inner.macroNames
  | .call _ args _ => macroNamesOfAll args
  | .leaf leaf _ => leaf.macroNames

def macroNamesOfAll : List Chain → List (List Char)
  | [] => []
  | c :: cs => c.macroNames ++ macroNamesOfAll cs

end

end Grammar

namespace Tree

namespace ScanState

/-- Takes characters into account. -/
def scan (s : ScanState) (cs : List Char) : ScanState := cs.foldl step s

/-- The greatest depth of a scan. -/
def peak : ScanState → List Char → Nat
  | s, [] => s.depth
  | s, c :: cs => max s.depth (peak (s.step c) cs)

/-- Outside of texts and brackets. -/
def outside (depth : Nat) : ScanState := { depth := depth }

/-- Inside of a text. -/
def insideText (depth : Nat) : ScanState := { depth := depth, inText := true }

/-- Inside of brackets. -/
def insideBrackets (depth : Nat) : ScanState := { depth := depth, inBrackets := true }

theorem scan_nil (s : ScanState) : s.scan [] = s := rfl

theorem scan_cons (s : ScanState) (c : Char) (cs : List Char) :
    s.scan (c :: cs) = (s.step c).scan cs := rfl

theorem scan_append (s : ScanState) (cs ds : List Char) :
    s.scan (cs ++ ds) = (s.scan cs).scan ds :=
  List.foldl_append

theorem depth_le_peak (s : ScanState) (cs : List Char) : s.depth ≤ s.peak cs := by
  cases cs with
  | nil => exact Nat.le_refl _
  | cons c cs => exact Nat.le_max_left _ _

/-- A scan goes deeper by at most one parenthesis for each character. -/
theorem peak_le_length (s : ScanState) (cs : List Char) : s.peak cs ≤ s.depth + cs.length := by
  induction cs generalizing s with
  | nil => exact Nat.le_refl _
  | cons c cs ih =>
      have hstep : (s.step c).depth ≤ s.depth + 1 := by
        rw [step]
        grind
      have := ih (s.step c)
      rw [peak, List.length_cons]
      omega

theorem peak_append (s : ScanState) (cs ds : List Char) :
    s.peak (cs ++ ds) = max (s.peak cs) ((s.scan cs).peak ds) := by
  induction cs generalizing s with
  | nil => exact (Nat.max_eq_right (depth_le_peak s ds)).symm
  | cons c cs ih => rw [List.cons_append, peak, ih, peak, scan_cons, Nat.max_assoc]

end ScanState

open ScanState

/-- The scan refuses nothing if its depth stays within the limit. -/
theorem deepParenthesis?_eq_none_iff {maxDepth position : Nat} {s : ScanState} {cs : List Char}
    (h : s.depth ≤ maxDepth) :
    deepParenthesis? maxDepth s position cs = none ↔ s.peak cs ≤ maxDepth := by
  induction cs generalizing s position with
  | nil => exact ⟨fun _ => h, fun _ => rfl⟩
  | cons c cs ih =>
      rw [deepParenthesis?, peak]
      have hpeak := depth_le_peak (s.step c) cs
      by_cases hstep : maxDepth < (s.step c).depth
      · simp only [if_pos hstep, reduceCtorEq, false_iff]
        omega
      · simp only [if_neg hstep, ih (Nat.not_lt.1 hstep)]
        omega

theorem isSome_deepParenthesis?_iff {maxDepth position : Nat} {s : ScanState} {cs : List Char}
    (h : s.depth ≤ maxDepth) :
    (deepParenthesis? maxDepth s position cs).isSome ↔ maxDepth < s.peak cs := by
  rw [Option.isSome_iff_ne_none, Ne, deepParenthesis?_eq_none_iff h, Nat.not_le]

/-! ### Texts that leave no trace -/

/-- Scanning the text leads back to the same state, and not deeper on the way. -/
def ScanState.Keeps (s : ScanState) (cs : List Char) : Prop :=
  s.scan cs = s ∧ s.peak cs = s.depth

/-- The text is scanned outside of texts and brackets and goes some number of parentheses
deeper, but not below the depth where it starts. -/
def Raises (cs : List Char) (levels : Nat) : Prop :=
  ∀ depth, (outside depth).scan cs = outside depth ∧
    (outside depth).peak cs = depth + levels

/-- Scanning the name of a macro like a part of the formula leaves no trace. -/
def Inert (name : List Char) : Prop := Raises name 0

section Traces

variable {s : ScanState} {cs ds : List Char} {k l : Nat}

theorem ScanState.Keeps.nil (s : ScanState) : s.Keeps [] := ⟨rfl, rfl⟩

theorem ScanState.Keeps.append (h : s.Keeps cs) (h' : s.Keeps ds) : s.Keeps (cs ++ ds) := by
  refine ⟨?_, ?_⟩
  · rw [scan_append, h.1, h'.1]
  · rw [peak_append, h.1, h.2, h'.2, Nat.max_self]

theorem ScanState.Keeps.of_step {c : Char} (h : s.step c = s) : s.Keeps [c] := by
  refine ⟨h, ?_⟩
  rw [peak, peak, h, Nat.max_self]

theorem ScanState.Keeps.flatten {parts : List (List Char)} (h : ∀ part ∈ parts, s.Keeps part) :
    s.Keeps parts.flatten := by
  induction parts with
  | nil => exact Keeps.nil s
  | cons part parts ih =>
      exact (h part List.mem_cons_self).append
        (ih fun part hpart => h part (List.mem_cons_of_mem _ hpart))

theorem Raises.nil : Raises [] 0 := fun _ => ⟨rfl, rfl⟩

theorem Raises.append (h : Raises cs k) (h' : Raises ds l) : Raises (cs ++ ds) (max k l) := by
  intro depth
  obtain ⟨hscan, hpeak⟩ := h depth
  obtain ⟨hscan', hpeak'⟩ := h' depth
  refine ⟨?_, ?_⟩
  · rw [scan_append, hscan, hscan']
  · rw [peak_append, hscan, hpeak, hpeak', Nat.add_max_add_left]

/-- A text that keeps the state between delimiters that only open and close it. -/
theorem raises_of_keeps {inside : Nat → ScanState} {opening closing : Char}
    (hdepth : ∀ depth, (inside depth).depth = depth)
    (hopen : ∀ depth, (outside depth).step opening = inside depth)
    (hclose : ∀ depth, (inside depth).step closing = outside depth)
    (h : ∀ depth, (inside depth).Keeps cs) : Raises (opening :: cs ++ [closing]) 0 := by
  intro depth
  obtain ⟨hscan, hpeak⟩ := h depth
  refine ⟨?_, ?_⟩
  · rw [List.cons_append, scan_cons, hopen, scan_append, hscan, scan_cons, hclose, scan_nil]
  · rw [List.cons_append, peak, hopen, peak_append, hpeak, hscan, peak, hclose, peak, hdepth]
    simp [outside]

theorem Raises.parenthesized (h : Raises cs k) : Raises (['('] ++ cs ++ [')']) (k + 1) := by
  intro depth
  obtain ⟨hscan, hpeak⟩ := h (depth + 1)
  have hopen : (outside depth).step '(' = outside (depth + 1) := rfl
  have hclose : (outside (depth + 1)).step ')' = outside depth := rfl
  refine ⟨?_, ?_⟩
  · rw [List.append_assoc, List.singleton_append, scan_cons, hopen, scan_append, hscan,
      scan_cons, hclose, scan_nil]
  · rw [List.append_assoc, List.singleton_append, peak, hopen, peak_append, hpeak, hscan, peak,
      hclose, peak]
    simp only [outside]
    omega

end Traces

/-! ### Parts of formulas -/

section Parts

/-- The characters that the scan passes over outside of texts and brackets. -/
def IsPlain (c : Char) : Prop := c ≠ '"' ∧ c ≠ '[' ∧ c ≠ '(' ∧ c ≠ ')'

instance : DecidablePred IsPlain := fun c =>
  inferInstanceAs (Decidable (c ≠ '"' ∧ c ≠ '[' ∧ c ≠ '(' ∧ c ≠ ')'))

variable {c : Char} {cs : List Char}

theorem step_outside_of_isPlain (h : IsPlain c) (depth : Nat) :
    (outside depth).step c = outside depth := by
  obtain ⟨hquote, hbracket, hopen, hclose⟩ := h
  simp [step, outside, hquote, hbracket, hopen, hclose]

theorem raises_of_isPlain (h : ∀ c ∈ cs, IsPlain c) : Raises cs 0 := by
  induction cs with
  | nil => exact Raises.nil
  | cons c cs ih =>
      have hc : Raises [c] 0 := fun depth =>
        Keeps.of_step (step_outside_of_isPlain (h c List.mem_cons_self) depth)
      exact hc.append (ih fun d hd => h d (List.mem_cons_of_mem _ hd))

theorem isPlain_of_all (h : cs.all (fun c => IsPlain c) = true) : ∀ c ∈ cs, IsPlain c :=
  fun c hc => of_decide_eq_true (List.all_eq_true.1 h c hc)

/-- A class of characters without quotes, brackets and parentheses. -/
theorem isPlain_of_test {test : Char → Bool}
    (h : test '"' = false ∧ test '[' = false ∧ test '(' = false ∧ test ')' = false)
    (hc : test c = true) : IsPlain c := by
  obtain ⟨hquote, hbracket, hopen, hclose⟩ := h
  refine ⟨?_, ?_, ?_, ?_⟩ <;>
    · rintro rfl
      simp_all

theorem isPlain_of_isDigit (h : c.isDigit = true) : IsPlain c :=
  isPlain_of_test (by decide) h

theorem isPlain_of_startsName (h : startsName c = true) : IsPlain c :=
  isPlain_of_test (by decide) h

theorem isPlain_of_continuesName (h : continuesName c = true) : IsPlain c :=
  isPlain_of_test (by decide) h

theorem isPlain_of_isBlank (h : Recognize.isBlank c = true) : IsPlain c :=
  isPlain_of_test (by decide) h

theorem isPlain_of_isDigits (h : IsDigits cs) : ∀ c ∈ cs, IsPlain c :=
  fun c hc => isPlain_of_isDigit (h.2 c hc)

theorem isPlain_of_isExponent (h : IsExponent cs) : ∀ c ∈ cs, IsPlain c := by
  have hletter : ∀ e : Char, (e == 'e' || e == 'E') = true → IsPlain e := fun e =>
    @isPlain_of_test e (fun c => c == 'e' || c == 'E') (by decide)
  have hsign : ∀ c : Char, (c == '+' || c == '-') = true → IsPlain c := fun c =>
    @isPlain_of_test c (fun c => c == '+' || c == '-') (by decide)
  cases h with
  | unsigned he hdigits =>
      exact List.forall_mem_cons.2 ⟨hletter _ he, isPlain_of_isDigits hdigits⟩
  | signed he hs hdigits =>
      exact List.forall_mem_cons.2 ⟨hletter _ he,
        List.forall_mem_cons.2 ⟨hsign _ hs, isPlain_of_isDigits hdigits⟩⟩

theorem isPlain_of_isFloat (h : IsFloat cs) : ∀ c ∈ cs, IsPlain c := by
  have hpoint : IsPlain '.' := by decide
  have hexponent : ∀ {e}, e = [] ∨ IsExponent e → ∀ c ∈ e, IsPlain c := by
    rintro e (rfl | he)
    · exact List.forall_mem_nil _
    · exact isPlain_of_isExponent he
  cases h with
  | point hwhole hfraction he =>
      refine List.forall_mem_append.2 ⟨List.forall_mem_append.2 ⟨isPlain_of_isDigits hwhole,
        List.forall_mem_cons.2 ⟨hpoint, ?_⟩⟩, hexponent he⟩
      exact fun c hc => isPlain_of_isDigit (hfraction c hc)
  | leadingPoint hfraction he =>
      exact List.forall_mem_append.2 ⟨List.forall_mem_cons.2
        ⟨hpoint, isPlain_of_isDigits hfraction⟩, hexponent he⟩
  | exponent hwhole he =>
      exact List.forall_mem_append.2 ⟨isPlain_of_isDigits hwhole, isPlain_of_isExponent he⟩

theorem isPlain_of_isName (h : IsName cs) : ∀ c ∈ cs, IsPlain c := by
  cases h with
  | cons hstart hcontinue =>
      exact List.forall_mem_cons.2 ⟨isPlain_of_startsName hstart,
        fun c hc => isPlain_of_continuesName (hcontinue c hc)⟩

/-- Inside of texts and brackets, a backslash hides the next character from the scan. -/
theorem keeps_escape {s : ScanState} (hinside : (s.inText || s.inBrackets) = true)
    (hescaped : s.escaped = false) : s.Keeps ['\\', c] := by
  obtain ⟨depth, inText, inBrackets, escaped⟩ := s
  obtain rfl : escaped = false := hescaped
  have hfirst : (ScanState.mk depth inText inBrackets false).step '\\' =
      ⟨depth, inText, inBrackets, true⟩ := by
    simp only [step]
    simp_all
  refine ⟨?_, ?_⟩
  · rw [scan_cons, hfirst]
    rfl
  · rw [peak, hfirst]
    simp [peak, step]

theorem keeps_insideText (hquote : c ≠ '"') (hescape : c ≠ '\\') (depth : Nat) :
    (insideText depth).Keeps [c] := by
  refine Keeps.of_step ?_
  simp [step, insideText, hquote, hescape]

theorem keeps_insideBrackets (hclose : c ≠ ']') (hescape : c ≠ '\\') (depth : Nat) :
    (insideBrackets depth).Keeps [c] := by
  refine Keeps.of_step ?_
  simp [step, insideBrackets, hclose, hescape]

theorem keeps_of_textPart {part : List Char} (h : TextPart part) (depth : Nat) :
    (insideText depth).Keeps part := by
  have hhex : ∀ {c}, isHexDigit c = true → (insideText depth).Keeps [c] := by
    intro c hc
    refine keeps_insideText ?_ ?_ depth <;>
      · rintro rfl
        exact absurd hc (by decide)
  cases h with
  | plain hquote hescape => exact keeps_insideText hquote hescape depth
  | escape => exact keeps_escape rfl rfl
  | unicode ha hb hc hd =>
      exact (keeps_escape rfl rfl).append ((hhex ha).append ((hhex hb).append
        ((hhex hc).append (hhex hd))))

theorem keeps_of_attributePart {part : List Char} (h : AttributePart part) (depth : Nat) :
    (insideBrackets depth).Keeps part := by
  cases h with
  | plain hclose hescape => exact keeps_insideBrackets hclose hescape depth
  | escape => exact keeps_escape rfl rfl

theorem raises_of_spellsLeaf {leaf : Leaf} (h : SpellsLeaf cs leaf)
    (hinert : ∀ name ∈ leaf.macroNames, IsMacroName name → Inert name) : Raises cs 0 := by
  cases h with
  | attributeRef _ hparts =>
      have hkeeps : ∀ depth, (insideBrackets depth).Keeps (List.flatten _) := fun depth =>
        Keeps.flatten fun part hpart => keeps_of_attributePart (hparts part hpart) depth
      exact raises_of_keeps (fun _ => rfl) (fun _ => rfl) (fun _ => rfl) hkeeps
  | macroRef hname =>
      have hopen : Raises ['%', '\x7b'] 0 := raises_of_isPlain (isPlain_of_all rfl)
      have hclose : Raises ['\x7d'] 0 := raises_of_isPlain (isPlain_of_all rfl)
      exact (hopen.append (hinert _ (List.mem_singleton.2 rfl) hname)).append hclose
  | float hfloat => exact raises_of_isPlain (isPlain_of_isFloat hfloat)
  | integer hdigits => exact raises_of_isPlain (isPlain_of_isDigits hdigits)
  | string hparts =>
      have hkeeps : ∀ depth, (insideText depth).Keeps (List.flatten _) := fun depth =>
        Keeps.flatten fun part hpart => keeps_of_textPart (hparts part hpart) depth
      exact raises_of_keeps (fun _ => rfl) (fun _ => rfl) (fun _ => rfl) hkeeps
  | ident hname => exact raises_of_isPlain (isPlain_of_isName hname)

end Parts

/-! ### Formulas -/

/-- The text between two cursors goes so many parentheses deeper. -/
def RaisesBetween (s : Cursor) (levels : Nat) (s' : Cursor) : Prop :=
  ∃ cs, s.Passes cs s' ∧ Raises cs levels

section Formulas

variable {s s₁ s' : Cursor} {k l : Nat}

theorem RaisesBetween.append (h : RaisesBetween s k s₁) (h' : RaisesBetween s₁ l s') :
    RaisesBetween s (max k l) s' := by
  obtain ⟨cs, hpasses, hraises⟩ := h
  obtain ⟨ds, hpasses', hraises'⟩ := h'
  exact ⟨cs ++ ds, hpasses.append hpasses', hraises.append hraises'⟩

theorem RaisesBetween.append_zero (h : RaisesBetween s k s₁) (h' : RaisesBetween s₁ 0 s') :
    RaisesBetween s k s' := by
  have happend := h.append h'
  rwa [Nat.max_eq_left (Nat.zero_le k)] at happend

theorem RaisesBetween.zero_append (h : RaisesBetween s 0 s₁) (h' : RaisesBetween s₁ k s') :
    RaisesBetween s k s' := by
  have happend := h.append h'
  rwa [Nat.max_eq_right (Nat.zero_le k)] at happend

theorem raisesBetween_of_blanks (h : PassesBlanks s s') : RaisesBetween s 0 s' := by
  obtain ⟨cs, hblank, hpasses⟩ := h
  exact ⟨cs, hpasses, raises_of_isPlain fun c hc => isPlain_of_isBlank (hblank c hc)⟩

theorem raisesBetween_of_operator {text : String} (htext : ∀ c ∈ text.toList, IsPlain c)
    (h : PassesOperator text s s') : RaisesBetween s 0 s' := by
  obtain ⟨s₁, hpasses, hblanks⟩ := h
  exact RaisesBetween.append ⟨_, hpasses, raises_of_isPlain htext⟩
    (raisesBetween_of_blanks hblanks)

theorem isPlain_of_unaryOp (op : UnaryOp) : ∀ c ∈ op.text.toList, IsPlain c := by
  apply isPlain_of_all
  cases op <;> rfl

theorem isPlain_of_infixOp (op : InfixOp) : ∀ c ∈ op.text.toList, IsPlain c := by
  apply isPlain_of_all
  rcases op with op | op | op <;> cases op <;> rfl

theorem raisesBetween_of_signs {signs : List Sign} (h : SpellsSigns s signs s') :
    RaisesBetween s 0 s' := by
  induction h with
  | nil hblanks => exact raisesBetween_of_blanks hblanks
  | cons hblanks hoperator _ ih =>
      exact (raisesBetween_of_blanks hblanks).append
        ((raisesBetween_of_operator (isPlain_of_unaryOp _) hoperator).append ih)

theorem RaisesBetween.parenthesized {s₂ : Cursor} (hopen : s.Passes ['('] s₁)
    (h : RaisesBetween s₁ k s₂) (hclose : s₂.Passes [')'] s') : RaisesBetween s (k + 1) s' := by
  obtain ⟨cs, hpasses, hraises⟩ := h
  exact ⟨_, (hopen.append hpasses).append hclose, hraises.parenthesized⟩

mutual

/-- The scan over the text of a chain goes as deep as the groups and calls of the chain.  The
induction is on the chain. -/
theorem raises_of_spellsChain : ∀ (c : Chain) {s s' : Cursor}, SpellsChain s c s' →
    (∀ name ∈ c.macroNames, IsMacroName name → Inert name) → RaisesBetween s c.nesting s'
  | .single x, s, s', h, hinert => by
      cases h with
      | single hx => exact raises_of_spellsOperand x hx hinert
  | .link x op span rest, s, s', h, hinert => by
      rw [Chain.macroNames, List.forall_mem_append] at hinert
      cases h with
      | link hx hblanks hoperator hblanks' hrest =>
          exact (raises_of_spellsOperand x hx hinert.1).append
            ((raisesBetween_of_blanks hblanks).zero_append
              ((raisesBetween_of_operator (isPlain_of_infixOp op) hoperator).zero_append
                ((raisesBetween_of_blanks hblanks').zero_append
                  (raises_of_spellsChain rest hrest hinert.2))))
  termination_by structural c => c

theorem raises_of_spellsOperand : ∀ (x : Operand) {s s' : Cursor}, SpellsOperand s x s' →
    (∀ name ∈ x.macroNames, IsMacroName name → Inert name) → RaisesBetween s x.nesting s'
  | .mk signs p, s, s', h, hinert => by
      cases h with
      | mk hsigns hp =>
          exact (raisesBetween_of_signs hsigns).zero_append (raises_of_spellsPrimary p hp hinert)
  termination_by structural x => x

theorem raises_of_spellsPrimary : ∀ (p : Primary) {s s' : Cursor}, SpellsPrimary s p s' →
    (∀ name ∈ p.macroNames, IsMacroName name → Inert name) → RaisesBetween s p.nesting s'
  | .group inner span, s, s', h, hinert => by
      cases h with
      | group hopen hblanks hinner hblanks' hclose =>
          exact RaisesBetween.parenthesized hopen
            (((raisesBetween_of_blanks hblanks).zero_append
              (raises_of_spellsChain inner hinner hinert)).append_zero
                (raisesBetween_of_blanks hblanks')) hclose
  | .call name args span, s, s', h, hinert => by
      cases h with
      | call hname hpasses hblanks hopen hblanks' hargs hblanks'' hclose =>
          have hcall := RaisesBetween.parenthesized hopen
            (((raisesBetween_of_blanks hblanks').zero_append
              (raises_of_spellsArguments args hargs hinert)).append_zero
                (raisesBetween_of_blanks hblanks'')) hclose
          exact RaisesBetween.zero_append ⟨_, hpasses, raises_of_isPlain (isPlain_of_isName hname)⟩
            ((raisesBetween_of_blanks hblanks).zero_append hcall)
  | .leaf leaf span, s, s', h, hinert => by
      cases h with
      | leaf hleaf hpasses => exact ⟨_, hpasses, raises_of_spellsLeaf hleaf hinert⟩
  termination_by structural p => p

theorem raises_of_spellsArguments : ∀ (cs : List Chain) {s s' : Cursor},
    SpellsArguments s cs s' → (∀ name ∈ macroNamesOfAll cs, IsMacroName name → Inert name) →
    RaisesBetween s (nestingOfAll cs) s'
  | [], s, s', h, _ => by
      cases h with
      | none => exact ⟨[], Passes.nil s, Raises.nil⟩
  | c :: cs, s, s', h, hinert => by
      rw [macroNamesOfAll, List.forall_mem_append] at hinert
      cases h with
      | some hc hcs =>
          exact (raises_of_spellsChain c hc hinert.1).append
            (raises_of_spellsMore cs hcs hinert.2)
  termination_by structural cs => cs

theorem raises_of_spellsMore : ∀ (cs : List Chain) {s s' : Cursor}, SpellsMore s cs s' →
    (∀ name ∈ macroNamesOfAll cs, IsMacroName name → Inert name) →
    RaisesBetween s (nestingOfAll cs) s'
  | [], s, s', h, _ => by
      cases h with
      | nil => exact ⟨[], Passes.nil s, Raises.nil⟩
  | c :: cs, s, s', h, hinert => by
      rw [macroNamesOfAll, List.forall_mem_append] at hinert
      cases h with
      | cons hblanks hcomma hblanks' hc hcs =>
          have hcomma : RaisesBetween _ 0 _ := ⟨_, hcomma, raises_of_isPlain (isPlain_of_all rfl)⟩
          exact (raisesBetween_of_blanks hblanks).zero_append (hcomma.zero_append
            ((raisesBetween_of_blanks hblanks').zero_append
              ((raises_of_spellsChain c hc hinert.1).append
                (raises_of_spellsMore cs hcs hinert.2))))
  termination_by structural cs => cs

end

theorem raises_of_spells {source : List Char} {c : Chain} (h : Spells source c)
    (hinert : ∀ name ∈ c.macroNames, IsMacroName name → Inert name) :
    Raises source c.nesting := by
  obtain ⟨s, s', t, hblanks, hc, hblanks', hend⟩ := h
  obtain ⟨cs, hpasses, hraises⟩ :=
    ((raisesBetween_of_blanks hblanks).zero_append
      (raises_of_spellsChain c hc hinert)).append_zero (raisesBetween_of_blanks hblanks')
  have hsource : source = cs := by
    have hrest := hpasses.1
    rwa [hend, List.append_nil] at hrest
  rwa [hsource]

/-- The scan counts the parentheses of groups and calls if all names of macros are inert. -/
theorem isSome_deepParenthesis?_iff_of_inert {source : List Char} {c : Chain}
    (h : recognize source = .ok c)
    (hinert : ∀ name ∈ c.macroNames, IsMacroName name → Inert name) (maxDepth : Nat) :
    (deepParenthesis? maxDepth {} 0 source).isSome ↔ maxDepth < c.nesting := by
  have hpeak := (raises_of_spells (spells_of_recognize h) hinert 0).2
  rw [Nat.zero_add] at hpeak
  rw [isSome_deepParenthesis?_iff (Nat.zero_le maxDepth), ← hpeak]
  rfl

/-- A formula that is read nests no deeper than the limit if the names of its macros are
inert. -/
theorem nesting_le_of_parse {maxDepth : Nat} {source : String} {t : Tree}
    (h : parse maxDepth source = .ok t) :
    ∃ c, recognize source.toList = .ok c ∧
      ((∀ name ∈ c.macroNames, IsMacroName name → Inert name) → c.nesting ≤ maxDepth) := by
  unfold parse at h
  split at h
  · cases h
  · rename_i hcheck
    split at h
    · cases h
    · rename_i c hc
      refine ⟨c, hc, fun hinert => ?_⟩
      have hiff := isSome_deepParenthesis?_iff_of_inert hc hinert maxDepth
      rw [hcheck] at hiff
      exact Nat.not_lt.1 fun hlt => absurd (hiff.2 hlt) (by decide)

end Formulas

/-! ### Names that are not inert -/

section Witnesses

open Recognize

/-- A macro reference alone. -/
def aloneText (name : List Char) : List Char := '%' :: '\x7b' :: (name ++ ['\x7d'])

/-- A macro reference in parentheses, and further parentheses behind it. -/
def nestedText (name : List Char) : List Char :=
  '(' :: '%' :: '\x7b' :: (name ++ ['\x7d', '|', '|', '(', '1', ')', ')'])

variable {name : List Char}

theorem recognize_aloneText (h : IsMacroName name) :
    ∃ c, recognize (aloneText name) = .ok c ∧ c.nesting = 0 ∧ c.macroNames = [name] := by
  obtain ⟨stop, hreference⟩ := @takes_macroRef (expression (aloneText name).length) name [] 0 h
  have hend : Takes blanks ⟨[], stop⟩ () ⟨[], stop⟩ := takes_blanks nofun
  have hchain := takes_expression (takes_chain_single (takes_operand rfl (by decide) hreference)
    hend (refuses_infixOperator nofun))
  exact ⟨_, recognize_of_takes (takes_no_blanks rfl) hchain hend, rfl, rfl⟩

theorem recognize_nestedText (h : IsMacroName name) :
    ∃ c, recognize (nestedText name) = .ok c ∧ c.nesting = 2 ∧ c.macroNames = [name] := by
  -- both groups take a level, and so do the two characters that open the reference
  obtain ⟨levels, hlevels⟩ : ∃ levels, (nestedText name).length + 1 = levels + 4 := ⟨_, rfl⟩
  obtain ⟨p₁, hreference⟩ := @takes_macroRef (expression (levels + 2)) name
    ['|', '|', '(', '1', ')', ')'] (0 + '('.utf8Size) h
  obtain ⟨span, p₂, hor⟩ := @takes_or ['(', '1', ')', ')'] p₁
  obtain ⟨p₃, hdigit⟩ := @takes_digit (expression (levels + 1)) [')'] (p₂ + '('.utf8Size)
  have hdigit := takes_expression (takes_chain_single (takes_operand rfl (by decide) hdigit)
    (takes_no_blanks rfl) refuses_infixOperator_close)
  have hgroup := takes_group (takes_no_blanks rfl) hdigit (takes_no_blanks rfl)
  have hinner := takes_expression (takes_chain_link (takes_operand rfl (by decide) hreference)
    (takes_no_blanks rfl) hor (takes_no_blanks rfl) (takes_operand rfl (by decide) hgroup)
    (takes_no_blanks rfl) refuses_infixOperator_close)
  have houter := takes_group (takes_no_blanks rfl) hinner (takes_no_blanks rfl)
  have hend : Takes blanks ⟨[], p₃ + ')'.utf8Size + ')'.utf8Size⟩ () _ := takes_blanks nofun
  have hchain := takes_expression (takes_chain_single (takes_operand rfl (by decide) houter)
    hend (refuses_infixOperator nofun))
  exact ⟨_, recognize_of_takes (takes_no_blanks rfl) (hlevels ▸ hchain) hend, rfl, rfl⟩

end Witnesses

/-- The same state at another depth. -/
def ScanState.at (s : ScanState) (depth : Nat) : ScanState := { s with depth := depth }

/-- A character acts on the depth in the same way at every depth: it keeps it, or it opens or
closes one parenthesis. -/
theorem step_at (s : ScanState) (c : Char) :
    (∀ depth, (s.at depth).step c = (s.step c).at depth) ∨
      (∀ depth, (s.at depth).step c = (s.step c).at (depth + 1)) ∨
      ∀ depth, (s.at depth).step c = (s.step c).at (depth - 1) := by
  obtain ⟨_, inText, inBrackets, escaped⟩ := s
  by_cases hopen : c = '('
  · subst hopen
    cases inText <;> cases inBrackets <;> cases escaped <;>
      first | exact .inl fun _ => rfl | exact .inr (.inl fun _ => rfl)
  · by_cases hclose : c = ')'
    · subst hclose
      cases inText <;> cases inBrackets <;> cases escaped <;>
        first | exact .inl fun _ => rfl | exact .inr (.inr fun _ => rfl)
    · refine .inl fun depth => ?_
      have hopen : (c == '(') = false := beq_false_of_ne hopen
      have hclose : (c == ')') = false := beq_false_of_ne hclose
      simp only [step, ScanState.at, hopen, hclose, Bool.false_and, Bool.false_eq_true, if_false]
      split_ifs <;> rfl

/-- A text that opens no parenthesis at the outermost level opens none at all. -/
theorem exists_scan_at {s : ScanState} {cs : List Char} (hpeak : (s.at 0).peak cs = 0) :
    ∃ closings, ∀ depth, (s.at depth).scan cs = (s.scan cs).at (depth - closings) ∧
      (s.at depth).peak cs = depth := by
  induction cs generalizing s with
  | nil => exact ⟨0, fun _ => ⟨rfl, rfl⟩⟩
  | cons c cs ih =>
      rw [peak] at hpeak
      have hrest : ((s.at 0).step c).peak cs = 0 := by omega
      obtain ⟨here, hhere⟩ :
          ∃ here, ∀ depth, (s.at depth).step c = (s.step c).at (depth - here) := by
        obtain hkeep | hopen | hclose := step_at s c
        · exact ⟨0, hkeep⟩
        · rw [hopen] at hrest
          have := depth_le_peak ((s.step c).at (0 + 1)) cs
          rw [hrest] at this
          exact absurd this (by simp [ScanState.at])
        · exact ⟨1, hclose⟩
      rw [hhere, Nat.zero_sub] at hrest
      obtain ⟨later, hlater⟩ := ih hrest
      refine ⟨here + later, fun depth => ?_⟩
      obtain ⟨hscan, hpeak'⟩ := hlater (depth - here)
      rw [scan_cons, scan_cons, hhere, hscan, Nat.sub_sub, peak, hhere, hpeak']
      exact ⟨rfl, Nat.max_eq_left (Nat.sub_le depth here)⟩

/-- A backslash counts only inside of texts and brackets. -/
theorem inside_of_escaped {s : ScanState} {cs : List Char}
    (hs : s.escaped = true → (s.inText || s.inBrackets) = true)
    (h : (s.scan cs).escaped = true) : ((s.scan cs).inText || (s.scan cs).inBrackets) = true := by
  induction cs generalizing s with
  | nil => exact hs h
  | cons c cs ih =>
      refine ih (fun hescaped => ?_) h
      unfold step at hescaped ⊢
      split_ifs at hescaped ⊢ <;> simp_all

/-- If the parenthesis behind a macro reference is counted as the second, then the reference
was left outside of texts and brackets. -/
theorem eq_outside_of_peak {s : ScanState}
    (hinside : s.escaped = true → (s.inText || s.inBrackets) = true) (hdepth : s.depth ≤ 1)
    (hpeak : s.peak ['\x7d', '|', '|', '(', '1', ')', ')'] = 2) : s = outside 1 := by
  obtain ⟨depth, inText, inBrackets, escaped⟩ := s
  obtain rfl | rfl : depth = 0 ∨ depth = 1 := Nat.le_one_iff_eq_zero_or_eq_one.1 hdepth
  · cases inText <;> cases inBrackets <;> cases escaped <;> exact absurd hpeak (by decide)
  · cases inText <;> cases inBrackets <;> cases escaped <;>
      first | rfl | exact absurd hpeak (by decide) | exact absurd (hinside rfl) (by decide)

/-- A name is inert if it opens no parenthesis at the outermost level, closes none below it and
leaves texts and brackets closed. -/
theorem inert_iff {name : List Char} :
    Inert name ↔ (outside 0).peak name = 0 ∧ (outside 1).scan name = outside 1 := by
  constructor
  · intro h
    exact ⟨(h 0).2, (h 1).1⟩
  · rintro ⟨hpeak, hclosed⟩
    obtain ⟨closings, hscan⟩ := @exists_scan_at (outside 0) name hpeak
    have hend : ((outside 0).scan name).at (1 - closings) = outside 1 :=
      (hscan 1).1.symm.trans hclosed
    have hnone : 1 - closings = 1 := congrArg ScanState.depth hend
    intro depth
    obtain ⟨hscan, hpeak⟩ := hscan depth
    have hdepth : depth - closings = depth := by omega
    rw [hdepth] at hscan
    exact ⟨hscan.trans (congrArg (ScanState.at · depth) hend), hpeak⟩

instance : DecidablePred Inert := fun _ => decidable_of_iff' _ inert_iff

/-- Parentheses in quotes do no harm. -/
example : Inert ['"', '(', '"'] := by decide

/-- If the scan counts both texts rightly, the name is inert: the first shows that the name
opens no parenthesis, the second that it closes none and leaves texts and brackets closed. -/
theorem inert_of_peaks {name : List Char} (halone : (outside 0).peak (aloneText name) = 0)
    (hnested : (outside 0).peak (nestedText name) = 2) : Inert name := by
  have hname : (outside 0).peak name = 0 := by
    have halone : (outside 0).peak (['%', '\x7b'] ++ (name ++ ['\x7d'])) = 0 := halone
    have hopen : (outside 0).scan ['%', '\x7b'] = outside 0 := rfl
    rw [peak_append, hopen, peak_append] at halone
    omega
  obtain ⟨closings, hscan⟩ := @exists_scan_at (outside 0) name hname
  have hscan₁ : (outside 1).scan name = ((outside 0).scan name).at (1 - closings) := (hscan 1).1
  have hpeak₁ : (outside 1).peak name = 1 := (hscan 1).2
  have hclosed : (outside 1).scan name = outside 1 := by
    have hnested : (outside 0).peak (['(', '%', '\x7b'] ++ (name ++
        ['\x7d', '|', '|', '(', '1', ')', ')'])) = 2 := hnested
    have hopen : (outside 0).scan ['(', '%', '\x7b'] = outside 1 := rfl
    have hopen' : (outside 0).peak ['(', '%', '\x7b'] = 1 := rfl
    rw [peak_append, hopen, hopen', peak_append, hpeak₁] at hnested
    refine eq_outside_of_peak (inside_of_escaped nofun) ?_ (by omega)
    rw [hscan₁]
    exact Nat.sub_le 1 closings
  exact inert_iff.2 ⟨hname, hclosed⟩

/-! ### The check on all formulas -/

/-- The check for nesting is right on all formulas whose macros have names of some sort
exactly if the names of that sort are inert. -/
theorem nesting_check_exact_iff (Allowed : List Char → Prop) :
    (∀ (source : List Char) (c : Chain) (maxDepth : Nat), recognize source = .ok c →
      (∀ name ∈ c.macroNames, Allowed name) →
      ((deepParenthesis? maxDepth {} 0 source).isSome ↔ maxDepth < c.nesting)) ↔
    ∀ name, IsMacroName name → Allowed name → Inert name := by
  constructor
  · intro hcheck name hname hallowed
    have hpeak : ∀ {source : List Char} {c : Chain}, recognize source = .ok c →
        c.macroNames = [name] → (outside 0).peak source = c.nesting := by
      intro source c hsource hnames
      have hiff : ∀ maxDepth, maxDepth < (outside 0).peak source ↔ maxDepth < c.nesting := by
        intro maxDepth
        rw [← hcheck source c maxDepth hsource (by simpa [hnames] using hallowed)]
        exact (isSome_deepParenthesis?_iff (Nat.zero_le maxDepth)).symm
      have hle := hiff ((outside 0).peak source)
      have hge := hiff c.nesting
      omega
    obtain ⟨c, halone, hnesting, hnames⟩ := recognize_aloneText hname
    obtain ⟨d, hnested, hnesting', hnames'⟩ := recognize_nestedText hname
    exact inert_of_peaks ((hpeak halone hnames).trans hnesting)
      ((hpeak hnested hnames').trans hnesting')
  · intro hinert source c maxDepth hsource hallowed
    exact isSome_deepParenthesis?_iff_of_inert hsource
      (fun name hname hreference => hinert name hreference (hallowed name hname)) maxDepth

/-- A quote in the name of a macro hides the parentheses behind it. -/
theorem nesting_check_not_exact :
    ¬ ∀ (source : List Char) (c : Chain) (maxDepth : Nat), recognize source = .ok c →
      ((deepParenthesis? maxDepth {} 0 source).isSome ↔ maxDepth < c.nesting) := by
  intro hcheck
  have hnesting :
      (recognize "%\x7b\"\x7d+((((1))))".toList).toOption.map Chain.nesting = some 4 := by
    decide +kernel
  obtain ⟨c, hc, hfour⟩ := Option.map_eq_some_iff.1 hnesting
  have hiff := hcheck _ c 2 (toOption_eq_some_iff.1 hc)
  rw [hfour] at hiff
  exact absurd (hiff.2 (by decide)) (by decide +kernel)

end Tree

end RowFormula
