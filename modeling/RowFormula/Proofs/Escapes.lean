/-
# Escapes in literals

What stands between quotes is a sequence of parts: plain characters, short escapes and escapes
by number.  Reading goes from part to part and never looks behind the end of one, so a text that
can be read may be put in front of any other text.  Every part that the grammar admits denotes a
character, unless it is an escape by the number of a surrogate.
-/

import Mathlib.Data.List.Forall2
import RowFormula.Proofs.Evaluation
import RowFormula.Proofs.Positions
import RowFormula.Proofs.Spelling

namespace RowFormula.Grammar

/-! ### Hexadecimal digits -/

/-- The number with four hexadecimal digits. -/
def hexNumber? (a b c d : Char) : Option Nat :=
  match hexValue? a, hexValue? b, hexValue? c, hexValue? d with
  | some a, some b, some c, some d => some (4096 * a + 256 * b + 16 * c + d)
  | _, _, _, _ => none

section Digits

variable {a b c d : Char} {n : Nat}

theorem hexValue?_eq_some {i : Nat} (h : hexValue? a = some i) : i < 16 ∧ a.utf8Size = 1 := by
  rw [Char.utf8Size_eq_one_iff]
  simp only [hexValue?, Char.isDigit, Char.le_def, UInt32.le_iff_toNat_le, Bool.and_eq_true,
    decide_eq_true_eq, ge_iff_le, Char.reduceVal, UInt32.reduceToNat, Char.toNat] at h ⊢
  split_ifs at h <;> cases h <;> omega

theorem exists_hexValue? (h : isHexDigit a = true) : ∃ i, hexValue? a = some i := by
  rw [isHexDigit, Bool.or_eq_true, Bool.or_eq_true] at h
  unfold hexValue?
  split_ifs with hdigit hsmall hcapital
  · exact ⟨_, rfl⟩
  · exact ⟨_, rfl⟩
  · exact ⟨_, rfl⟩
  · exact absurd h (by simp_all)

theorem exists_hexDigit (n : Nat) : ∃ a, hexValue? a = some (n % 16) := by
  have hall : ∀ i : Fin 16, "0123456789abcdef".toList[i.val]?.bind hexValue? = some i.val := by
    decide
  obtain ⟨a, -, ha⟩ := Option.bind_eq_some_iff.1 (hall ⟨n % 16, Nat.mod_lt n (by decide)⟩)
  exact ⟨a, ha⟩

theorem hexNumber?_eq_some (h : hexNumber? a b c d = some n) :
    ∃ i j k l, hexValue? a = some i ∧ hexValue? b = some j ∧ hexValue? c = some k ∧
      hexValue? d = some l ∧ n = 4096 * i + 256 * j + 16 * k + l := by
  unfold hexNumber? at h
  split at h
  · cases h
    exact ⟨_, _, _, _, ‹_›, ‹_›, ‹_›, ‹_›, rfl⟩
  · cases h

theorem hexNumber?_of_values {i j k l : Nat} (ha : hexValue? a = some i)
    (hb : hexValue? b = some j) (hc : hexValue? c = some k) (hd : hexValue? d = some l) :
    hexNumber? a b c d = some (4096 * i + 256 * j + 16 * k + l) := by
  rw [hexNumber?, ha, hb, hc, hd]

/-- Four digits reach as far as the characters of the basic plane. -/
theorem exists_hexNumber? (h : n ≤ 0xFFFF) : ∃ a b c d, hexNumber? a b c d = some n := by
  obtain ⟨a, ha⟩ := exists_hexDigit (n / 4096)
  obtain ⟨b, hb⟩ := exists_hexDigit (n / 256)
  obtain ⟨c, hc⟩ := exists_hexDigit (n / 16)
  obtain ⟨d, hd⟩ := exists_hexDigit n
  refine ⟨a, b, c, d, (hexNumber?_of_values ha hb hc hd).trans (congrArg some ?_)⟩
  omega

end Digits

/-! ### Parts of literals -/

/-- The letter of the short escape for a character. -/
def escapeLetter? : Char → Option Char
  | '"' => some '"'
  | '\\' => some '\\'
  | '\n' => some 'n'
  | '\r' => some 'r'
  | '\t' => some 't'
  | _ => none

/-- The part of a literal stands for a character. -/
inductive Denotes : List Char → Char → Prop
  | plain {c : Char} : c ≠ '\\' → Denotes [c] c
  | short {c letter : Char} : escapeLetter? c = some letter → Denotes ['\\', letter] c
  | numbered {a b c d x : Char} :
      hexNumber? a b c d = some x.toNat → Denotes ['\\', 'u', a, b, c, d] x

/-- The part of a literal is an escape by the number of a surrogate, which is no character. -/
inductive EscapesSurrogate : List Char → (number : Nat) → Prop
  | intro {a b c d : Char} {n : Nat} :
      hexNumber? a b c d = some n → 0xD800 ≤ n → n ≤ 0xDFFF →
      EscapesSurrogate ['\\', 'u', a, b, c, d] n

/-- The same fault, so many bytes further on. -/
def EscapeFault.moved (bytes : Nat) : EscapeFault → EscapeFault
  | unknown position shown => unknown (bytes + position) shown
  | incomplete position digits => incomplete (bytes + position) digits
  | notScalar position value => notScalar (bytes + position) value

section Parts

variable {position : Nat} {part cs rest : List Char} {x : Char}

theorem scalar?_toNat (x : Char) : scalar? x.toNat = some x := dif_pos x.valid

theorem toNat_of_scalar? {n : Nat} (h : scalar? n = some x) : x.toNat = n := by
  unfold scalar? at h
  by_cases hvalid : n.isValidChar
  · rw [dif_pos hvalid] at h
    cases h
    rfl
  · rw [dif_neg hvalid] at h
    cases h

theorem scalar?_eq_none_iff {n : Nat} (h : n ≤ 0xFFFF) :
    scalar? n = none ↔ 0xD800 ≤ n ∧ n ≤ 0xDFFF := by
  unfold scalar?
  by_cases hvalid : n.isValidChar
  · rw [dif_pos hvalid]
    refine iff_of_false (Option.some_ne_none _) ?_
    rcases hvalid with hvalid | hvalid <;> omega
  · rw [dif_neg hvalid]
    refine iff_of_true rfl ?_
    rw [Nat.isValidChar, not_or, not_and_or] at hvalid
    omega

theorem bind_pure_cons {ys : Except EscapeFault (List Char)} :
    (do pure (x :: (← ys))) = ys.map (x :: ·) := by
  cases ys <;> rfl

theorem unescapeFrom_numbered {a b c d : Char} {n : Nat} (h : hexNumber? a b c d = some n) :
    unescapeFrom position ('\\' :: 'u' :: a :: b :: c :: d :: rest) =
      match scalar? n with
      | some x => (unescapeFrom (position + 6) rest).map (x :: ·)
      | none => .error (.notScalar position n) := by
  obtain ⟨i, j, k, l, ha, hb, hc, hd, rfl⟩ := hexNumber?_eq_some h
  rw [unescapeFrom, ha, hb, hc, hd]
  cases hx : scalar? (4096 * i + 256 * j + 16 * k + l) with
  | none =>
      simp only [hx]
      rfl
  | some x => simp only [hx, bind_pure_cons]

/-- A part is read as the character for which it stands, whatever comes behind it. -/
theorem unescapeFrom_of_denotes (h : Denotes part x) :
    unescapeFrom position (part ++ rest) =
      (unescapeFrom (position + Span.bytesOf part) rest).map (x :: ·) := by
  cases h with
  | plain hescape =>
      change unescapeFrom position (x :: rest) = (unescapeFrom (position + x.utf8Size) rest).map _
      rw [unescapeFrom, bind_pure_cons]
      all_goals
        intros
        simp_all
  | short hletter =>
      unfold escapeLetter? at hletter
      split at hletter <;> cases hletter <;> exact bind_pure_cons
  | @numbered a b c d _ hnumber =>
      obtain ⟨i, j, k, l, ha, hb, hc, hd, -⟩ := hexNumber?_eq_some hnumber
      have hbytes : Span.bytesOf ['\\', 'u', a, b, c, d] = 6 := by
        simp only [Span.bytesOf, (hexValue?_eq_some ha).2, (hexValue?_eq_some hb).2,
          (hexValue?_eq_some hc).2, (hexValue?_eq_some hd).2]
        rfl
      rw [hbytes]
      change unescapeFrom position ('\\' :: 'u' :: a :: b :: c :: d :: rest) = _
      rw [unescapeFrom_numbered hnumber, scalar?_toNat]

theorem unescapeFrom_of_escapesSurrogate {n : Nat} (h : EscapesSurrogate part n) :
    unescapeFrom position (part ++ rest) = .error (.notScalar position n) := by
  cases h with
  | @intro a b c d _ hnumber hlower hupper =>
      change unescapeFrom position ('\\' :: 'u' :: a :: b :: c :: d :: rest) = _
      rw [unescapeFrom_numbered hnumber,
        (scalar?_eq_none_iff (Nat.le_trans hupper (by decide))).2 ⟨hlower, hupper⟩]

/-- A text that is not empty begins with a part that stands for a character, or else there is a
fault right there. -/
theorem exists_part_or_fault (hne : cs ≠ []) :
    (∃ part x rest, Denotes part x ∧ cs = part ++ rest) ∨
      ∃ fault : EscapeFault, ∀ position, unescapeFrom position cs = .error (fault.moved position) := by
  fun_cases unescapeFrom 0 cs with
  | case1 => exact absurd rfl hne
  | case2 _ rest => exact .inl ⟨['\\', '"'], '"', rest, .short rfl, rfl⟩
  | case3 _ rest => exact .inl ⟨['\\', '\\'], '\\', rest, .short rfl, rfl⟩
  | case4 _ rest => exact .inl ⟨['\\', 'n'], '\n', rest, .short rfl, rfl⟩
  | case5 _ rest => exact .inl ⟨['\\', 'r'], '\r', rest, .short rfl, rfl⟩
  | case6 _ rest => exact .inl ⟨['\\', 't'], '\t', rest, .short rfl, rfl⟩
  | case7 _ a b c d rest i j k l hd hc hb ha n x hx =>
      refine .inl ⟨['\\', 'u', a, b, c, d], x, rest, .numbered ?_, rfl⟩
      rw [hexNumber?_of_values ha hb hc hd, toNat_of_scalar? hx]
  | case8 _ a b c d rest i j k l hd hc hb ha n hx =>
      refine .inr ⟨.notScalar 0 n, fun position => ?_⟩
      rw [unescapeFrom_numbered (hexNumber?_of_values ha hb hc hd), hx]
      rfl
  | case9 _ a b c d rest hdigits =>
      refine .inr ⟨.incomplete 0 (hexRun [a, b, c, d]), fun position => ?_⟩
      rw [unescapeFrom]
      split
      · exact (hdigits _ _ _ _ ‹_› ‹_› ‹_› ‹_›).elim
      · rfl
  | case10 _ rest hshort =>
      refine .inr ⟨.incomplete 0 (hexRun rest), fun position => ?_⟩
      rw [unescapeFrom]
      · rfl
      · exact hshort
  | case11 _ c rest hquote hescape hn hr ht hdigits hu =>
      refine .inr ⟨.unknown 0 (String.ofList ['\\', c]), fun position => ?_⟩
      rw [unescapeFrom]
      · rfl
      all_goals assumption
  | case12 => exact .inr ⟨.unknown 0 "\\", fun _ => rfl⟩
  | case13 _ c rest =>
      refine .inl ⟨[c], c, rest, .plain ?_, rfl⟩
      rintro rfl
      cases rest <;> simp_all

theorem Denotes.length_pos (h : Denotes part x) : 0 < part.length := by
  cases h <;> exact Nat.succ_pos _

/-- A property of texts that passes from what stands behind a part to the part with it. -/
theorem parts_induct {motive : List Char → Prop} (nil : motive [])
    (part : ∀ part x rest, Denotes part x → motive rest → motive (part ++ rest))
    (fault : ∀ (cs : List Char) (fault : EscapeFault),
      (∀ position, unescapeFrom position cs = .error (fault.moved position)) → motive cs)
    (cs : List Char) : motive cs := by
  induction hlength : cs.length using Nat.strongRecOn generalizing cs with
  | _ length ih =>
      by_cases hne : cs = []
      · exact hne ▸ nil
      · obtain ⟨front, x, rest, hfront, rfl⟩ | ⟨f, hf⟩ := exists_part_or_fault hne
        · have hshorter : rest.length < length := by
            have := hfront.length_pos
            rw [List.length_append] at hlength
            omega
          exact part front x rest hfront (ih _ hshorter rest rfl)
        · exact fault cs f hf

/-- A text that can be read consists of parts that stand for its characters. -/
theorem exists_parts_of_unescapeFrom {xs : List Char} (h : unescapeFrom position cs = .ok xs) :
    ∃ parts, cs = parts.flatten ∧ List.Forall₂ Denotes parts xs := by
  induction cs using parts_induct generalizing position xs with
  | nil =>
      cases h
      exact ⟨[], rfl, .nil⟩
  | part part x rest hpart ih =>
      rw [unescapeFrom_of_denotes hpart] at h
      obtain ⟨ys, hys, rfl⟩ := map_eq_ok_iff.1 h
      obtain ⟨parts, rfl, hparts⟩ := ih hys
      exact ⟨part :: parts, rfl, .cons hpart hparts⟩
  | fault cs fault hfault =>
      rw [hfault] at h
      cases h

theorem EscapeFault.moved_moved (bytes more : Nat) (fault : EscapeFault) :
    (fault.moved bytes).moved more = fault.moved (more + bytes) := by
  cases fault <;> simp only [moved, Nat.add_assoc]

/-- Where a text starts makes no difference, except for the place of a fault. -/
theorem unescapeFrom_add (bytes : Nat) :
    unescapeFrom (bytes + position) cs =
      (unescapeFrom position cs).mapError (EscapeFault.moved bytes) := by
  induction cs using parts_induct generalizing position with
  | nil => rfl
  | part part x rest hpart ih =>
      rw [unescapeFrom_of_denotes hpart, unescapeFrom_of_denotes hpart, Nat.add_assoc, ih]
      cases unescapeFrom (position + Span.bytesOf part) rest <;> rfl
  | fault cs fault hfault =>
      rw [hfault, hfault, Except.mapError, EscapeFault.moved_moved]

/-- Parts are read one after another, and then what stands behind them. -/
theorem unescapeFrom_of_parts {parts : List (List Char)} {xs : List Char}
    (h : List.Forall₂ Denotes parts xs) :
    unescapeFrom position (parts.flatten ++ rest) =
      (unescapeFrom (position + Span.bytesOf parts.flatten) rest).map (xs ++ ·) := by
  induction h generalizing position with
  | nil =>
      change unescapeFrom position rest = (unescapeFrom position rest).map ([] ++ ·)
      cases unescapeFrom position rest <;> rfl
  | cons hpart _ ih =>
      rw [List.flatten_cons, List.append_assoc, unescapeFrom_of_denotes hpart, ih,
        Span.bytesOf_append, Nat.add_assoc]
      cases unescapeFrom _ rest <;> rfl

end Parts

/-! ### Parts that the grammar admits -/

/-- What stands between quotes has an escape by the number of a surrogate. -/
def HasSurrogate (content : List Char) : Prop :=
  ∃ parts : List (List Char), (∀ part ∈ parts, TextPart part) ∧ content = parts.flatten ∧
    ∃ part ∈ parts, ∃ n, EscapesSurrogate part n

section Literals

variable {part content : List Char} {parts : List (List Char)}

theorem TextPart.denotes_or (h : TextPart part) :
    (∃ x, Denotes part x) ∨ ∃ n, EscapesSurrogate part n := by
  cases h with
  | plain _ hescape => exact .inl ⟨_, .plain hescape⟩
  | @escape c hc =>
      simp only [Bool.or_eq_true, beq_iff_eq] at hc
      obtain (((rfl | rfl) | rfl) | rfl) | rfl := hc
      · exact .inl ⟨'"', .short rfl⟩
      · exact .inl ⟨'\\', .short rfl⟩
      · exact .inl ⟨'\n', .short rfl⟩
      · exact .inl ⟨'\r', .short rfl⟩
      · exact .inl ⟨'\t', .short rfl⟩
  | unicode ha hb hc hd =>
      obtain ⟨i, hi⟩ := exists_hexValue? ha
      obtain ⟨j, hj⟩ := exists_hexValue? hb
      obtain ⟨k, hk⟩ := exists_hexValue? hc
      obtain ⟨l, hl⟩ := exists_hexValue? hd
      have hnumber := hexNumber?_of_values hi hj hk hl
      have hle : 4096 * i + 256 * j + 16 * k + l ≤ 0xFFFF := by
        have := (hexValue?_eq_some hi).1
        have := (hexValue?_eq_some hj).1
        have := (hexValue?_eq_some hk).1
        have := (hexValue?_eq_some hl).1
        omega
      cases hx : scalar? (4096 * i + 256 * j + 16 * k + l) with
      | none =>
          obtain ⟨hlower, hupper⟩ := (scalar?_eq_none_iff hle).1 hx
          exact .inr ⟨_, .intro hnumber hlower hupper⟩
      | some x =>
          rw [← toNat_of_scalar? hx] at hnumber
          exact .inl ⟨x, .numbered hnumber⟩

/-- Either all parts stand for characters, or those in front of the first surrogate do. -/
theorem denote_or_escapesSurrogate (h : ∀ part ∈ parts, TextPart part) :
    (∃ xs, List.Forall₂ Denotes parts xs) ∨
      ∃ front xs part n back, parts = front ++ part :: back ∧ List.Forall₂ Denotes front xs ∧
        EscapesSurrogate part n := by
  induction parts with
  | nil => exact .inl ⟨[], .nil⟩
  | cons part parts ih =>
      rw [List.forall_mem_cons] at h
      obtain ⟨x, hx⟩ | ⟨n, hn⟩ := h.1.denotes_or
      · obtain ⟨xs, hxs⟩ | ⟨front, xs, part', n, back, rfl, hxs, hn⟩ := ih h.2
        · exact .inl ⟨x :: xs, .cons hx hxs⟩
        · exact .inr ⟨part :: front, x :: xs, part', n, back, rfl, .cons hx hxs, hn⟩
      · exact .inr ⟨[], [], part, n, parts, rfl, .nil, hn⟩

theorem unescape_of_denotes {xs : List Char} (h : List.Forall₂ Denotes parts xs) :
    unescape (String.ofList parts.flatten) = .ok (String.ofList xs) := by
  have hread := @unescapeFrom_of_parts 0 [] _ _ h
  rw [List.append_nil] at hread
  rw [unescape_eq, String.toList_ofList, hread]
  change Except.ok (String.ofList (xs ++ [])) = _
  rw [List.append_nil]

theorem unescape_of_escapesSurrogate {front back : List (List Char)} {xs : List Char} {n : Nat}
    (h : List.Forall₂ Denotes front xs) (hn : EscapesSurrogate part n) :
    unescape (String.ofList (front ++ part :: back).flatten) =
      .error (.notScalar (Span.bytesOf front.flatten) n) := by
  rw [unescape_eq, String.toList_ofList, List.flatten_append, List.flatten_cons,
    unescapeFrom_of_parts h, unescapeFrom_of_escapesSurrogate hn, Nat.zero_add]
  rfl

theorem Denotes.not_escapesSurrogate {x : Char} {n : Nat} (h : Denotes part x) :
    ¬ EscapesSurrogate part n := by
  rintro ⟨hnumber, hlower, hupper⟩
  cases h with
  | numbered hx =>
      obtain rfl := Option.some.inj (hx.symm.trans hnumber)
      rcases x.valid with hvalid | hvalid
      · exact absurd hvalid (Nat.not_lt.2 hlower)
      · exact absurd hvalid.1 (Nat.not_lt.2 hupper)

/-- What the grammar admits between quotes can be read unless it has a surrogate. -/
theorem exists_unescape_iff (h : ∀ part ∈ parts, TextPart part) :
    (∃ s, unescape (String.ofList parts.flatten) = .ok s) ↔ ¬ HasSurrogate parts.flatten := by
  constructor
  · rintro ⟨s, hs⟩ ⟨others, hothers, hsame, part, hpart, n, hn⟩
    rw [hsame] at hs
    obtain ⟨xs, hxs⟩ | ⟨front, xs, part', n', back, rfl, hxs, hn'⟩ :=
      denote_or_escapesSurrogate hothers
    · have hnone : ∀ part ∈ others, ¬ EscapesSurrogate part n :=
        (List.forall₂_and_left _ _).1
          (hxs.imp fun _ _ hx => ⟨hx.not_escapesSurrogate, hx⟩) |>.1
      exact hnone part hpart hn
    · rw [unescape_of_escapesSurrogate hxs hn'] at hs
      cases hs
  · intro hnone
    obtain ⟨xs, hxs⟩ | ⟨front, xs, part, n, back, rfl, -, hn⟩ := denote_or_escapesSurrogate h
    · exact ⟨_, unescape_of_denotes hxs⟩
    · exact absurd ⟨_, h, rfl, part, by simp, n, hn⟩ hnone

/-- The only fault of what the grammar admits between quotes is a surrogate. -/
theorem unescape_eq_error {fault : EscapeFault} (h : ∀ part ∈ parts, TextPart part)
    (hfault : unescape (String.ofList parts.flatten) = .error fault) :
    (∃ position n, fault = .notScalar position n ∧ 0xD800 ≤ n ∧ n ≤ 0xDFFF) ∧
      HasSurrogate parts.flatten := by
  obtain ⟨xs, hxs⟩ | ⟨front, xs, part, n, back, rfl, hxs, hn⟩ := denote_or_escapesSurrogate h
  · rw [unescape_of_denotes hxs] at hfault
    cases hfault
  · rw [unescape_of_escapesSurrogate hxs hn] at hfault
    cases hfault
    refine ⟨⟨_, n, rfl, ?_⟩, ⟨_, h, rfl, part, by simp, n, hn⟩⟩
    cases hn with
    | intro _ hlower hupper => exact ⟨hlower, hupper⟩

end Literals

/-! ### Writing literals -/

/-- A character as it is usually written between quotes. -/
def written (c : Char) : List Char :=
  match escapeLetter? c with
  | some letter => ['\\', letter]
  | none => [c]

/-- A character may be written as usual or by its number, in digits of either case. -/
inductive Writes (x : Char) : List Char → Prop
  | usual : Writes x (written x)
  | numbered {a b c d : Char} :
      hexNumber? a b c d = some x.toNat → Writes x ['\\', 'u', a, b, c, d]

theorem Writes.denotes {x : Char} {part : List Char} (h : Writes x part) : Denotes part x := by
  cases h with
  | usual =>
      unfold written
      split
      · exact .short ‹_›
      · refine .plain ?_
        rintro rfl
        contradiction
  | numbered hnumber => exact .numbered hnumber

/-- Reading what stands between quotes is compositional.  A text that can be read is read in the
same way in front of another one, which then is read as if it stood alone, apart from the place of
a fault.  And a text is read back however its characters are written, each of them as usual or by
number, whether or not texts without a backslash are kept as they are. -/
theorem unescape_compositional :
    (∀ a b x : String, unescape a = .ok x →
      (∀ y, unescape b = .ok y → unescape (a ++ b) = .ok (x ++ y)) ∧
      ∀ fault, unescape b = .error fault →
        unescape (a ++ b) = .error (fault.moved a.utf8ByteSize)) ∧
    (∀ (s : String) (parts : List (List Char)), List.Forall₂ Writes s.toList parts →
      unescape (String.ofList parts.flatten) = .ok s ∧
      (unescapeFrom 0 parts.flatten).map String.ofList = .ok s) ∧
    ∀ x : Char, x.toNat ≤ 0xFFFF → ∃ a b c d, Writes x ['\\', 'u', a, b, c, d] := by
  refine ⟨fun a b x hx => ?_, fun s parts hparts => ?_, fun x hx => ?_⟩
  · rw [unescape_eq] at hx
    obtain ⟨xs, hxs, rfl⟩ := map_eq_ok_iff.1 hx
    obtain ⟨parts, hparts, hdenote⟩ := exists_parts_of_unescapeFrom hxs
    have hsize : Span.bytesOf a.toList = a.utf8ByteSize := by
      rw [Span.bytesOf_eq_utf8ByteSize, String.ofList_toList]
    have happend : unescapeFrom 0 (a ++ b).toList =
        ((unescapeFrom 0 b.toList).mapError (EscapeFault.moved a.utf8ByteSize)).map (xs ++ ·) := by
      rw [String.toList_append, hparts, unescapeFrom_of_parts hdenote, ← hparts, Nat.zero_add,
        hsize, ← unescapeFrom_add, Nat.add_zero]
    rw [unescape_eq, unescape_eq, happend]
    cases unescapeFrom 0 b.toList with
    | ok ys =>
        refine ⟨fun y hy => ?_, nofun⟩
        cases hy
        exact congrArg Except.ok String.ofList_append
    | error fault =>
        refine ⟨nofun, fun fault' hfault => ?_⟩
        cases hfault
        rfl
  · have hdenote : List.Forall₂ Denotes parts s.toList :=
      hparts.flip.imp fun _ _ => Writes.denotes
    have hread := unescape_of_denotes hdenote
    rw [String.ofList_toList] at hread
    refine ⟨hread, ?_⟩
    rwa [unescape_eq, String.toList_ofList] at hread
  · obtain ⟨a, b, c, d, hnumber⟩ := exists_hexNumber? hx
    exact ⟨a, b, c, d, .numbered hnumber⟩

/-- An escape by number is followed by another hexadecimal digit, and the fault behind it is found
at its place. -/
theorem unescape_compositional_of_escapes :
    unescape "\\u00e9f" = .ok "éf" ∧ unescape "ü\\ud800" = .error (.notScalar 2 0xD800) ∧
      unescape ("\\u00e9f" ++ "ü\\ud800") = .error (.notScalar 9 0xD800) ∧
      unescape "\\u00E9\\n\\\"\\\\" = .ok "é\n\"\\" := by
  have hfront : unescape "\\u00e9f" = .ok "éf" := by decide +kernel
  have hback : unescape "ü\\ud800" = .error (.notScalar 2 0xD800) := by decide +kernel
  have hwritten : List.Forall₂ Writes "é\n\"\\".toList
      [['\\', 'u', '0', '0', 'E', '9'], ['\\', 'n'], ['\\', '"'], ['\\', '\\']] :=
    .cons (.numbered rfl) (.cons .usual (.cons .usual (.cons .usual .nil)))
  exact ⟨hfront, hback, (unescape_compositional.1 _ _ _ hfront).2 _ hback,
    (unescape_compositional.2.1 _ _ hwritten).1⟩

end RowFormula.Grammar
