/-
# Reading what was written

The text of a sketch reads back as the tree that the sketch stands for, with every name and text
as it was before it was escaped and every number as its literal denotes it.  Sketches have no
spans, so the trees are compared without them.
-/

import RowFormula.Proofs.Building

namespace RowFormula

namespace Grammar

open RowFormula.Tree.ScanState (peak_le_length)

/-! ### What sketches stand for -/

/-- The node of a single token. -/
def Word.tree : Word → Tree
  | number (.integer digits) => .integer (Numeral.integer digits).denoted ⟨0, 0⟩
  | number n => .float n.denoted ⟨0, 0⟩
  | text s => .text s ⟨0, 0⟩
  | ident name => .ident (String.ofList name.1) ⟨0, 0⟩
  | attributeRef name => .attributeRef name.1 ⟨0, 0⟩
  | macroRef name => .macroRef (String.ofList name.1) ⟨0, 0⟩

mutual

/-- The tree of a sketch. -/
def Sketch.tree : Sketch → Tree
  | word w => w.tree
  | unary op x => .unary op ⟨0, 0⟩ (Sketch.tree x)
  | infixed op x y => Tree.infixNode op ⟨0, 0⟩ (Sketch.tree x) (Sketch.tree y)
  | call name args => .call (String.ofList name.1) ⟨0, 0⟩ (Sketch.trees args)

def Sketch.trees : List Sketch → List Tree
  | [] => []
  | x :: xs => Sketch.tree x :: Sketch.trees xs

end

/-! ### Escapes -/

section Escapes

theorem escaped_cons (delimiter c : Char) (cs : List Char) :
    escaped delimiter (c :: cs) =
      (if c == delimiter || c == '\\' then ['\\', c] else [c]) ++ escaped delimiter cs := rfl

/-- Reading the text between quotes undoes escaping. -/
theorem unescapeFrom_escaped (position : Nat) (cs : List Char) :
    unescapeFrom position (escaped '"' cs) = .ok cs := by
  induction cs generalizing position with
  | nil => rfl
  | cons c cs ih =>
      rw [escaped_cons]
      by_cases hquote : c = '"'
      · subst hquote
        change (unescapeFrom (position + 2) (escaped '"' cs) >>= fun cs => pure ('"' :: cs)) = _
        rw [ih]
        rfl
      · by_cases hescape : c = '\\'
        · subst hescape
          change (unescapeFrom (position + 2) (escaped '"' cs) >>= fun cs => pure ('\\' :: cs)) = _
          rw [ih]
          rfl
        · rw [beq_false_of_ne hquote, beq_false_of_ne hescape]
          exact unescapeFrom_plain hescape (ih _)

/-- Reading the name between brackets undoes escaping. -/
theorem unbracketChars_escaped (cs : List Char) : unbracketChars (escaped ']' cs) = cs := by
  induction cs with
  | nil => rfl
  | cons c cs ih =>
      rw [escaped_cons]
      by_cases hc : (c == ']' || c == '\\') = true
      · rw [if_pos hc]
        change c :: unbracketChars (escaped ']' cs) = _
        rw [ih]
      · rw [if_neg hc]
        have hescape : c ≠ '\\' := by
          rintro rfl
          exact hc rfl
        change unbracketChars (c :: escaped ']' cs) = _
        rw [unbracketChars, ih]
        all_goals
          intros
          simp_all

end Escapes

/-! ### Building what is drawn -/

section Building

variable {source : String} {maxDepth : Nat} {p : Primary} {span : Span}

/-- An operand without an operator may stand on both sides of every operator. -/
theorem levels_le (op : InfixOp) : leftLevel op ≤ 9 ∧ rightLevel op ≤ 9 := by
  rcases op with op | op | op <;> cases op <;> decide

theorem ofLeaf_word (w : Word) :
    ∃ t, Tree.ofLeaf source span w.leaf = .ok t ∧ t.withoutSpans = w.tree := by
  cases w with
  | number n =>
      have hread : Tree.readNumber source n.chars span = .ok n.denoted := by
        simp only [Tree.readNumber, n.read?_chars]
        rfl
      have hinteger :
          Tree.ofLeaf source span (.integer n.chars) = .ok (.integer n.denoted span) := by
        rw [Tree.ofLeaf, hread]
        rfl
      have hfloat : Tree.ofLeaf source span (.float n.chars) = .ok (.float n.denoted span) := by
        rw [Tree.ofLeaf, hread]
        rfl
      cases n with
      | integer => exact ⟨_, hinteger, rfl⟩
      | point => exact ⟨_, hfloat, rfl⟩
      | leadingPoint => exact ⟨_, hfloat, rfl⟩
      | exponent => exact ⟨_, hfloat, rfl⟩
  | text s =>
      have hunescape : unescape (String.ofList (escaped '"' s.toList)) = .ok s := by
        rw [unescape_eq, String.toList_ofList, unescapeFrom_escaped, Except.map, String.ofList_toList]
      refine ⟨.text s span, ?_, rfl⟩
      rw [Word.leaf, Tree.ofLeaf, hunescape]
      rfl
  | ident name => exact ⟨.ident _ span, rfl, rfl⟩
  | attributeRef name =>
      have hunbracket : unbracket (String.ofList (escaped ']' name.1.toList)) = name.1 := by
        rw [unbracket, String.toList_ofList, unbracketChars_escaped, String.ofList_toList]
      refine ⟨.attributeRef name.1 span, ?_, rfl⟩
      rw [Word.leaf, Tree.ofLeaf, hunbracket]
      rfl
  | macroRef name => exact ⟨.macroRef _ span, rfl, rfl⟩

mutual

/-- The tree of a sketch is as high as the sketch. -/
theorem height_tree : ∀ x : Sketch, x.tree.height = x.height
  | .word w => by
      rw [Sketch.tree, Sketch.height]
      cases w with
      | number n => cases n <;> rfl
      | _ => rfl
  | .unary op x => by rw [Sketch.tree, Tree.height, height_tree x, Sketch.height]
  | .infixed op x y => by
      rw [Sketch.tree, Tree.height_infixNode, height_tree x, height_tree y, Sketch.height]
  | .call name args => by rw [Sketch.tree, Tree.height, heights_trees args, Sketch.height]
  termination_by structural x => x

theorem heights_trees : ∀ xs : List Sketch, Tree.heights (Sketch.trees xs) = Sketch.heights xs
  | [] => rfl
  | x :: xs => by rw [Sketch.trees, Tree.heights, height_tree x, heights_trees xs, Sketch.heights]
  termination_by structural xs => xs

end

mutual

/-- What a sketch draws reads as its tree. -/
theorem reads_of_draws : ∀ (x : Sketch) {p : Primary}, Draws x p →
    ∃ t, Tree.ReadsPrimary source p t ∧ t.withoutSpans = x.tree
  | .word w, p, h => by
      cases h with
      | word =>
          obtain ⟨t, ht, htree⟩ := ofLeaf_word w
          exact ⟨t, .leaf ht, by rw [Sketch.tree, htree]⟩
  | .unary op x, p, h => by
      cases h with
      | @unary _ _ p s span hp =>
          obtain ⟨t, ht, htree⟩ := reads_of_draws x hp
          have hproper : (Skeleton.signed ⟨op, s⟩ (.operand t)).Proper :=
            .signed (show 7 ≤ 9 by decide) .operand
          exact ⟨_, .group (.intro (.single ht) hproper.loosest), by
            rw [Tree.withoutSpans_withSpan, Sketch.tree, ← htree]
            rfl⟩
  | .infixed op x y, p, h => by
      cases h with
      | @infixed _ _ _ p q s span hp hq =>
          obtain ⟨t, ht, htree⟩ := reads_of_draws x hp
          obtain ⟨u, hu, hutree⟩ := reads_of_draws y hq
          have hproper : (Skeleton.joined op (.operand t) (.operand u)).Proper :=
            .joined (levels_le op).1 (levels_le op).2 .operand .operand
          exact ⟨_, .group (.intro (.link ht (.single hu)) hproper.loosest), by
            rw [Tree.withoutSpans_withSpan, Sketch.tree, ← htree, ← hutree]
            exact Tree.withoutSpans_joinedTree op t u⟩
  | .call name args, p, h => by
      cases h with
      | call hcs =>
          obtain ⟨ts, hts, htrees⟩ := readsAll_of_draws args hcs
          exact ⟨_, .call hts, by rw [Tree.withoutSpans, Sketch.tree, htrees]⟩
  termination_by structural x => x

theorem readsAll_of_draws : ∀ (xs : List Sketch) {cs : List Chain}, DrawsAll xs cs →
    ∃ ts, Tree.ReadsAll source cs ts ∧ Tree.allWithoutSpans ts = Sketch.trees xs
  | [], cs, h => by
      cases h
      exact ⟨[], .nil, rfl⟩
  | x :: xs, cs, h => by
      cases h with
      | cons hp hcs =>
          obtain ⟨t, ht, htree⟩ := reads_of_draws x hp
          obtain ⟨ts, hts, htrees⟩ := readsAll_of_draws xs hcs
          exact ⟨t :: ts, .cons (Tree.readsChain_bare ht) hts, by
            rw [Tree.allWithoutSpans, Sketch.trees, htree, htrees]⟩
  termination_by structural xs => xs

end

/-- What a sketch draws is built into its tree, if the tree is not too high. -/
theorem built_of_draws (x : Sketch) {p : Primary} (h : Draws x p) (hheight : x.height ≤ maxDepth) :
    ∃ b, Tree.ofPrimary source maxDepth p = .ok b ∧ b.tree.withoutSpans = x.tree ∧
      b.height = x.height := by
  obtain ⟨t, ht, htree⟩ := @reads_of_draws source x p h
  have hsame : t.height = x.height := by rw [← Tree.height_withoutSpans, htree, height_tree]
  exact ⟨⟨t, t.height⟩, Tree.ofPrimary_of_reads p ht (hsame ▸ hheight), htree, hsame⟩

end Building

/-! ### Limits -/

section Limits

theorem Separated.length_le {ts : List (List Char)} {cs : List Char} (h : Separated ts cs) :
    ts.length ≤ cs.length + 1 := by
  induction h with
  | single => exact Nat.le_add_left _ _
  | cons hgap _ ih =>
      have := List.length_pos_iff.2 hgap.1
      simp only [List.length_cons, List.length_append]
      omega

mutual

/-- Every operator and every call on the way down to a word has a parenthesis. -/
theorem Sketch.height_le_tokens : ∀ x : Sketch, x.height ≤ x.tokens.length
  | .word w => by
      rw [Sketch.height, Sketch.tokens]
      exact Nat.le_refl _
  | .unary op x => by
      have := Sketch.height_le_tokens x
      rw [Sketch.height, Sketch.tokens]
      simp only [List.length_cons, List.length_append]
      omega
  | .infixed op x y => by
      have := Sketch.height_le_tokens x
      have := Sketch.height_le_tokens y
      rw [Sketch.height, Sketch.tokens]
      simp only [List.length_cons, List.length_append]
      omega
  | .call name args => by
      have := Sketch.heights_le_arguments args
      rw [Sketch.height, Sketch.tokens]
      simp only [List.length_cons, List.length_append]
      omega
  termination_by structural x => x

theorem Sketch.heights_le_arguments : ∀ xs : List Sketch,
    Sketch.heights xs ≤ (Sketch.tokensOfArguments xs).length
  | [] => Nat.le_refl _
  | x :: xs => by
      have := Sketch.height_le_tokens x
      have := Sketch.heights_le_more xs
      rw [Sketch.heights, Sketch.tokensOfArguments, List.length_append]
      omega
  termination_by structural xs => xs

theorem Sketch.heights_le_more : ∀ xs : List Sketch,
    Sketch.heights xs ≤ (Sketch.tokensOfMore xs).length
  | [] => Nat.le_refl _
  | x :: xs => by
      have := Sketch.height_le_tokens x
      have := Sketch.heights_le_more xs
      rw [Sketch.heights, Sketch.tokensOfMore, List.length_cons, List.length_append]
      omega
  termination_by structural xs => xs

end

/-- A formula is never higher than its text is long. -/
theorem Sketch.height_le_length {x : Sketch} {cs : List Char} (h : Separated x.tokens cs) :
    x.height ≤ cs.length := by
  have hlength := h.length_le
  cases x with
  | word w =>
      rw [Sketch.tokens] at h
      obtain rfl := h.of_single
      rw [Sketch.height]
      exact List.length_pos_iff.2 w.spellsLeaf.ne_nil
  | unary op x =>
      have := x.height_le_tokens
      rw [Sketch.tokens] at hlength
      rw [Sketch.height]
      simp only [List.length_cons, List.length_append] at hlength
      omega
  | infixed op x y =>
      have := x.height_le_tokens
      have := y.height_le_tokens
      rw [Sketch.tokens] at hlength
      rw [Sketch.height]
      simp only [List.length_cons, List.length_append] at hlength
      omega
  | call name args =>
      have := Sketch.heights_le_arguments args
      rw [Sketch.tokens] at hlength
      rw [Sketch.height]
      simp only [List.length_cons, List.length_append] at hlength
      omega

end Limits

/-- The text of a formula, written with parentheses around every operator and with blanks between
all tokens, is taken as the operand that the formula draws. -/
theorem recognize_separated (x : Sketch) {cs : List Char} (h : Separated x.tokens cs) :
    ∃ p, recognize cs = .ok (.single (.mk [] p)) ∧ Draws x p := by
  have hheight := Sketch.height_le_length h
  have hbegins := @Sketch.begins x cs [] h
  have htaken := accepts_sketch x h closes_nil.ends closes_nil.noCall
    (show x.height ≤ cs.length + 1 by omega)
  rw [List.append_nil] at hbegins htaken
  exact recognize_bare hbegins htaken

/-- The text of a formula, written with parentheses around every operator and with blanks between
all tokens, reads back as the formula. -/
theorem parse_separated (x : Sketch) {cs : List Char} {maxDepth : Nat}
    (h : Separated x.tokens cs) (hle : cs.length ≤ maxDepth) :
    ∃ t, Tree.parse maxDepth (String.ofList cs) = .ok t ∧ t.withoutSpans = x.tree := by
  obtain ⟨p, hrecognize, hp⟩ := recognize_separated x h
  have hscan : Tree.deepParenthesis? maxDepth {} 0 cs = none := by
    refine (Tree.deepParenthesis?_eq_none_iff (Nat.zero_le _)).2 ?_
    have := peak_le_length {} cs
    exact Nat.le_trans this (Nat.le_trans (Nat.le_of_eq (Nat.zero_add _)) hle)
  obtain ⟨b, hb, htree, -⟩ := @built_of_draws (String.ofList cs) maxDepth x p hp
    (Nat.le_trans (Sketch.height_le_length h) hle)
  refine ⟨b.tree, ?_, htree⟩
  rw [Tree.parse, String.toList_ofList, hscan, hrecognize]
  simp only
  rw [Tree.ofChain, Tree.assembled_bare, hb]
  rfl

/-- Blanks may stand between all tokens alike. -/
theorem separated_intercalate {gap : List Char} (hgap : IsGap gap) {tokens : List (List Char)}
    (hne : tokens ≠ []) : Separated tokens (gap.intercalate tokens) := by
  induction tokens with
  | nil => exact absurd rfl hne
  | cons token tokens ih =>
      cases tokens with
      | nil =>
          rw [List.intercalate_singleton]
          exact .single
      | cons token' tokens =>
          rw [List.intercalate_cons_cons, List.append_assoc]
          exact .cons hgap (ih (List.cons_ne_nil _ _))

/-- A bracket in a name and quotes in a text, next to operators that must not be followed by some
character. -/
theorem parse_separated_of_escapes :
    ∃ t, Tree.parse 64 "( [a\\]b] % ( ! \"say \\\"1\\\"\" ) )" = .ok t ∧
      t.withoutSpans = .arithmetic .mod ⟨0, 0⟩ (.attributeRef "a]b" ⟨0, 0⟩)
        (.unary .not ⟨0, 0⟩ (.text "say \"1\"" ⟨0, 0⟩)) := by
  have hseparated : Separated
      (Sketch.infixed (.arithmetic .mod) (.word (.attributeRef ⟨"a]b", by decide⟩))
        (.unary .not (.word (.text "say \"1\"")))).tokens
      "( [a\\]b] % ( ! \"say \\\"1\\\"\" ) )".toList := by
    have h := @separated_intercalate [' '] ⟨by decide, forall_mem_of_all (by decide)⟩ _
      (Sketch.tokens_ne_nil
        (.infixed (.arithmetic .mod) (.word (.attributeRef ⟨"a]b", by decide⟩))
          (.unary .not (.word (.text "say \"1\"")))))
    exact h
  obtain ⟨t, ht, htree⟩ := parse_separated _ hseparated (show _ ≤ 64 by decide)
  exact ⟨t, ht, htree⟩

end Grammar

end RowFormula
