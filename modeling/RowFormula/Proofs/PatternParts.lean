/-
# Escapes, counts and kinds of groups

Each of these ends at a mark of its own, or it looks at the next character to see that it ended.
The one exception is a word boundary: a name in braces would belong to it, and braces with a count
would not.
-/

import RowFormula.Proofs.PatternReading

namespace RowFormula.Pattern

namespace Reads

variable {α β : Type} {m : Reads α} {f : α → Reads β} {a : α} {b : β} {s s' t : ReaderState}
  {cs c y z : List Char} {fault : PatternFault}

/-! ### Escapes -/

theorem skipped_name {name taken : List Char} {d : Char} (hd : taken.head? = some d)
    (hcomment : d ≠ '#')
    (htaken : (if s.flags.ignoreBlanks then takeBraced.dropBlanks name else name) = taken) :
    (skipped s (name ++ y)).head? = some d := by
  unfold skipped
  split
  · rename_i hflag
    rw [if_pos hflag] at htaken
    subst htaken
    induction name with
    | nil => cases hd
    | cons c name ih =>
        rw [List.cons_append, dropIgnored]
        by_cases hblank : Text.isBlank c = true
        · rw [if_pos hblank]
          refine ih ?_
          simpa [takeBraced.dropBlanks, hblank] using hd
        · obtain rfl : c = d := by simpa [takeBraced.dropBlanks, hblank] using hd
          rw [if_neg hblank, if_neg (by simpa using hcomment)]
          rfl
  · rename_i hflag
    rw [if_neg hflag] at htaken
    subst htaken
    obtain ⟨cs, rfl⟩ := List.head?_eq_some_iff.1 hd
    rfl

/-- The word boundary that has no name. -/
def plainBoundary (s : ReaderState) : Assertion :=
  .wordBoundary !s.flags.unicode

theorem contained_namedBoundary (ascii : Bool) (name : String) :
    Contained (namedBoundary ascii name) := by
  unfold namedBoundary
  split <;> first | exact contained_pure | exact contained_throw

theorem head?_of_namedBoundary {ascii : Bool} {a : Assertion}
    (h : Returns (namedBoundary ascii (String.ofList cs)) s a s') :
    ∃ d, cs.head? = some d ∧ d ≠ '#' := by
  have hname : ∀ word : String, String.ofList cs = word → cs = word.toList := by
    rintro _ rfl
    exact (String.toList_ofList).symm
  unfold namedBoundary at h
  split at h
  · exact ⟨'s', by rw [hname "start" (by assumption)]; rfl, by decide⟩
  · exact ⟨'e', by rw [hname "end" (by assumption)]; rfl, by decide⟩
  · exact ⟨'s', by rw [hname "start-half" (by assumption)]; rfl, by decide⟩
  · exact ⟨'e', by rw [hname "end-half" (by assumption)]; rfl, by decide⟩
  · exact absurd h not_returns_throw

/-- The letter that makes it a name, and not a count, stands in the braces. -/
theorem bracedBoundary_frames {ascii : Bool} {a : Assertion} (hrest : s.rest = '\x7b' :: cs)
    (h : Returns (bracedBoundary ascii) s a s') : ∃ d ds, cs = ds ++ s'.rest ∧
      (∀ y, (skipped s (ds ++ y)).head? = some d) ∧
      ∀ z, Returns (bracedBoundary ascii) (s.withRest ('\x7b' :: (ds ++ z))) a (s'.withRest z) := by
  obtain ⟨taken, t, hbraced, h⟩ := returns_bind.1 (returns_drop_bind.1 h)
  obtain ⟨name, hname, hbrace, ht, htaken⟩ := returns_takeBraced.1 hbraced
  obtain ⟨d, hd, hcomment⟩ := head?_of_namedBoundary h
  obtain ⟨es, hes, h⟩ := contained_namedBoundary _ _ h
  refine ⟨d, name ++ '\x7d' :: es, ?_, fun y => ?_, fun z => ?_⟩
  · simpa [hrest, hes] using hbrace
  · rw [List.append_assoc]
    exact skipped_name hd hcomment htaken
  · refine returns_drop_bind.2 (returns_bind.2 ⟨taken, t.withRest (es ++ z), ?_, h z⟩)
    refine returns_takeBraced.2 ⟨name, hname, by simp, ?_, htaken⟩
    rw [ht]
    rfl

/-- A word boundary has a name in braces, or it does not depend on what follows unless that is a
name in braces. -/
theorem boundaryEscape_frames {a : Assertion} (h : Returns boundaryEscape s a s') :
    Frames boundaryEscape s a s' ∨ (a = plainBoundary s ∧ s = s') := by
  have h := returns_get_bind.1 h
  dsimp only at h
  split at h
  · rename_i rest hrest
    split at h
    · exact absurd h not_returns_throw
    · rename_i c cs hskipped
      split at h
      · rename_i hc
        obtain ⟨d, ds, rfl, hfirst, hbraced⟩ := bracedBoundary_frames hrest h
        obtain rfl : c = d := by simpa [hskipped] using hfirst s'.rest
        refine .inl ⟨'\x7b' :: ds, nofun, hrest, fun z => returns_get_bind.2 ?_⟩
        obtain ⟨es, hes⟩ := List.head?_eq_some_iff.1 (hfirst z)
        simp only [List.cons_append, ReaderState.withRest_rest, ReaderState.withRest_flags,
          skipped_withRest, hes, if_pos hc]
        exact hbraced z
      · obtain ⟨rfl, rfl⟩ := returns_pure.1 h
        exact .inr ⟨rfl, rfl⟩
  · obtain ⟨rfl, rfl⟩ := returns_pure.1 h
    exact .inr ⟨rfl, rfl⟩

theorem boundaryEscape_plain (h : s.rest.head? ≠ some '\x7b') :
    Returns boundaryEscape s (plainBoundary s) s := by
  refine returns_get_bind.2 ?_
  dsimp only
  split
  · rename_i rest hrest
    exact absurd (congrArg List.head? hrest) h
  · exact returns_pure.2 ⟨rfl, rfl⟩

theorem contained_escapeOf {c : Char} (hc : c ≠ 'b') : Contained (escapeOf c) := by
  refine Contained.get_bind (fun s => ?_) fun _ _ => rfl
  dsimp only
  split
  all_goals first
    | exact contained_pure
    | exact (contained_letterClass _ _ _).map
    | exact (consumes_propertyEscape _).contained.map
    | exact (consumes_hexEscape _).contained.map
    | exact absurd rfl hc
    | skip
  split
  · exact contained_throw
  · split
    · exact contained_pure
    · exact contained_throw

theorem returns_escapeOf_boundary {a : Atom} : Returns (escapeOf 'b') s a s' ↔
    ∃ b, Returns boundaryEscape s b s' ∧ .assertion b = a := by
  rw [escapeOf, returns_get_bind]
  exact returns_map

/-- An escape is a word boundary without a name, or it does not look behind what it takes. -/
theorem escape_frames {a : Atom} (h : Returns escape s a s') :
    Frames escape s a s' ∨
      (a = .assertion (plainBoundary s) ∧ s.rest = 'b' :: s'.rest ∧ s' = s.withRest s'.rest) := by
  obtain ⟨c, t, hdemand, h⟩ := returns_bind.1 h
  obtain ⟨cs, hrest, rfl⟩ := returns_demand.1 hdemand
  by_cases hc : c = 'b'
  · subst hc
    obtain ⟨_, t, hdrop, h⟩ := returns_bind.1 h
    obtain ⟨b, hb, rfl⟩ := returns_escapeOf_boundary.1 h
    obtain ⟨ds, hds, hrest', hframes⟩ | ⟨rfl, rfl⟩ := boundaryEscape_frames hb
    · left
      refine looksAhead_demand.frames_bind hdemand ((looksAhead_drop 1).frames_bind hdrop ?_)
      exact ⟨ds, hds, hrest', fun z => returns_escapeOf_boundary.2 ⟨b, hframes z, rfl⟩⟩
    · right
      obtain rfl := returns_modify.1 hdrop
      exact ⟨rfl, by simp [hrest], rfl⟩
  · left
    refine looksAhead_demand.frames_bind hdemand ?_
    exact takes_drop.bind (fun _ => contained_escapeOf hc) (by rw [hrest]; nofun) h

/-! ### Repetition -/

theorem span_append_of_head? {test : Char → Bool} (hz : z.head? = (cs.dropWhile test).head?) :
    (cs.takeWhile test ++ z).takeWhile test = cs.takeWhile test ∧
      (cs.takeWhile test ++ z).dropWhile test = z := by
  have hall : ∀ c ∈ cs.takeWhile test, test c = true := fun c hc => List.mem_takeWhile_imp hc
  rw [List.takeWhile_append_of_pos hall, List.dropWhile_append_of_pos hall]
  cases z with
  | nil => simp
  | cons c z =>
      have hc : test c = false := by
        have := List.head?_dropWhile_not test cs
        rw [← hz] at this
        simpa using this
      rw [List.takeWhile_cons_of_neg (by simp [hc]), List.dropWhile_cons_of_neg (by simp [hc])]
      simp

theorem drop_length_takeWhile (test : Char → Bool) (cs : List Char) :
    cs.drop (cs.takeWhile test).length = cs.dropWhile test := by
  have hdrop := congrArg (List.drop (cs.takeWhile test).length)
    (List.takeWhile_append_dropWhile (p := test) (l := cs))
  rw [← hdrop, List.drop_left]

theorem looksAhead_dropBlanks : LooksAhead dropBlanks := by
  intro s _ s' h
  obtain rfl := returns_modify.1 h
  refine ⟨s.rest.takeWhile Text.isBlank, (List.takeWhile_append_dropWhile ..).symm, fun z hz => ?_⟩
  exact returns_modify.2 (congrArg s.withRest (span_append_of_head? hz).2)

theorem looksAhead_digits : LooksAhead digits := by
  intro s taken s' h
  obtain ⟨_, t, hdrop, h⟩ := returns_bind.1 (returns_get_bind.1 h)
  obtain ⟨rfl, rfl⟩ := returns_pure.1 h
  obtain rfl := returns_modify.1 hdrop
  have hdropped := drop_length_takeWhile Char.isDigit s.rest
  refine ⟨s.rest.takeWhile Char.isDigit, ?_, fun z hz => ?_⟩
  · show s.rest = s.rest.takeWhile Char.isDigit ++ s.rest.drop _
    rw [hdropped, List.takeWhile_append_dropWhile]
  replace hz : z.head? = (s.rest.dropWhile Char.isDigit).head? := hdropped ▸ hz
  refine returns_get_bind.2 ?_
  rw [ReaderState.withRest_rest, (span_append_of_head? hz).1]
  exact returns_bind.2 ⟨(), s.withRest z, returns_modify.2 (congrArg s.withRest List.drop_left),
    returns_pure.2 ⟨rfl, rfl⟩⟩

theorem looksAhead_count? : LooksAhead count? := by
  refine looksAhead_dropBlanks.bind fun _ => looksAhead_digits.bind fun taken =>
    looksAhead_dropBlanks.bind fun _ => Contained.looksAhead ?_
  split
  · exact contained_pure
  · dsimp only
    split
    · exact contained_pure
    · exact contained_throw

theorem contained_required (n : Option Nat) : Contained (required n) := by
  cases n with
  | none => exact contained_throw
  | some n => exact contained_pure

theorem consumes_peek_bind {f : Option Char → Reads β} (hnone : Consumes (f none))
    (hsome : ∀ c, Takes (f (some c))) : Consumes (peek >>= f) := by
  intro s b s' h
  obtain ⟨o, t, hpeek, h⟩ := returns_bind.1 h
  obtain ⟨rfl, rfl⟩ := returns_peek.1 hpeek
  refine looksAhead_peek.frames_bind hpeek ?_
  cases hrest : s.rest with
  | nil =>
      rw [hrest] at h
      exact hnone h
  | cons c cs =>
      rw [hrest] at h
      exact hsome c (by rw [hrest]; nofun) h

theorem looksAhead_bounds : LooksAhead bounds := by
  refine looksAhead_count?.bind fun first => looksAhead_demand.bind fun c => ?_
  split
  · refine looksAhead_dropAndSkip.bind fun _ => looksAhead_demand.bind fun d => ?_
    split
    · exact ((contained_required first).bind fun _ => contained_pure).looksAhead
    · refine (contained_required first).looksAhead.bind fun _ => looksAhead_count?.bind fun n => ?_
      exact ((contained_required n).bind fun _ => contained_pure).looksAhead
  · exact ((contained_required first).bind fun _ => contained_pure).looksAhead

theorem consumes_closeCount (bounds : Nat × Option Nat) : Consumes (closeCount bounds) := by
  refine consumes_peek_bind consumes_throw_bind fun c => ?_
  dsimp only
  split
  · exact consumes_throw_bind.takes
  · refine takes_drop.bind fun _ => ?_
    split
    · exact contained_throw_bind
    · exact contained_pure

theorem consumes_limits : Consumes limits :=
  looksAhead_skip.bind_consumes fun _ => looksAhead_demand.bind_consumes fun _ =>
    looksAhead_bounds.bind_consumes consumes_closeCount

/-! ### Groups -/

/-- Flags end at a colon or a closing parenthesis, and what follows does not matter. -/
theorem flagLetters_append {seen : List Char} {f g : Flags} {rest : List Char}
    (h : flagLetters cs seen f = .ok (g, rest)) :
    ∃ letters c rest', rest = c :: rest' ∧ cs = letters ++ rest ∧
      ∀ z, flagLetters (letters ++ c :: z) seen f = .ok (g, c :: z) := by
  induction cs generalizing seen f with
  | nil => cases h
  | cons c cs ih =>
      rw [flagLetters] at h
      split at h
      · rename_i hend
        split at h
        · cases h
        · rename_i hseen
          cases h
          refine ⟨[], c, cs, rfl, rfl, fun z => ?_⟩
          rw [List.nil_append, flagLetters, if_pos hend, if_neg hseen]
          rfl
      · rename_i hend
        split at h
        · cases h
        · rename_i hseen
          -- the letter is the first one of those in front of the end
          have hletter {seen' : List Char} {f' : Flags}
              (h : flagLetters cs seen' f' = .ok (g, rest))
              (hstep : ∀ cs, flagLetters (c :: cs) seen f = flagLetters cs seen' f') :
              ∃ letters d rest', rest = d :: rest' ∧ c :: cs = letters ++ rest ∧
                ∀ z, flagLetters (letters ++ d :: z) seen f = .ok (g, d :: z) := by
            obtain ⟨letters, d, rest', hrest, rfl, hz⟩ := ih h
            exact ⟨c :: letters, d, rest', hrest, rfl, fun z => (hstep _).trans (hz z)⟩
          split at h
          · rename_i hhyphen
            refine hletter h fun cs => ?_
            rw [flagLetters, if_neg hend, if_neg hseen, if_pos hhyphen]
          · rename_i hhyphen
            split at h
            · rename_i f' hset
              refine hletter h fun cs => ?_
              rw [flagLetters, if_neg hend, if_neg hseen, if_neg hhyphen, hset]
            · cases h

theorem returns_groupName {name : String} : Returns groupName s name s' ↔
    ∃ c cs, '>' ∉ c :: cs ∧ s.rest = c :: cs ++ '>' :: s'.rest ∧ name = String.ofList (c :: cs) ∧
      (isNameChar true c && cs.all (isNameChar false) && (s.names.lookup name).isNone) = true ∧
      s' = s.withRest s'.rest := by
  rw [groupName, returns_get_bind]
  dsimp only
  constructor
  · split
    · rename_i c cs rest hname hbehind
      intro h
      split at h
      · rename_i hfits
        obtain ⟨_, t, hset, h⟩ := returns_bind.1 h
        obtain ⟨rfl, rfl⟩ := returns_pure.1 h
        obtain rfl := returns_set.1 hset
        refine ⟨c, cs, fun hmem => ?_, ?_, by rw [hname], by rwa [hname] at hfits ⊢, rfl⟩
        · rw [← hname] at hmem
          simpa using List.mem_takeWhile_imp hmem
        · rw [← hname, ← hbehind, drop_length_takeWhile, List.takeWhile_append_dropWhile]
      · exact absurd h not_returns_throw
    · exact fun h => absurd h not_returns_throw
  · rintro ⟨c, cs, hmem, hrest, rfl, hfits, hs⟩
    have hplain : ∀ d ∈ c :: cs, (d != '>') = true :=
      fun d hd => bne_iff_ne.2 fun h => hmem (h ▸ hd)
    have hname : s.rest.takeWhile (· != '>') = c :: cs := by
      rw [hrest, List.takeWhile_append_of_pos hplain, List.takeWhile_cons_of_neg (by decide),
        List.append_nil]
    have hbehind : s.rest.drop (c :: cs).length = '>' :: s'.rest := by rw [hrest, List.drop_left]
    rw [hname, hbehind]
    simp only [hfits, if_true]
    exact returns_bind.2 ⟨⟨⟩, s', returns_set.2 hs.symm, returns_pure.2 ⟨rfl, rfl⟩⟩

theorem consumes_groupName : Consumes groupName := by
  intro s name s' h
  obtain ⟨c, cs, hmem, hrest, hname, hfits, hs⟩ := returns_groupName.1 h
  refine ⟨c :: cs ++ ['>'], nofun, by simpa using hrest, fun z => returns_groupName.2 ?_⟩
  refine ⟨c, cs, hmem, by simp, hname, hfits, ?_⟩
  rw [hs]
  rfl

theorem contained_openGroup (name : Option String) : Contained (openGroup name) := by
  intro s n s' h
  obtain ⟨_, t, hset, h⟩ := returns_bind.1 (returns_get_bind.1 h)
  obtain ⟨rfl, rfl⟩ := returns_pure.1 h
  obtain rfl := returns_set.1 hset
  exact ⟨[], rfl, fun z => rfl⟩

theorem consumes_namedGroup : Consumes namedGroup :=
  consumes_groupName.bind fun _ => (contained_openGroup _).map

theorem returns_flagGroup {o : Opening} : Returns flagGroup s o s' ↔
    ∃ g c, flagLetters s.rest [] s.flags = .ok (g, c :: s'.rest) ∧ s' = s.withRest s'.rest ∧
      (if c = ')' then s.rest.head? ≠ some ')' ∧ .settings g = o else .plain g = o) := by
  rw [flagGroup, returns_get_bind]
  dsimp only
  constructor
  · split
    · exact fun h => absurd h not_returns_throw
    · intro h
      obtain ⟨⟨g, rest⟩, t, hlift, h⟩ := returns_bind.1 h
      obtain ⟨hletters, rfl⟩ := returns_lift.1 hlift
      obtain ⟨letters, c, rest', rfl, -, -⟩ := flagLetters_append hletters
      obtain ⟨_, t, hset, h⟩ := returns_bind.1 h
      obtain rfl := returns_set.1 hset
      simp only [List.head?_cons, beq_iff_eq, Option.some_inj] at h
      split at h
      · rename_i hc
        split at h
        · exact absurd (returns_bind.1 h) (by simp)
        · rename_i hfirst
          obtain ⟨rfl, rfl⟩ := returns_pure.1 h
          exact ⟨g, c, hletters, rfl, by rw [if_pos hc]; exact ⟨hfirst, rfl⟩⟩
      · rename_i hc
        obtain ⟨rfl, rfl⟩ := returns_pure.1 h
        exact ⟨g, c, hletters, rfl, by rw [if_neg hc]⟩
  · rintro ⟨g, c, hletters, hs, ho⟩
    have hne : ¬ s.rest.isEmpty = true := fun hempty => by
      rw [List.isEmpty_iff.1 hempty] at hletters
      cases hletters
    rw [if_neg hne]
    refine returns_bind.2 ⟨(g, c :: s'.rest), s, returns_lift.2 ⟨hletters, rfl⟩, ?_⟩
    refine returns_bind.2 ⟨⟨⟩, s', returns_set.2 hs.symm, ?_⟩
    simp only [List.head?_cons, beq_iff_eq, Option.some_inj]
    split at ho
    · rename_i hc
      rw [if_pos hc, if_neg ho.1]
      exact returns_pure.2 ⟨ho.2, rfl⟩
    · rename_i hc
      rw [if_neg hc]
      exact returns_pure.2 ⟨ho, rfl⟩

theorem consumes_flagGroup : Consumes flagGroup := by
  intro s o s' h
  obtain ⟨g, c, hletters, hs, ho⟩ := returns_flagGroup.1 h
  obtain ⟨letters, d, rest', hd, hrest, hz⟩ := flagLetters_append hletters
  cases hd
  refine ⟨letters ++ [c], by simp, by simpa using hrest, fun z => returns_flagGroup.2 ?_⟩
  refine ⟨g, c, by simpa using hz z, ?_, ?_⟩
  · rw [hs]
    rfl
  · have hhead : (letters ++ [c] ++ z).head? = s.rest.head? := by
      rw [hrest]
      cases letters <;> rfl
    rwa [ReaderState.withRest_rest, hhead]

theorem returns_groupKind {o : Opening} : Returns groupKind s o s' ↔
    looksAround s.rest = false ∧
      ((∃ cs, s.rest = ['?', 'P', '<'] ++ cs ∧ Returns namedGroup (s.withRest cs) o s') ∨
        (¬ ['?', 'P', '<'] <+: s.rest ∧
          ((∃ cs, s.rest = ['?', '<'] ++ cs ∧ Returns namedGroup (s.withRest cs) o s') ∨
            (¬ ['?', '<'] <+: s.rest ∧
              ((∃ cs, s.rest = ['?'] ++ cs ∧ Returns flagGroup (s.withRest cs) o s') ∨
                (¬ ['?'] <+: s.rest ∧ Returns (.recorded <$> openGroup none) s o s')))))) := by
  rw [groupKind, returns_get_bind]
  cases looksAround s.rest with
  | true =>
      rw [if_pos rfl]
      simp
  | false =>
      simp only [Bool.false_eq_true, if_false, returns_takeIf_bind, if_true, true_and]

theorem looksAround_of_head? (h : ¬ ['?'] <+: cs) : looksAround cs = false := by
  cases cs with
  | nil => rfl
  | cons c cs =>
      have hc : ('?' == c) = false := beq_eq_false_iff_ne.2 fun hc => h (hc ▸ ⟨cs, rfl⟩)
      simp [looksAround, List.isPrefixOf, hc]

theorem not_prefix_of_head? {front : List Char} (h : ¬ ['?'] <+: cs) : ¬ '?' :: front <+: cs := by
  rintro ⟨ds, rfl⟩
  exact h ⟨front ++ ds, rfl⟩

/-- A group without a question mark is recorded; the marks behind a question mark end by
themselves. -/
theorem groupKind_frames {o : Opening} (h : Returns groupKind s o s') :
    Frames groupKind s o s' ∨ (∃ number, o = .recorded number) ∧ ¬ ['?'] <+: s.rest ∧
      Returns (.recorded <$> openGroup none) s o s' := by
  obtain ⟨haround, ⟨cs, hrest, h⟩ | ⟨hP, ⟨cs, hrest, h⟩ | ⟨hangle, ⟨cs, hrest, h⟩ | ⟨hmark, h⟩⟩⟩⟩ :=
    returns_groupKind.1 h
  · obtain ⟨ds, hds, rfl, hz⟩ := consumes_namedGroup h
    refine .inl ⟨['?', 'P', '<'] ++ ds, nofun, by simp [hrest],
      fun z => returns_groupKind.2 ⟨rfl, .inl ?_⟩⟩
    exact ⟨ds ++ z, by simp, hz z⟩
  · obtain ⟨_ | ⟨d, ds⟩, hds, rfl, hz⟩ := consumes_namedGroup h
    · exact absurd rfl hds
    refine .inl ⟨['?', '<'] ++ d :: ds, nofun, by simp [hrest],
      fun z => returns_groupKind.2 ⟨?_, .inr ?_⟩⟩
    · simpa [hrest, looksAround, List.isPrefixOf] using haround
    · exact ⟨by simp [List.cons_prefix_cons], .inl ⟨d :: ds ++ z, by simp, hz z⟩⟩
  · obtain ⟨_ | ⟨d, ds⟩, hds, rfl, hz⟩ := consumes_flagGroup h
    · exact absurd rfl hds
    have hd : d ≠ 'P' := by
      rintro rfl
      obtain ⟨g, c, hletters, -⟩ := returns_flagGroup.1 h
      cases hletters
    have hd' : ('<' == d) = false :=
      beq_eq_false_iff_ne.2 fun hd' => hangle ⟨ds ++ s'.rest, by simp [hrest, ← hd']⟩
    refine .inl ⟨['?'] ++ d :: ds, nofun, by simp [hrest],
      fun z => returns_groupKind.2 ⟨?_, .inr ⟨?_, .inr ⟨?_, .inl ⟨d :: ds ++ z, by simp, hz z⟩⟩⟩⟩⟩
    · simpa [hrest, looksAround, List.isPrefixOf, hd'] using haround
    · simpa [List.cons_prefix_cons] using fun h => absurd h.symm hd
    · simpa [hrest, List.cons_prefix_cons] using hangle
  · obtain ⟨number, -, hnumber⟩ := returns_map.1 h
    exact .inr ⟨⟨number, hnumber.symm⟩, hmark, h⟩

theorem looksAhead_groupKind : LooksAhead groupKind := by
  intro s o s' h
  obtain ⟨cs, -, hrest, hz⟩ | ⟨-, hmark, hopen⟩ := groupKind_frames h
  · exact ⟨cs, hrest, fun z _ => hz z⟩
  · obtain ⟨ds, hrest, hz⟩ := (contained_openGroup none).map hopen
    refine ⟨ds, hrest, fun z hhead => ?_⟩
    have hmark' : ¬ ['?'] <+: ds ++ z := by
      rw [singleton_prefix_iff] at hmark ⊢
      rwa [head?_append_congr hhead, ← hrest]
    exact returns_groupKind.2 ⟨looksAround_of_head? hmark', .inr ⟨not_prefix_of_head? hmark',
      .inr ⟨not_prefix_of_head? hmark', .inr ⟨hmark', hz z⟩⟩⟩⟩

theorem looksAhead_opening : LooksAhead opening :=
  looksAhead_skip.bind fun _ => looksAhead_groupKind

theorem opening_frames {o : Opening} (h : Returns opening s o s') :
    Frames opening s o s' ∨ ∃ number, o = .recorded number := by
  obtain ⟨_, t, hskip, h⟩ := returns_bind.1 h
  exact (groupKind_frames h).imp (looksAhead_skip.frames_bind hskip) And.left

theorem returns_closeGroup {outer : Flags} {u : Unit} : Returns (closeGroup outer) s u s' ↔
    s.rest = ')' :: s'.rest ∧ s' = { s.withRest s'.rest with flags := outer } := by
  unfold closeGroup
  rw [returns_bind]
  simp only [returns_peek]
  constructor
  · rintro ⟨_, _, ⟨rfl, rfl⟩, h⟩
    split at h
    · exact absurd (returns_bind.1 h) (by simp)
    · rename_i hclose
      have hhead : s.rest.head? = some ')' := by simpa using hclose
      obtain ⟨cs, hcs⟩ := List.head?_eq_some_iff.1 hhead
      obtain rfl := returns_modify.1 (returns_drop_bind.1 h)
      exact ⟨by simp [hcs], rfl⟩
  · rintro ⟨hrest, hs⟩
    refine ⟨_, _, ⟨rfl, rfl⟩, ?_⟩
    rw [if_neg (by simp [hrest])]
    refine returns_drop_bind.2 (returns_modify.2 ?_)
    rw [hs, hrest]
    rfl

end Reads

end RowFormula.Pattern
