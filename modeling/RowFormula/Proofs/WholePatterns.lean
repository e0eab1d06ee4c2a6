/-
# A pattern within another one

A pattern that is to match a whole text is set between anchors and parentheses, as a text.  This
means what it should if the text is a pattern by itself, unless it ends in a comment, which swallows
the parenthesis behind it.  A text that is no pattern becomes one there only if it closes the
parenthesis in front of it too early.
-/

import RowFormula.Catalog.Inspection
import RowFormula.Proofs.PatternGroups
import RowFormula.Proofs.PatternMatching

namespace RowFormula.Pattern

open Reads

variable {p q : Pattern} {s s' t u : ReaderState} {cs ds y z w : List Char} {n : Nat}
  {text : String}

/-! ### Reading from the start -/

theorem Reads.Returns.unique {α : Type} {m : Reads α} {a b : α} (h : Returns m s a s')
    (h' : Returns m s b t) : a = b ∧ s' = t :=
  Prod.mk.inj (Except.ok.inj (h.symm.trans h'))

theorem returns_whole : Returns whole s p s' ↔
    Returns (alternation (s.rest.length + 1) [] []) s p s' ∧ s'.rest = [] := by
  rw [whole, returns_get_bind, returns_bind]
  simp only [returns_bind, returns_peek]
  constructor
  · rintro ⟨q, t, hq, _, _, ⟨rfl, rfl⟩, h⟩
    split at h
    · exact absurd (returns_bind.1 h) (by simp)
    · rename_i hrest
      obtain ⟨rfl, rfl⟩ := returns_pure.1 h
      exact ⟨hq, by simpa using hrest⟩
  · rintro ⟨hp, hrest⟩
    refine ⟨p, s', hp, _, _, ⟨rfl, rfl⟩, ?_⟩
    rw [hrest]
    exact returns_pure.2 ⟨rfl, rfl⟩

/-- The characters are those of a pattern, and this is where reading it ends. -/
def ReadsAll (cs : List Char) (p : Pattern) (s : ReaderState) : Prop :=
  Returns (alternation (cs.length + 1) [] []) { rest := cs } p s ∧ s.rest = []

theorem read_eq_ok_iff {named : Named} :
    read text = .ok named ↔ ∃ s, ReadsAll text.toList named.pattern s ∧ s.names = named.names := by
  have hread : read text = (whole { rest := text.toList } >>= fun r => pure ⟨r.1, r.2.names⟩) := rfl
  simp only [ReadsAll, ← returns_whole (s := { rest := text.toList })]
  unfold Returns
  rw [hread]
  cases whole { rest := text.toList } with
  | error fault => exact ⟨nofun, nofun⟩
  | ok r =>
      constructor
      · rintro ⟨⟩
        exact ⟨r.2, rfl, rfl⟩
      · rintro ⟨s, hr, hnames⟩
        cases hr
        exact congrArg Except.ok (congrArg (Named.mk named.pattern) hnames)

/-- The text is a pattern. -/
def IsPattern (text : String) : Prop :=
  ∃ named, read text = .ok named

theorem isPattern_iff : IsPattern text ↔ ∃ p s, ReadsAll text.toList p s := by
  simp only [IsPattern, read_eq_ok_iff]
  constructor
  · rintro ⟨named, s, h, -⟩
    exact ⟨_, s, h⟩
  · rintro ⟨p, s, h⟩
    exact ⟨⟨p, s.names⟩, s, h, rfl⟩

/-! ### Comments -/

/-- The text is a pattern that ends in a comment: a number sign where blanks and comments are
skipped, without a line feed behind it. -/
def EndsInComment (text : String) : Prop :=
  ∃ front comment p s, text.toList = front ++ '#' :: comment ∧ '\n' ∉ comment ∧
    ReadsAll front p s ∧ s.flags.ignoreBlanks = true

theorem dropIgnored_comment (hz : '\n' ∉ z) : dropIgnored true z = [] := by
  induction z with
  | nil => rfl
  | cons c z ih =>
      obtain ⟨hc, hz⟩ := not_or.1 (mt List.mem_cons.2 hz)
      rw [dropIgnored, bne_iff_ne.2 (Ne.symm hc)]
      exact ih hz

/-- An open comment takes all the rest of the line. -/
theorem dropIgnored_append_comment {inComment : Bool} (h : dropIgnored inComment cs = [])
    (hz : '\n' ∉ z) : dropIgnored inComment (cs ++ '#' :: z) = [] := by
  induction cs generalizing inComment with
  | nil =>
      have hopen : dropIgnored inComment ('#' :: z) = dropIgnored true z := by
        cases inComment <;> rfl
      rw [List.nil_append, hopen, dropIgnored_comment hz]
  | cons c cs ih =>
      obtain ⟨later, hdrop, -⟩ | ⟨-, hstay⟩ := dropIgnored_cons inComment c
      · rw [hdrop] at h
        exact (hdrop _).trans (ih h)
      · cases (hstay cs).symm.trans h

/-- Behind what is skipped altogether skipping starts anew, unless a comment is left open. -/
theorem dropIgnored_append_of_nil {inComment : Bool} (h : dropIgnored inComment cs = []) :
    (∀ z, dropIgnored inComment (cs ++ z) = dropIgnored false z) ∨
      (inComment = true ∧ '\n' ∉ cs) ∨
      ∃ front comment, cs = front ++ '#' :: comment ∧ '\n' ∉ comment ∧
        dropIgnored inComment front = [] := by
  induction cs generalizing inComment with
  | nil =>
      cases inComment with
      | true => exact .inr (.inl ⟨rfl, List.not_mem_nil⟩)
      | false => exact .inl fun z => rfl
  | cons c cs ih =>
      obtain ⟨later, hdrop, hopen⟩ | ⟨-, hstay⟩ := dropIgnored_cons inComment c
      · rw [hdrop] at h
        obtain hall | ⟨htrue, hcs⟩ | ⟨front, comment, rfl, hcomment, hfront⟩ := ih h
        · exact .inl fun z => (hdrop _).trans (hall z)
        · obtain ⟨hin, hc⟩ | rfl := hopen htrue
          · exact .inr (.inl ⟨hin, by simp [hc.symm, hcs]⟩)
          · exact .inr (.inr ⟨[], cs, rfl, hcs, dropIgnored_nil _⟩)
        · exact .inr (.inr ⟨c :: front, comment, rfl, hcomment, (hdrop _).trans hfront⟩)
      · cases (hstay cs).symm.trans h

theorem skipped_append_of_nil (h : skipped s cs = []) :
    (∀ z, skipped s (cs ++ z) = skipped s z) ∨ s.flags.ignoreBlanks = true ∧
      ∃ front comment, cs = front ++ '#' :: comment ∧ '\n' ∉ comment ∧ skipped s front = [] := by
  unfold skipped at *
  split at h
  · rename_i hflag
    simp only [if_pos hflag]
    obtain hall | ⟨hfalse, -⟩ | hcomment := dropIgnored_append_of_nil h
    · exact .inl hall
    · cases hfalse
    · exact .inr ⟨hflag, hcomment⟩
  · rename_i hflag
    simp only [if_neg hflag]
    exact .inl fun z => by rw [h, List.nil_append]

theorem skipped_append_comment (hflag : s.flags.ignoreBlanks = true) (h : skipped s cs = [])
    (hz : '\n' ∉ z) : skipped s (cs ++ '#' :: z) = [] := by
  unfold skipped at *
  rw [if_pos hflag] at *
  exact dropIgnored_append_comment h hz

/-- What is skipped in front of a character is skipped without it too. -/
theorem skipped_eq_nil_of_append {c : Char} (h : skipped s (cs ++ [c]) = [c]) :
    skipped s cs = [] := by
  by_contra hne
  rw [skipped_append hne, List.append_eq_cons_iff] at h
  simp_all

/-! ### In front of a closing parenthesis -/

theorem exists_frame (h : Returns (alternation n [] []) { rest := cs } p s) :
    ∃ front y, cs = front ++ y ∧ skipped s y = s.rest ∧
      ∀ z n, Ends (skipped s z) → front.length < n →
        Returns (alternation n [] []) { rest := front ++ z } p (s.withRest (skipped s z)) := by
  obtain ⟨front, y, hfront, hy, -, hz⟩ := alternation_frames h
  exact ⟨front, y, hfront, hy, hz⟩

/-- The characters are read up to their end where a closing parenthesis follows, whatever stands
behind it. -/
def ReadsBeforeClose (cs : List Char) (p : Pattern) (s : ReaderState) : Prop :=
  ∀ z n, cs.length < n →
    Returns (alternation n [] []) { rest := cs ++ ')' :: z } p (s.withRest (')' :: z))

/-- What is read up to a closing parenthesis is a pattern without it. -/
theorem exists_readsBeforeClose (h : Returns (alternation n [] []) { rest := cs } p s)
    (hs : s.rest = ')' :: ds) :
    ∃ front, cs = front ++ ')' :: ds ∧ ReadsBeforeClose front p s ∧
      ReadsAll front p (s.withRest []) := by
  obtain ⟨es, y, rfl, hy, hz⟩ := exists_frame h
  obtain ⟨fs, hfs, hskip⟩ := exists_skipped s y
  rw [hy, hs] at hfs hskip
  subst hfs
  have hends : skipped s fs = [] := skipped_eq_nil_of_append (hskip [')'] rfl)
  refine ⟨es ++ fs, (List.append_assoc _ _ _).symm, fun z n hn => ?_, ?_, rfl⟩
  · have hclose : skipped s (fs ++ ')' :: z) = ')' :: z := hskip _ rfl
    have hread := hz (fs ++ ')' :: z) n (.inr (by rw [hclose]; rfl))
      (by rw [List.length_append] at hn; omega)
    rwa [hclose, ← List.append_assoc] at hread
  · have hread := hz fs ((es ++ fs).length + 1) (.inl hends)
      (by rw [List.length_append]; omega)
    rwa [hends] at hread

/-- A comment that is not closed takes everything behind it. -/
theorem ReadsAll.append_comment (h : ReadsAll cs p s) (hflag : s.flags.ignoreBlanks = true)
    (hz : '\n' ∉ z) (hn : (cs ++ '#' :: z).length < n) :
    Returns (alternation n [] []) { rest := cs ++ '#' :: z } p s := by
  obtain ⟨hread, hs⟩ := h
  obtain ⟨front, y, rfl, hy, hframe⟩ := exists_frame hread
  have hskip : skipped s (y ++ '#' :: z) = [] := skipped_append_comment hflag (hs ▸ hy) hz
  have hread := hframe (y ++ '#' :: z) n (.inl hskip)
    (by simp only [List.length_append] at hn; omega)
  rwa [hskip, ← hs, ← List.append_assoc] at hread

theorem not_endsInComment_of_beforeClose (h : ReadsBeforeClose text.toList p s) :
    ¬ EndsInComment text := by
  rintro ⟨front, comment, q, t, htext, hcomment, hfront, hflag⟩
  have hend := hfront.append_comment hflag (z := comment ++ [')']) (by simp [hcomment])
    (Nat.lt_succ_self _)
  have hclose := h [] ((front ++ '#' :: (comment ++ [')'])).length + 1)
    (by simp only [htext, List.length_append, List.length_cons]; omega)
  rw [htext, List.append_assoc, List.cons_append] at hclose
  obtain ⟨-, ht⟩ := hend.unique hclose
  simpa [hfront.2] using congrArg ReaderState.rest ht

/-- A pattern can stand in front of a closing parenthesis unless it ends in a comment. -/
theorem ReadsAll.beforeClose (h : ReadsAll text.toList p s) (hcomment : ¬ EndsInComment text) :
    ReadsBeforeClose text.toList p s := by
  obtain ⟨front, y, htext, hy, hframe⟩ := exists_frame h.1
  obtain hall | ⟨hflag, back, comment, rfl, hopen, hback⟩ := skipped_append_of_nil (hy.trans h.2)
  · intro z n hn
    have hclose : skipped s (y ++ ')' :: z) = ')' :: z :=
      (hall _).trans (skipped_cons (by decide) (by decide))
    have hread := hframe (y ++ ')' :: z) n (.inr (by rw [hclose]; rfl))
      (by simp only [htext, List.length_append] at hn; omega)
    rwa [hclose, ← List.append_assoc, ← htext] at hread
  · refine absurd ⟨front ++ back, comment, p, s, ?_, hopen, ⟨?_, h.2⟩, hflag⟩ hcomment
    · rw [htext, List.append_assoc]
    · have hread := hframe back ((front ++ back).length + 1) (.inl hback)
        (by rw [List.length_append]; omega)
      rwa [hback, ← h.2] at hread

theorem EndsInComment.isPattern (h : EndsInComment text) : IsPattern text := by
  obtain ⟨front, comment, p, s, htext, hcomment, hfront, hflag⟩ := h
  refine isPattern_iff.2 ⟨p, s, ?_, hfront.2⟩
  rw [htext]
  exact hfront.append_comment hflag hcomment (Nat.lt_succ_self _)

/-! ### Between anchors and parentheses -/

theorem returns_opening_plain :
    Returns opening { rest := '?' :: ':' :: cs } (.plain {}) { rest := cs } := rfl

theorem returns_piece_start : Returns (piece '^' []) { rest := '^' :: cs }
    [.pattern (.assertion .textStart)] { rest := cs } := rfl

theorem returns_anchored :
    Returns (alternation (n + 2) [] []) { rest := '^' :: '(' :: '?' :: ':' :: cs } p s ↔
      ∃ q u ds, Returns (alternation n [] []) { rest := cs } q u ∧ u.rest = ')' :: ds ∧
        Returns (alternation n [.pattern q, .pattern (.assertion .textStart)] [])
          { u with rest := ds, flags := {} } p s := by
  rw [returns_alternation_piece rfl (by decide)]
  constructor
  · rintro ⟨_, _, hstart, h⟩
    obtain ⟨rfl, rfl⟩ := returns_piece_start.unique hstart
    obtain ⟨_, t, hgroup, h⟩ := (returns_alternation_group rfl).1 h
    obtain ⟨_, _, hopen, hgroup⟩ := returns_group.1 hgroup
    obtain ⟨rfl, rfl⟩ := returns_opening_plain.unique hopen
    obtain ⟨q, u, hq, hclose, rfl⟩ := hgroup
    obtain ⟨hu, ht⟩ := returns_closeGroup.1 hclose
    rw [ht] at h
    exact ⟨q, u, t.rest, hq, hu, h⟩
  · rintro ⟨q, u, ds, hq, hu, h⟩
    refine ⟨_, _, returns_piece_start, (returns_alternation_group rfl).2 ⟨_, _, ?_, h⟩⟩
    refine returns_group.2 ⟨_, _, returns_opening_plain, q, u, hq, ?_, rfl⟩
    exact returns_closeGroup.2 ⟨hu, rfl⟩

open Catalog (wholePattern)

theorem toList_wholePattern :
    (wholePattern text).toList = '^' :: '(' :: '?' :: ':' :: (text.toList ++ [')', '$']) := by
  simp [wholePattern]

theorem readsAll_wholePattern_iff : ReadsAll (wholePattern text).toList p s ↔
    ∃ q u ds, Returns (alternation (text.toList.length + 5) [] [])
        { rest := text.toList ++ [')', '$'] } q u ∧
      u.rest = ')' :: ds ∧
      Returns (alternation (text.toList.length + 5)
        [.pattern q, .pattern (.assertion .textStart)] [])
        { u with rest := ds, flags := {} } p s ∧ s.rest = [] := by
  have hsteps : (wholePattern text).toList.length + 1 = text.toList.length + 5 + 2 := by
    simp [toList_wholePattern]
  rw [ReadsAll, hsteps, toList_wholePattern, returns_anchored]
  constructor
  · rintro ⟨⟨q, u, ds, hq, hu, h⟩, hs⟩
    exact ⟨q, u, ds, hq, hu, h, hs⟩
  · rintro ⟨q, u, ds, hq, hu, h, hs⟩
    exact ⟨⟨q, u, ds, hq, hu, h⟩, hs⟩

theorem returns_piece_end {pieces : List Piece} : Returns (piece '$' pieces) (u.withRest ['$'])
    (.pattern (.assertion (endAnchor u.flags)) :: pieces) (u.withRest []) := rfl

theorem returns_end_anchor (hu : u.flags = {}) :
    Returns (alternation (n + 2) [.pattern q, .pattern (.assertion .textStart)] [])
      (u.withRest ['$']) (anchored q) (u.withRest []) := by
  have hdollar : skipped u ['$'] = ['$'] := skipped_cons (by decide) (by decide)
  refine (returns_alternation_piece hdollar (by decide)).2 ⟨_, _, returns_piece_end, ?_⟩
  rw [returns_alternation_end (.inl skipped_nil), ReaderState.withRest_flags, hu]
  exact ⟨rfl, by simp⟩

/-- A pattern that does not end in a comment means the same between anchors and parentheses. -/
theorem read_wholePattern {named : Named} (h : read text = .ok named)
    (hcomment : ¬ EndsInComment text) :
    read (wholePattern text) = .ok ⟨anchored named.pattern, named.names⟩ := by
  obtain ⟨s, hs, hnames⟩ := read_eq_ok_iff.1 h
  have hread := hs.beforeClose hcomment ['$'] (text.toList.length + 5) (by omega)
  refine read_eq_ok_iff.2 ⟨{ s with rest := [], flags := {} }, ?_, hnames⟩
  exact readsAll_wholePattern_iff.2 ⟨_, _, ['$'], hread, rfl,
    returns_end_anchor (u := { s with flags := {} }) rfl, rfl⟩

/-- The text closes the parenthesis in front of it: it starts with a pattern and a closing
parenthesis, and what is behind can be read up to the parenthesis and the anchor that follow. -/
def ClosesEarly (text : String) : Prop :=
  ∃ front back : String, text = front ++ ")" ++ back ∧ IsPattern front ∧ ¬ EndsInComment front ∧
    IsPattern (wholePattern text)

/-- The first parenthesis that closes nothing in the text is the one behind it, or one in it. -/
theorem eq_or_exists_of_append_close {front : List Char}
    (h : cs ++ [')', '$'] = front ++ ')' :: ds) :
    cs = front ∨ ∃ back, cs = front ++ ')' :: back := by
  obtain ⟨es, rfl, hes⟩ | ⟨es, rfl, hes⟩ := List.append_eq_append_iff.1 h
  · obtain _ | ⟨c, _ | ⟨d, es⟩⟩ := es
    · exact .inl (List.append_nil cs).symm
    · simp at hes
    · simp at hes
  · obtain _ | ⟨c, es⟩ := es
    · exact .inl (List.append_nil front)
    · obtain ⟨rfl, -⟩ := List.cons.inj hes
      exact .inr ⟨es, rfl⟩

theorem ClosesEarly.isPattern (h : ClosesEarly text) : IsPattern (wholePattern text) := by
  obtain ⟨-, -, -, -, -, hwhole⟩ := h
  exact hwhole

theorem ClosesEarly.not_isPattern (h : ClosesEarly text) : ¬ IsPattern text := by
  obtain ⟨front, back, rfl, hfront, hcomment, -⟩ := h
  obtain ⟨p, s, hp⟩ := isPattern_iff.1 hfront
  intro hpattern
  obtain ⟨q, t, hq, ht⟩ := isPattern_iff.1 hpattern
  have hread := hp.beforeClose hcomment back.toList ((front ++ ")" ++ back).toList.length + 1)
    (by simp only [String.toList_append, List.length_append]; omega)
  have hlist : (front ++ ")" ++ back).toList = front.toList ++ ')' :: back.toList := by simp
  rw [hlist] at hq hread
  obtain ⟨-, rfl⟩ := hread.unique hq
  cases ht

theorem EndsInComment.not_isPattern (h : EndsInComment text) : ¬ IsPattern (wholePattern text) := by
  intro hwhole
  obtain ⟨p, s, hread⟩ := isPattern_iff.1 hwhole
  obtain ⟨q, u, ds, hq, hu, -⟩ := readsAll_wholePattern_iff.1 hread
  obtain ⟨front, comment, p, t, htext, hopen, hfront, hflag⟩ := h
  have hend := hfront.append_comment hflag (z := comment ++ [')', '$'])
    (n := text.toList.length + 5) (by simp [hopen])
    (by simp only [htext, List.length_append, List.length_cons, List.length_nil]; omega)
  rw [htext, List.append_assoc, List.cons_append] at hq
  rw [htext] at hend
  obtain ⟨-, rfl⟩ := hend.unique hq
  rw [hfront.2] at hu
  cases hu

/-- Set between anchors and parentheses, a text is a pattern if it is one by itself and does not end
in a comment, or if it closes the parenthesis in front of it. -/
theorem isPattern_wholePattern_iff : IsPattern (wholePattern text) ↔
    (IsPattern text ∧ ¬ EndsInComment text) ∨ ClosesEarly text := by
  constructor
  · intro hwhole
    obtain ⟨p, s, hread⟩ := isPattern_iff.1 hwhole
    obtain ⟨q, u, ds, hq, hu, -⟩ := readsAll_wholePattern_iff.1 hread
    obtain ⟨front, hfront, hclose, hall⟩ := exists_readsBeforeClose hq hu
    obtain rfl | ⟨back, htext⟩ := eq_or_exists_of_append_close hfront
    · exact .inl ⟨isPattern_iff.2 ⟨_, _, hall⟩, not_endsInComment_of_beforeClose hclose⟩
    · rw [← String.toList_ofList (l := front)] at hclose hall
      refine .inr ⟨String.ofList front, String.ofList back, ?_, isPattern_iff.2 ⟨_, _, hall⟩,
        not_endsInComment_of_beforeClose hclose, hwhole⟩
      rw [← String.toList_inj, htext]
      simp
  · rintro (⟨⟨named, h⟩, hcomment⟩ | hearly)
    · exact ⟨_, read_wholePattern h hcomment⟩
    · exact hearly.isPattern

end RowFormula.Pattern
