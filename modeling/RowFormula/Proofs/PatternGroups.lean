/-
# Where groups end

A group ends at a closing parenthesis or with the text.  Nothing in front of its end depends on
which of them it is, or on what stands behind: pieces end by themselves, or where something comes
that is neither a mark of repetition nor the name of a boundary.  Behind the last piece there may be
blanks and comments, which end with the group.
-/

import RowFormula.Proofs.PatternClasses

namespace RowFormula.Pattern

namespace Reads

variable {α β : Type} {m : Reads α} {f : α → Reads β} {a : α} {b : β} {s s' t : ReaderState}
  {cs c y z : List Char} {fault : PatternFault}

/-! ### Pieces -/

/-- A group ends here. -/
def Ends (cs : List Char) : Prop :=
  cs = [] ∨ cs.head? = some ')'

theorem Ends.head?_ne {c : Char} (h : Ends (skipped s z)) (hblank : Text.isBlank c = false)
    (hcomment : c ≠ '#') (hclose : c ≠ ')') : z.head? ≠ some c := by
  intro hz
  obtain ⟨cs, rfl⟩ := List.head?_eq_some_iff.1 hz
  rw [skipped_cons hblank hcomment] at h
  obtain h | h := h
  · cases h
  · exact hclose (Option.some.inj h)

theorem contained_dot : Contained dot := by
  refine Contained.get_bind (fun s => ?_) fun _ _ => rfl
  dsimp only
  split
  · exact contained_throw_bind
  · split
    · exact contained_pure
    · split
      · exact contained_pure
      · exact contained_pure

theorem contained_ofAtom (a : Atom) : Contained (ofAtom a) := by
  cases a with
  | char c => exact (contained_charSet c).map
  | set set => exact contained_pure
  | assertion a => exact contained_pure

theorem returns_lastPiece {pieces pieces' : List Piece} {p : Pattern} :
    Returns (lastPiece pieces) s (p, pieces') s' ↔ pieces = .pattern p :: pieces' ∧ s = s' := by
  unfold lastPiece
  split
  · simp [returns_pure, and_assoc]
  · rename_i hpieces
    constructor
    · exact fun h => absurd h not_returns_throw
    · rintro ⟨rfl, -⟩
      exact absurd rfl (hpieces p pieces')

/-- What a piece takes; behind a counted repetition, blanks and comments are skipped as well.  What
stands behind the piece may be replaced if it starts alike, or if the group ends there. -/
def FramesPiece (m : Reads α) (s : ReaderState) (a : α) (t : ReaderState) : Prop :=
  ∃ cs ds, cs ≠ [] ∧ s.rest = cs ++ (ds ++ t.rest) ∧
    skipped t (ds ++ t.rest) = skipped t t.rest ∧
    (∀ z, z.head? = t.rest.head? →
      Returns boundaryEscape (t.withRest z) (plainBoundary t) (t.withRest z) →
      Returns m (s.withRest (cs ++ (ds ++ z))) a (t.withRest z)) ∧
    ∀ z, Ends (skipped t t.rest) → Ends (skipped t z) →
      ∃ w, skipped t w = skipped t z ∧ Returns m (s.withRest (cs ++ z)) a (t.withRest w)

theorem Frames.piece (h : Frames m s a t) : FramesPiece m s a t := by
  obtain ⟨cs, hcs, hrest, hz⟩ := h
  exact ⟨cs, [], hcs, hrest, rfl, fun z _ _ => hz z, fun z _ _ => ⟨z, rfl, hz z⟩⟩

theorem returns_repetition {p q : Pattern} {least : Nat} {most : Option Nat} :
    Returns (repetition p least most) s q s' ↔
      (∃ cs, s.rest = '?' :: cs ∧ .repeated p least most (true == s.flags.swapGreed) = q ∧
        s.withRest cs = s') ∨
      (s.rest.head? ≠ some '?' ∧ .repeated p least most (false == s.flags.swapGreed) = q ∧
        s = s') := by
  simp only [repetition, returns_takeIf_bind, returns_get_bind, returns_pure, singleton_prefix_iff,
    List.singleton_append, ReaderState.withRest_flags]

theorem returns_lastPiece_bind {pieces : List Piece} {f : Pattern × List Piece → Reads β} :
    Returns (lastPiece pieces >>= f) s b s' ↔
      ∃ p before, pieces = .pattern p :: before ∧ Returns (f (p, before)) s b s' := by
  rw [returns_bind]
  constructor
  · rintro ⟨⟨p, before⟩, _, hlast, h⟩
    obtain ⟨rfl, rfl⟩ := returns_lastPiece.1 hlast
    exact ⟨p, before, rfl, h⟩
  · rintro ⟨p, before, rfl, h⟩
    exact ⟨(p, before), s, returns_lastPiece.2 ⟨rfl, rfl⟩, h⟩

theorem returns_mark {pieces pieces' : List Piece} {least : Nat} {most : Option Nat} :
    Returns (mark pieces least most) s pieces' s' ↔
      ∃ p before, pieces = .pattern p :: before ∧
        ∃ q, Returns (repetition p least most) (s.withRest (s.rest.drop 1)) q s' ∧
          .pattern q :: before = pieces' := by
  rw [mark, returns_lastPiece_bind]
  refine exists_congr fun p => exists_congr fun before => and_congr_right fun _ => ?_
  exact returns_drop_bind.trans returns_bind_pure

theorem framesPiece_mark {pieces pieces' : List Piece} {least : Nat} {most : Option Nat}
    (hrest : s.rest ≠ []) (h : Returns (mark pieces least most) s pieces' t) :
    FramesPiece (mark pieces least most) s pieces' t := by
  obtain ⟨p, before, rfl, q, hrepeat, rfl⟩ := returns_mark.1 h
  obtain ⟨c, cs, hcs⟩ := List.exists_cons_of_ne_nil hrest
  rw [hcs] at hrepeat
  obtain ⟨ds, hds, rfl, rfl⟩ | ⟨hhead, rfl, rfl⟩ := returns_repetition.1 hrepeat
  · obtain rfl : cs = '?' :: ds := hds
    refine Frames.piece ⟨[c, '?'], nofun, hcs, fun z => returns_mark.2 ?_⟩
    exact ⟨p, before, rfl, _, returns_repetition.2 (.inl ⟨z, rfl, rfl, rfl⟩), rfl⟩
  · have hmark (z : List Char) (hz : z.head? ≠ some '?') :
        Returns (mark (.pattern p :: before) least most) (s.withRest (c :: z))
          (.pattern (.repeated p least most (false == s.flags.swapGreed)) :: before)
          (s.withRest z) :=
      returns_mark.2 ⟨p, before, rfl, _, returns_repetition.2 (.inr ⟨hz, rfl, rfl⟩), rfl⟩
    refine ⟨[c], [], nofun, hcs, rfl, fun z hz _ => hmark z (hz ▸ hhead), fun z _ hz => ?_⟩
    exact ⟨z, rfl, hmark z (hz.head?_ne (by decide) (by decide) (by decide))⟩

theorem returns_countedMark {pieces pieces' : List Piece} :
    Returns (countedMark pieces) s pieces' s' ↔
      ∃ p before, pieces = .pattern p :: before ∧
        ∃ least most u, Returns limits (s.withRest (s.rest.drop 1)) (least, most) u ∧
          ∃ q, Returns (repetition p least most) (u.withRest (skipped u u.rest)) q s' ∧
            .pattern q :: before = pieces' := by
  rw [countedMark, returns_lastPiece_bind]
  refine exists_congr fun p => exists_congr fun before => and_congr_right fun _ => ?_
  rw [returns_drop_bind, returns_bind, Prod.exists]
  refine exists_congr fun least => exists_congr fun most => exists_congr fun u =>
    and_congr_right fun _ => ?_
  exact returns_skip_bind.trans returns_bind_pure

theorem framesPiece_countedMark {pieces pieces' : List Piece}
    (hrest : s.rest ≠ []) (h : Returns (countedMark pieces) s pieces' t) :
    FramesPiece (countedMark pieces) s pieces' t := by
  obtain ⟨p, before, rfl, least, most, u, hlimits, q, hrepeat, rfl⟩ := returns_countedMark.1 h
  obtain ⟨c, cs, hcs⟩ := List.exists_cons_of_ne_nil hrest
  obtain ⟨ds, -, hds, hlimits⟩ := consumes_limits hlimits
  obtain ⟨es, hes, hskip⟩ := exists_skipped u u.rest
  obtain rfl : cs = ds ++ u.rest := by simpa [hcs] using hds
  obtain ⟨fs, hfs, rfl, rfl⟩ | ⟨hhead, rfl, rfl⟩ := returns_repetition.1 hrepeat
  · replace hfs : skipped u u.rest = '?' :: fs := hfs
    rw [hfs] at hes hskip
    refine Frames.piece ⟨c :: (ds ++ (es ++ ['?'])), nofun, ?_, fun z => returns_countedMark.2 ?_⟩
    · simp [hcs, hes]
    · refine ⟨p, before, rfl, least, most, u.withRest (es ++ '?' :: z), ?_, _,
        returns_repetition.2 (.inl ⟨z, hskip _ rfl, rfl, rfl⟩), rfl⟩
      simpa using hlimits (es ++ '?' :: z)
  · have hmark (z : List Char) (hz : (skipped u z).head? ≠ some '?') :
        Returns (countedMark (.pattern p :: before)) (s.withRest (c :: (ds ++ z)))
          (.pattern (.repeated p least most (false == u.flags.swapGreed)) :: before)
          (u.withRest (skipped u z)) :=
      returns_countedMark.2 ⟨p, before, rfl, least, most, u.withRest z, hlimits z, _,
        returns_repetition.2 (.inr ⟨hz, rfl, rfl⟩), rfl⟩
    refine ⟨c :: ds, es, nofun, ?_, ?_, fun z hz _ => ?_, fun z _ hz => ⟨skipped u z, ?_, ?_⟩⟩
    · simp [hcs, ← hes]
    · simp [← hes]
    · have hz' := hskip z hz
      have hread := hmark (es ++ z) (by rw [hz', hz]; exact hhead)
      rw [hz'] at hread
      simpa using hread
    · simp
    · refine hmark z (Ends.head?_ne (s := u) ?_ (by decide) (by decide) (by decide))
      simpa using hz

theorem returns_escapePiece {pieces pieces' : List Piece} :
    Returns (piece '\\' pieces) s pieces' s' ↔
      ∃ a u, Returns escape (s.withRest (s.rest.drop 1)) a u ∧
        ∃ p, Returns (ofAtom a) u p s' ∧ .pattern p :: pieces = pieces' := by
  refine returns_drop_bind.trans (returns_bind.trans ?_)
  exact exists_congr fun a => exists_congr fun u => and_congr_right fun _ => returns_bind_pure

theorem framesPiece_escape {pieces pieces' : List Piece} {c : Char} (hrest : s.rest = c :: cs)
    (h : Returns (piece '\\' pieces) s pieces' t) :
    FramesPiece (piece '\\' pieces) s pieces' t := by
  obtain ⟨a, u, hescape, p, hatom, rfl⟩ := returns_escapePiece.1 h
  rw [hrest] at hescape
  obtain ⟨ds, hds, rfl, hz⟩ | ⟨rfl, rfl, hu⟩ := escape_frames hescape
  · obtain ⟨es, hes, hatom⟩ := contained_ofAtom a hatom
    refine Frames.piece ⟨c :: (ds ++ es), nofun, by simp [hrest, hes], fun z => ?_⟩
    refine returns_escapePiece.2 ⟨a, u.withRest (es ++ z), ?_, p, hatom z, rfl⟩
    simpa using hz (es ++ z)
  · obtain ⟨rfl, rfl⟩ := returns_pure.1 hatom
    have hread (z : List Char)
        (hz : Returns boundaryEscape (u.withRest z) (plainBoundary u) (u.withRest z)) :
        Returns (piece '\\' pieces) (s.withRest (c :: 'b' :: z))
          (.pattern (.assertion (plainBoundary s)) :: pieces) (u.withRest z) := by
      rw [hu] at hz ⊢
      refine returns_escapePiece.2 ⟨.assertion (plainBoundary s), s.withRest z, ?_, _,
        returns_pure.2 ⟨rfl, rfl⟩, rfl⟩
      exact returns_bind.2 ⟨'b', _, returns_demand.2 ⟨z, rfl, rfl⟩, returns_bind.2
        ⟨(), s.withRest z, returns_modify.2 rfl, returns_escapeOf_boundary.2 ⟨_, hz, rfl⟩⟩⟩
    refine ⟨[c, 'b'], [], nofun, hrest, rfl, fun z _ hz => hread z hz, fun z _ hz => ?_⟩
    refine ⟨z, rfl, hread z (boundaryEscape_plain ?_)⟩
    exact hz.head?_ne (by decide) (by decide) (by decide)

theorem framesPiece_piece {c : Char} {pieces pieces' : List Piece} (hrest : s.rest = c :: cs)
    (h : Returns (piece c pieces) s pieces' t) : FramesPiece (piece c pieces) s pieces' t := by
  have hne : s.rest ≠ [] := by rw [hrest]; nofun
  by_cases hescape : c = '\\'
  · subst hescape
    exact framesPiece_escape hrest h
  unfold piece at h ⊢
  split at h
  · exact framesPiece_mark hne h
  · exact framesPiece_mark hne h
  · exact framesPiece_mark hne h
  · exact framesPiece_countedMark hne h
  · exact Frames.piece (takes_drop.bind
      (fun _ => consumes_bracketClass.contained.bind fun _ => contained_pure) hne h)
  · exact Frames.piece (takes_drop.bind (fun _ => contained_dot.bind fun _ => contained_pure) hne h)
  · refine Frames.piece (takes_drop.bind (fun _ => ?_) hne h)
    refine Contained.get_bind (fun s => ?_) fun _ _ => rfl
    exact contained_pure
  · refine Frames.piece (takes_drop.bind (fun _ => ?_) hne h)
    refine Contained.get_bind (fun s => ?_) fun _ _ => rfl
    exact contained_pure
  · exact absurd rfl hescape
  · exact Frames.piece
      (takes_drop.bind (fun _ => (contained_ofAtom _).bind fun _ => contained_pure) hne h)

/-! ### Counts behind a word boundary -/

theorem no_name_of_count {c : Char} (h : Text.isBlank c = true ∨ c.isDigit = true) :
    (c.isAlpha || c == '-') = false := by
  have hletter : c.isAlpha = (decide (c.val ≥ 'A'.val ∧ c.val ≤ 'Z'.val) ||
      (decide (c.val ≥ 'a'.val) && decide (c.val ≤ 'z'.val))) := rfl
  have hhyphen : c = '-' → c.val.toNat = 45 := by
    rintro rfl
    rfl
  simp only [hletter, Text.isBlank, Char.isDigit, Char.toNat, Bool.or_eq_true, Bool.and_eq_true,
    decide_eq_true_eq, beq_iff_eq, UInt32.le_iff_toNat_le, ge_iff_le, Bool.or_eq_false_iff,
    Bool.and_eq_false_iff, decide_eq_false_iff_not, beq_eq_false_iff_ne, ne_eq,
    show '0'.val.toNat = 48 from rfl, show '9'.val.toNat = 57 from rfl,
    show 'A'.val.toNat = 65 from rfl, show 'Z'.val.toNat = 90 from rfl,
    show 'a'.val.toNat = 97 from rfl, show 'z'.val.toNat = 122 from rfl] at h ⊢
  refine ⟨?_, fun hc => ?_⟩
  · omega
  · rw [hhyphen hc] at h
    omega

theorem head?_of_count? {n : Nat} {c : Char} (h : Returns count? s (some n) s')
    (hrest : s.rest = c :: cs) : Text.isBlank c = true ∨ c.isDigit = true := by
  by_contra hc
  obtain ⟨hblank, hdigit⟩ := not_or.1 hc
  obtain ⟨_, t, hdrop, h⟩ := returns_bind.1 h
  obtain rfl := returns_modify.1 hdrop
  obtain ⟨taken, u, hdigits, h⟩ := returns_bind.1 h
  have hfront : Text.trimFront s.rest = c :: cs := by
    rw [hrest, Text.trimFront, List.dropWhile_cons_of_neg hblank]
  simp only [hfront] at hdigits
  replace hdigits := returns_get_bind.1 hdigits
  simp only [List.takeWhile_cons_of_neg hdigit] at hdigits
  obtain ⟨_, v, -, hpure⟩ := returns_bind.1 hdigits
  obtain ⟨rfl, -⟩ := returns_pure.1 hpure
  obtain ⟨_, v, -, h⟩ := returns_bind.1 h
  cases (returns_pure.1 h).1

theorem exists_count_of_bounds {r : Nat × Option Nat} (h : Returns bounds s r s') :
    ∃ n t, Returns count? s (some n) t := by
  obtain ⟨first, t, hfirst, h⟩ := returns_bind.1 h
  cases first with
  | some n => exact ⟨n, t, hfirst⟩
  | none =>
      obtain ⟨c, cs, -, h⟩ := returns_demand_bind.1 h
      split at h
      · obtain ⟨_, u, -, h⟩ := returns_bind.1 h
        obtain ⟨d, ds, -, h⟩ := returns_demand_bind.1 h
        split at h
        · exact absurd (returns_bind.1 h) (by simp [required])
        · exact absurd (returns_bind.1 h) (by simp [required])
      · exact absurd (returns_bind.1 h) (by simp [required])

/-- Braces with a count are not the name of a boundary. -/
theorem boundaryEscape_of_limits {r : Nat × Option Nat} (h : Returns limits (s.withRest cs) r s') :
    Returns boundaryEscape (s.withRest ('\x7b' :: cs)) (plainBoundary s)
      (s.withRest ('\x7b' :: cs)) := by
  obtain ⟨c, ds, hskip, h⟩ := returns_demand_bind.1 (returns_skip_bind.1 h)
  obtain ⟨r', t, hbounds, -⟩ := returns_bind.1 h
  obtain ⟨n, u, hcount⟩ := exists_count_of_bounds hbounds
  replace hskip : skipped s cs = c :: ds := hskip
  have hname := no_name_of_count (head?_of_count? hcount hskip)
  refine returns_get_bind.2 ?_
  simp only [ReaderState.withRest_rest, skipped_withRest, hskip, hname]
  exact returns_pure.2 ⟨rfl, rfl⟩

/-! ### Alternatives -/

section Step

variable {n : Nat} {pieces : List Piece} {earlier : List Pattern} {p : Pattern}

theorem returns_alternation : Returns (alternation (n + 1) pieces earlier) s p s' ↔
    Returns (match (skipped s s.rest).head? with
      | none | some ')' => pure (alternatives (sequence pieces) earlier)
      | some '|' => do
        drop 1
        alternation n [] (sequence pieces :: earlier)
      | some '(' => do alternation n (← group (alternation n [] []) pieces) earlier
      | some c => do alternation n (← piece c pieces) earlier)
      (s.withRest (skipped s s.rest)) p s' := by
  rw [alternation, returns_skip_bind, returns_bind]
  simp only [returns_peek]
  constructor
  · rintro ⟨_, _, ⟨rfl, rfl⟩, h⟩
    exact h
  · intro h
    exact ⟨_, _, ⟨rfl, rfl⟩, h⟩

theorem returns_alternation_end (h : Ends (skipped s s.rest)) :
    Returns (alternation (n + 1) pieces earlier) s p s' ↔
      alternatives (sequence pieces) earlier = p ∧ s.withRest (skipped s s.rest) = s' := by
  rw [returns_alternation]
  obtain h | h := h
  · simp only [h, List.head?_nil]
    exact returns_pure
  · simp only [h]
    exact returns_pure

theorem returns_alternation_bar (h : skipped s s.rest = '|' :: cs) :
    Returns (alternation (n + 1) pieces earlier) s p s' ↔
      Returns (alternation n [] (sequence pieces :: earlier)) (s.withRest cs) p s' := by
  rw [returns_alternation, h]
  exact returns_drop_bind

theorem returns_alternation_group (h : skipped s s.rest = '(' :: cs) :
    Returns (alternation (n + 1) pieces earlier) s p s' ↔
      ∃ pieces' t, Returns (group (alternation n [] []) pieces) (s.withRest ('(' :: cs)) pieces' t ∧
        Returns (alternation n pieces' earlier) t p s' := by
  rw [returns_alternation, h]
  exact returns_bind

theorem returns_alternation_piece {c : Char} (h : skipped s s.rest = c :: cs)
    (hc : c ≠ ')' ∧ c ≠ '|' ∧ c ≠ '(') :
    Returns (alternation (n + 1) pieces earlier) s p s' ↔
      ∃ pieces' t, Returns (piece c pieces) (s.withRest (c :: cs)) pieces' t ∧
        Returns (alternation n pieces' earlier) t p s' := by
  rw [returns_alternation, h, List.head?_cons]
  split
  · rename_i hnone
    cases hnone
  · rename_i hclose
    exact absurd (Option.some.inj hclose) hc.1
  · rename_i hbar
    exact absurd (Option.some.inj hbar) hc.2.1
  · rename_i hopen
    exact absurd (Option.some.inj hopen) hc.2.2
  · rename_i d hd
    cases hd
    exact returns_bind

theorem alternation_skip : Returns (alternation (n + 1) pieces earlier) s p s' ↔
    Returns (alternation (n + 1) pieces earlier) (s.withRest (skipped s s.rest)) p s' := by
  rw [returns_alternation, returns_alternation]
  simp

/-- Behind a word boundary whose group can be read on, there is no name in braces. -/
theorem boundaryEscape_of_alternation (h : Returns (alternation n pieces earlier) s p s') :
    Returns boundaryEscape s (plainBoundary s) s := by
  obtain _ | n := n
  · exact absurd h not_returns_throw
  by_cases hbrace : s.rest.head? = some '\x7b'
  · obtain ⟨cs, hcs⟩ := List.head?_eq_some_iff.1 hbrace
    have hskip : skipped s s.rest = '\x7b' :: cs := by
      rw [hcs, skipped_cons (by decide) (by decide)]
    obtain ⟨pieces', t, hpiece, -⟩ := (returns_alternation_piece hskip (by decide)).1 h
    obtain ⟨_, _, -, _, _, u, hlimits, -⟩ := returns_countedMark.1 hpiece
    have hplain : Returns boundaryEscape (s.withRest ('\x7b' :: cs)) (plainBoundary s)
        (s.withRest ('\x7b' :: cs)) := boundaryEscape_of_limits hlimits
    rwa [← hcs] at hplain
  · exact boundaryEscape_plain hbrace

end Step

/-- Reading up to the end of a group takes some characters; behind them, blanks and comments are
skipped where the flags at the end say so.  The group may end in any way, and a step for each
character is enough. -/
def FramesGroup (reader : Nat → Reads Pattern) (s : ReaderState) (p : Pattern)
    (s' : ReaderState) : Prop :=
  ∃ cs y, s.rest = cs ++ y ∧ skipped s' y = s'.rest ∧ Ends s'.rest ∧
    ∀ z n, Ends (skipped s' z) → cs.length < n →
      Returns (reader n) (s.withRest (cs ++ z)) p (s'.withRest (skipped s' z))

theorem returns_enclosed {inner : Reads Pattern} {outer : Flags} {g : Pattern → β} :
    Returns (do
        let p ← inner
        closeGroup outer
        pure (g p)) s b s' ↔
      ∃ p u, Returns inner s p u ∧ Returns (closeGroup outer) u () s' ∧ g p = b := by
  rw [returns_bind]
  refine exists_congr fun p => exists_congr fun u => and_congr_right fun _ => ?_
  rw [returns_bind_pure]
  exact ⟨fun ⟨_, h⟩ => h, fun h => ⟨(), h⟩⟩

theorem returns_group {inner : Reads Pattern} {pieces pieces' : List Piece} :
    Returns (group inner pieces) s pieces' s' ↔
      ∃ o u, Returns opening (s.withRest (s.rest.drop 1)) o u ∧
        match o with
        | .settings flags => { u with flags } = s' ∧ .settings :: pieces = pieces'
        | .recorded number => ∃ p v, Returns inner u p v ∧
            Returns (closeGroup s.flags) v () s' ∧ .pattern (.capture number p) :: pieces = pieces'
        | .plain flags => ∃ p v, Returns inner { u with flags } p v ∧
            Returns (closeGroup s.flags) v () s' ∧ .pattern p :: pieces = pieces' := by
  rw [group, returns_drop_bind, returns_get_bind, returns_bind]
  refine exists_congr fun o => exists_congr fun u => and_congr_right fun _ => ?_
  cases o with
  | settings flags =>
      rw [returns_modify_bind, returns_pure]
      exact and_comm
  | recorded number => exact returns_enclosed
  | plain flags => exact returns_modify_bind.trans returns_enclosed

/-- The end of a group is settled by its parenthesis. -/
theorem FramesGroup.closed {reader : Nat → Reads Pattern} {outer : Flags} {p : Pattern}
    {u : ReaderState} (h : FramesGroup reader s p u) (hclose : Returns (closeGroup outer) u () t) :
    ∃ cs, cs ≠ [] ∧ s.rest = cs ++ t.rest ∧ ∀ z n, cs.length ≤ n → ∃ v,
      Returns (reader n) (s.withRest (cs ++ z)) p v ∧
        Returns (closeGroup outer) v () (t.withRest z) := by
  obtain ⟨cs, y, hrest, hy, -, hz⟩ := h
  obtain ⟨hu, ht⟩ := returns_closeGroup.1 hclose
  obtain ⟨ds, hds, hskip⟩ := exists_skipped u y
  rw [hy, hu] at hds hskip
  refine ⟨cs ++ (ds ++ [')']), by simp, by simp [hrest, hds], fun z n hn => ?_⟩
  have hend : skipped u (ds ++ ')' :: z) = ')' :: z := hskip _ rfl
  refine ⟨u.withRest (')' :: z), ?_, returns_closeGroup.2 ⟨rfl, ?_⟩⟩
  · have hread := hz (ds ++ ')' :: z) n (.inr (by rw [hend]; rfl))
      (by simp only [List.length_append, List.length_cons] at hn; omega)
    rw [hend] at hread
    simpa using hread
  · rw [ht]
    rfl

theorem group_frames (reader : Nat → Reads Pattern) {n : Nat} {pieces pieces' : List Piece}
    (hreader : ∀ {s p s'}, Returns (reader n) s p s' → FramesGroup reader s p s')
    (hrest : s.rest = '(' :: cs) (h : Returns (group (reader n) pieces) s pieces' t) :
    ∃ ds, ds ≠ [] ∧ s.rest = ds ++ t.rest ∧ ∀ z n', ds.length ≤ n' →
      Returns (group (reader n') pieces) (s.withRest (ds ++ z)) pieces' (t.withRest z) := by
  obtain ⟨o, u, hopen, h⟩ := returns_group.1 h
  obtain ⟨es, hes, hz⟩ := looksAhead_opening hopen
  obtain rfl : cs = es ++ u.rest := by simpa [hrest] using hes
  cases o with
  | settings flags =>
      obtain ⟨rfl, rfl⟩ := h
      obtain ⟨fs, -, hfs, hopen⟩ | ⟨number, hnumber⟩ := opening_frames hopen
      · refine ⟨'(' :: fs, nofun, ?_, fun z n' _ => returns_group.2
          ⟨.settings flags, u.withRest z, ?_, rfl, rfl⟩⟩
        · simpa [hrest] using hfs
        · exact hopen z
      · cases hnumber
  | recorded number =>
      obtain ⟨p, v, hp, hclose, rfl⟩ := h
      obtain ⟨fs, hne, hfs, hread⟩ := (hreader hp).closed hclose
      refine ⟨'(' :: es ++ fs, by simp, by simp [hrest, hfs], fun z n' hn' => ?_⟩
      obtain ⟨v', hp', hclose'⟩ := hread z n'
        (by simp only [List.length_append, List.length_cons] at hn'; omega)
      refine returns_group.2 ⟨.recorded number, u.withRest (fs ++ z), ?_, p, v', hp', hclose', rfl⟩
      simpa using hz (fs ++ z) (hfs ▸ head?_append_of_ne_nil hne)
  | plain flags =>
      obtain ⟨p, v, hp, hclose, rfl⟩ := h
      obtain ⟨fs, hne, hfs, hread⟩ := (hreader hp).closed hclose
      replace hfs : u.rest = fs ++ t.rest := hfs
      refine ⟨'(' :: es ++ fs, by simp, by simp [hrest, hfs], fun z n' hn' => ?_⟩
      obtain ⟨v', hp', hclose'⟩ := hread z n'
        (by simp only [List.length_append, List.length_cons] at hn'; omega)
      refine returns_group.2 ⟨.plain flags, u.withRest (fs ++ z), ?_, p, v', hp', hclose', rfl⟩
      simpa using hz (fs ++ z) (hfs ▸ head?_append_of_ne_nil hne)

theorem flags_of_alternation {n : Nat} {pieces : List Piece} {earlier : List Pattern} {p : Pattern}
    (h : Returns (alternation (n + 1) pieces earlier) (s.withRest []) p s') :
    s'.flags = s.flags := by
  obtain ⟨-, rfl⟩ := (returns_alternation_end (.inl skipped_nil)).1 h
  rfl

/-- Blanks and comments may stand in front of what is read. -/
theorem alternation_of_body {pieces : List Piece} {earlier : List Pattern} {p : Pattern}
    (cs : List Char) (hskip : skipped s s.rest = cs ++ y) (hne : cs ≠ [])
    (hy : skipped s' y = s'.rest) (hends : Ends s'.rest)
    (hcs : ∀ z n, Ends (skipped s' z) → cs.length ≤ n →
      Returns (alternation (n + 1) pieces earlier) (s.withRest (cs ++ z)) p
        (s'.withRest (skipped s' z))) :
    FramesGroup (fun n => alternation n pieces earlier) s p s' := by
  obtain ⟨ds, hds, hlead⟩ := exists_skipped s s.rest
  refine ⟨ds ++ cs, y, by rw [hds, hskip, List.append_assoc], hy, hends, fun z n hz hn => ?_⟩
  obtain _ | n := n
  · cases hn
  have hfront : skipped s (ds ++ (cs ++ z)) = cs ++ z :=
    hlead _ (hskip ▸ head?_append_of_ne_nil hne)
  rw [alternation_skip, ReaderState.withRest_rest, skipped_withRest, List.append_assoc, hfront]
  exact hcs z n hz (by rw [List.length_append] at hn; omega)

section Step

variable {n : Nat} {pieces pieces' : List Piece} {earlier : List Pattern} {p : Pattern}

theorem FramesGroup.of_bar (hskip : skipped s s.rest = '|' :: cs)
    (h : FramesGroup (fun n => alternation n [] (sequence pieces :: earlier)) (s.withRest cs)
      p s') :
    FramesGroup (fun n => alternation n pieces earlier) s p s' := by
  obtain ⟨ds, y, hds, hy, hend, hread⟩ := h
  obtain rfl : cs = ds ++ y := hds
  refine alternation_of_body ('|' :: ds) hskip nofun hy hend fun z m hz hm => ?_
  have hbar : skipped s ('|' :: (ds ++ z)) = '|' :: (ds ++ z) :=
    skipped_cons (by decide) (by decide)
  exact (returns_alternation_bar hbar).2 (hread z m hz hm)

theorem FramesGroup.of_group (hskip : skipped s s.rest = '(' :: cs)
    (hinner : ∀ {s p s'}, Returns (alternation n [] []) s p s' →
      FramesGroup (fun n => alternation n [] []) s p s')
    (hgroup : Returns (group (alternation n [] []) pieces) (s.withRest ('(' :: cs)) pieces' t)
    (h : FramesGroup (fun n => alternation n pieces' earlier) t p s') :
    FramesGroup (fun n => alternation n pieces earlier) s p s' := by
  obtain ⟨_ | ⟨d, ds⟩, hne, hds, hgroup⟩ :=
    group_frames (fun n => alternation n [] []) hinner rfl hgroup
  · exact absurd rfl hne
  obtain ⟨rfl, rfl⟩ := List.cons.inj hds
  obtain ⟨es, y, hes, hy, hend, hread⟩ := h
  refine alternation_of_body ('(' :: ds ++ es) (by rw [hskip, hes]; simp) nofun hy hend
    fun z m hz hm => ?_
  have hopen : skipped s ('(' :: (ds ++ (es ++ z))) = '(' :: (ds ++ (es ++ z)) :=
    skipped_cons (by decide) (by decide)
  simp only [List.length_append, List.length_cons] at hm
  have hall : Returns (alternation (m + 1) pieces earlier) (s.withRest ('(' :: (ds ++ (es ++ z)))) p
      (s'.withRest (skipped s' z)) :=
    (returns_alternation_group hopen).2
      ⟨pieces', t.withRest (es ++ z), hgroup _ m (by rw [List.length_cons]; omega),
        hread z m hz (by omega)⟩
  simpa using hall

theorem FramesGroup.of_piece {c : Char} (hskip : skipped s s.rest = c :: cs)
    (hc : c ≠ ')' ∧ c ≠ '|' ∧ c ≠ '(')
    (hpiece : Returns (piece c pieces) (s.withRest (c :: cs)) pieces' t)
    (h : FramesGroup (fun n => alternation n pieces' earlier) t p s') :
    FramesGroup (fun n => alternation n pieces earlier) s p s' := by
  have hstay : ∀ ds, skipped s (c :: ds) = c :: ds := skipped_cons_congr (hskip ▸ skipped_skipped)
  obtain ⟨_ | ⟨d, ds⟩, es, hne, hds, hes, halike, hanyEnd⟩ := framesPiece_piece rfl hpiece
  · exact absurd rfl hne
  obtain ⟨rfl, rfl⟩ := List.cons.inj hds
  obtain ⟨fs, y, hfs, hy, hend, hread⟩ := h
  by_cases hnil : fs = []
  · -- the piece is the last one, and the group may end in another way behind it
    subst hnil
    obtain rfl : t.rest = y := hfs
    have hflags : (s'.withRest (skipped s' [])).flags = t.flags :=
      flags_of_alternation (n := 0) (hread [] 1 (.inl skipped_nil) Nat.one_pos)
    have hsame (w : List Char) : skipped s' w = skipped t w := by
      unfold skipped
      rw [← hflags]
      rfl
    refine alternation_of_body (c :: ds) hskip nofun ?_ hend fun z m hz hm => ?_
    · rw [hsame, hes, ← hsame, hy]
    · obtain ⟨w, hw, hpiece⟩ := hanyEnd z (by rwa [← hsame, hy]) (by rwa [← hsame])
      rw [← hsame, ← hsame] at hw
      rw [← hw] at hz ⊢
      exact (returns_alternation_piece (hstay (ds ++ z)) hc).2
        ⟨pieces', t.withRest w, hpiece, hread w m hz (Nat.lt_of_lt_of_le (Nat.succ_pos _) hm)⟩
  · refine alternation_of_body (c :: ds ++ (es ++ fs)) (by rw [hskip, hfs]; simp) nofun hy hend
      fun z m hz hm => ?_
    have hplain := boundaryEscape_of_alternation (hread z _ hz (Nat.lt_succ_self _))
    have hpiece := halike (fs ++ z) (hfs ▸ head?_append_of_ne_nil hnil) hplain
    simp only [List.length_append, List.length_cons] at hm
    have hall : Returns (alternation (m + 1) pieces earlier)
        (s.withRest (c :: (ds ++ (es ++ (fs ++ z))))) p (s'.withRest (skipped s' z)) :=
      (returns_alternation_piece (hstay _) hc).2
        ⟨pieces', t.withRest (fs ++ z), hpiece, hread z m hz (by omega)⟩
    simpa using hall

/-- What is read up to the end of a group does not depend on how the group ends. -/
theorem alternation_frames (h : Returns (alternation n pieces earlier) s p s') :
    FramesGroup (fun n => alternation n pieces earlier) s p s' := by
  induction n generalizing s s' p pieces earlier with
  | zero => exact absurd h not_returns_throw
  | succ n ih =>
      by_cases hends : Ends (skipped s s.rest)
      · obtain ⟨rfl, rfl⟩ := (returns_alternation_end hends).1 h
        refine ⟨[], s.rest, rfl, rfl, hends, fun z m hz hm => ?_⟩
        obtain _ | m := m
        · cases hm
        exact (returns_alternation_end hz).2 ⟨rfl, rfl⟩
      obtain ⟨c, cs, hskip⟩ := List.exists_cons_of_ne_nil fun hnil => hends (.inl hnil)
      by_cases hbar : c = '|'
      · subst hbar
        exact .of_bar hskip (ih ((returns_alternation_bar hskip).1 h))
      by_cases hopen : c = '('
      · subst hopen
        obtain ⟨pieces', t, hgroup, h⟩ := (returns_alternation_group hskip).1 h
        exact .of_group hskip ih hgroup (ih h)
      · have hc : c ≠ ')' ∧ c ≠ '|' ∧ c ≠ '(' :=
          ⟨fun hc => hends (.inr (by rw [hskip, hc]; rfl)), hbar, hopen⟩
        obtain ⟨pieces', t, hpiece, h⟩ := (returns_alternation_piece hskip hc).1 h
        exact .of_piece hskip hc hpiece (ih h)

end Step

end Reads

end RowFormula.Pattern
