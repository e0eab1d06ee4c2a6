/-
# Bracketed classes

A class ends at its closing bracket, so it is the same whatever follows.  The reader looks further
ahead inside of a class than anywhere else: for the name of an ASCII class, for the two characters
of an operation, and for what stands behind a hyphen.  All that it looks at lies within the class,
since a class that ends has been read beyond it.
-/

import RowFormula.Proofs.PatternParts

namespace RowFormula.Pattern

namespace Reads

variable {α β : Type} {m : Reads α} {f : α → Reads β} {a : α} {b : β} {s s' t : ReaderState}
  {cs y z : List Char} {fault : PatternFault} {n : Nat}

/-! ### Sets -/

theorem contained_closeOperation (pending : Option (SetOp × CharSet)) (items : CharSet) :
    Contained (closeOperation pending items) := by
  unfold closeOperation
  split
  · exact contained_pure
  · exact (contained_folded _).bind fun _ => (contained_folded _).bind fun _ => contained_pure

theorem contained_closeClass (negated : Bool) (set : CharSet) :
    Contained (closeClass negated set) := by
  refine (contained_folded set).bind fun set => ?_
  refine Contained.get_bind (fun s => ?_) fun _ _ => rfl
  dsimp only
  split
  · exact contained_throw_bind
  · exact contained_pure

/-! ### The start of a class -/

theorem returns_leadingHyphens {set set' : CharSet} :
    Returns (leadingHyphens (n + 1) set) s set' s' ↔ ∃ c cs, s.rest = c :: cs ∧
      if c = '-' then
        Returns (leadingHyphens n (.union set (.single '-'))) (s.withRest (skipped s cs)) set' s'
      else set = set' ∧ s = s' := by
  rw [leadingHyphens, returns_demand_bind]
  refine exists_congr fun c => exists_congr fun cs => and_congr_right fun hrest => ?_
  simp only [beq_iff_eq]
  split
  · rw [returns_dropAndSkip_bind, hrest, List.drop_one, List.tail_cons]
  · exact returns_pure

/-- As many steps as the class has characters are enough for the hyphens in front. -/
theorem leadingHyphens_looksAhead {set set' : CharSet}
    (h : Returns (leadingHyphens n set) s set' s') (hlength : s.rest.length ≤ n)
    (hrest : s'.rest ≠ []) :
    ∃ cs, s.rest = cs ++ s'.rest ∧ ∀ z, z.head? = s'.rest.head? → ∀ n', cs.length ≤ n' →
      Returns (leadingHyphens n' set) (s.withRest (cs ++ z)) set' (s'.withRest z) := by
  induction n generalizing s set with
  | zero =>
      obtain ⟨rfl, rfl⟩ := returns_pure.1 h
      exact absurd (List.length_eq_zero_iff.1 (Nat.le_zero.1 hlength)) hrest
  | succ n ih =>
      obtain ⟨c, cs, hcs, h⟩ := returns_leadingHyphens.1 h
      split at h
      · rename_i hc
        obtain ⟨ds, hds, hskip⟩ := exists_skipped s cs
        have hle : (skipped s cs).length ≤ n := by
          have := congrArg List.length hds
          rw [hcs] at hlength
          simp only [List.length_append, List.length_cons] at this hlength
          omega
        obtain ⟨es, hes, hz⟩ := ih h hle
        replace hes : skipped s cs = es ++ s'.rest := hes
        refine ⟨c :: (ds ++ es), by rw [hcs, hds, hes]; simp, fun z hhead n' hn' => ?_⟩
        obtain _ | n' := n'
        · cases hn'
        refine returns_leadingHyphens.2 ⟨c, ds ++ (es ++ z), by simp, ?_⟩
        have hread := hz z hhead n'
          (by simp only [List.length_cons, List.length_append] at hn'; omega)
        have hskip' : skipped s (ds ++ (es ++ z)) = es ++ z :=
          hskip _ (hes ▸ head?_append_congr hhead)
        rw [if_pos hc]
        simpa [hskip'] using hread
      · rename_i hc
        obtain ⟨rfl, rfl⟩ := h
        refine ⟨[], rfl, fun z hz n' _ => ?_⟩
        cases n' with
        | zero => exact returns_pure.2 ⟨rfl, rfl⟩
        | succ n' =>
            obtain ⟨ds, rfl⟩ := List.head?_eq_some_iff.1 (hz.trans (congrArg List.head? hcs))
            exact returns_leadingHyphens.2 ⟨c, ds, rfl, by rw [if_neg hc]; exact ⟨rfl, rfl⟩⟩

theorem looksAhead_leadingHyphens_bind {f : CharSet → Char → Reads β}
    (hf : ∀ set c, LooksAhead (f set c)) : LooksAhead (do
      let set ← leadingHyphens (← get).rest.length .empty
      f set (← demand fault)) := by
  intro s b s' h
  obtain ⟨set, t, hlead, h⟩ := returns_bind.1 (returns_get_bind.1 h)
  obtain ⟨c, _, hdemand, -⟩ := returns_bind.1 h
  obtain ⟨ds, hds, -⟩ := returns_demand.1 hdemand
  obtain ⟨cs, hcs, hlead⟩ := leadingHyphens_looksAhead hlead (Nat.le_refl _) (by rw [hds]; nofun)
  obtain ⟨es, hes, hz⟩ := looksAhead_demand.bind (hf set) h
  refine ⟨cs ++ es, by rw [hcs, hes, List.append_assoc], fun z hhead => ?_⟩
  refine returns_get_bind.2 (returns_bind.2 ⟨set, t.withRest (es ++ z), ?_, hz z hhead⟩)
  rw [List.append_assoc]
  exact hlead _ (hes ▸ head?_append_congr hhead) _ (by simp)

theorem looksAhead_openClass : LooksAhead openClass := by
  refine looksAhead_skip.bind fun _ => looksAhead_demand.bind fun c => ?_
  have hmarks (negated : Bool) : LooksAhead (do
      let hyphens ← leadingHyphens (← get).rest.length .empty
      let d ← demand .unclosedClass
      if hyphens == .empty && d == ']' then
        dropAndSkip
        let _ ← demand .unclosedClass
        pure (negated, .single ']')
      else pure (negated, hyphens)) := by
    refine looksAhead_leadingHyphens_bind fun hyphens d => ?_
    split
    · exact looksAhead_dropAndSkip.bind fun _ => looksAhead_demand.bind fun _ =>
        contained_pure.looksAhead
    · exact contained_pure.looksAhead
  dsimp only
  split
  · exact looksAhead_dropAndSkip.bind fun _ => contained_pure.looksAhead.bind hmarks
  · exact contained_pure.looksAhead.bind hmarks

/-! ### What is looked at ahead -/

theorem not_mem_of_ofClassName? {name : String} (h : (CharSet.ofClassName? name).isSome) :
    ']' ∉ name.toList := by
  unfold CharSet.ofClassName? at h
  split at h
  all_goals first
    | decide
    | cases h

theorem classNameOf?_some {negated : Bool} {set : CharSet} {rest : List Char}
    (h : classNameOf? negated cs = some (set, rest)) :
    ∃ name, ']' ∉ name ∧ cs = name ++ ':' :: ']' :: rest ∧
      ∀ z, classNameOf? negated (name ++ ':' :: ']' :: z) = some (set, z) := by
  unfold classNameOf? at h
  dsimp only at h
  split at h
  · rename_i rest' set' hbehind hset
    obtain ⟨rfl, rfl⟩ := Prod.mk.inj (Option.some.inj h)
    have hmem := not_mem_of_ofClassName? (Option.isSome_iff_exists.2 ⟨_, hset⟩)
    rw [String.toList_ofList] at hmem
    refine ⟨cs.takeWhile (· != ':'), hmem, ?_, fun z => ?_⟩
    · rw [← hbehind, drop_length_takeWhile, List.takeWhile_append_dropWhile]
    · rw [drop_length_takeWhile] at hbehind
      have hname : (cs.takeWhile (· != ':') ++ ':' :: ']' :: z).takeWhile (· != ':') =
          cs.takeWhile (· != ':') := (span_append_of_head? (by rw [hbehind]; rfl)).1
      unfold classNameOf?
      simp only [hname, List.drop_left, hset]
  · cases h

/-- The bracket at the end of the name of a class is the first closing bracket in it. -/
theorem classNameAt?_some {set : CharSet} {rest : List Char}
    (h : classNameAt? cs = some (set, rest)) :
    ∃ front, ']' ∉ front ∧ cs = front ++ ']' :: rest ∧
      ∀ z, classNameAt? (front ++ ']' :: z) = some (set, z) := by
  unfold classNameAt? at h
  split at h
  · obtain ⟨name, hmem, rfl, hz⟩ := classNameOf?_some h
    refine ⟨'[' :: ':' :: '^' :: (name ++ [':']), by simp [hmem], by simp, fun z => ?_⟩
    simpa [classNameAt?] using hz z
  · rename_i named hcaret
    obtain ⟨name, hmem, rfl, hz⟩ := classNameOf?_some h
    refine ⟨'[' :: ':' :: (name ++ [':']), by simp [hmem], by simp, fun z => ?_⟩
    have hplain (w : List Char) : name ++ ':' :: ']' :: z ≠ '^' :: w := by
      rintro hw
      cases name with
      | nil => cases hw
      | cons c name =>
          exact hcaret _ (congrArg (· :: (name ++ ':' :: ']' :: rest)) (List.cons.inj hw).1)
    simpa [classNameAt?.eq_2 _ hplain] using hz z
  · cases h

/-- Whether a class has a name shows in front of the first closing bracket. -/
theorem classNameAt?_none (hmem : ']' ∈ cs) (h : classNameAt? (cs ++ y) = none) (z : List Char) :
    classNameAt? (cs ++ z) = none := by
  refine Option.eq_none_iff_forall_ne_some.2 ?_
  rintro ⟨set, rest⟩ hset
  obtain ⟨front, hfront, hsplit, hz⟩ := classNameAt?_some hset
  obtain ⟨ds, rfl, -⟩ | ⟨ds, rfl, hds⟩ := List.append_eq_append_iff.1 hsplit
  · exact hfront (List.mem_append_left _ hmem)
  · cases ds with
    | nil => exact hfront (by simpa using hmem)
    | cons d ds =>
        obtain ⟨rfl, -⟩ := List.cons.inj hds
        rw [List.append_assoc, List.cons_append, hz] at h
        cases h

theorem returns_namedClass? {o : Option CharSet} : Returns namedClass? s o s' ↔
    (classNameAt? s.rest = none ∧ none = o ∧ s = s') ∨
      ∃ set rest, classNameAt? s.rest = some (set, rest) ∧ some set = o ∧ s.withRest rest = s' := by
  rw [namedClass?, returns_get_bind]
  cases hname : classNameAt? s.rest with
  | none => simp
  | some found =>
      obtain ⟨set, rest⟩ := found
      simp [ReaderState.withRest, and_comm, and_assoc, eq_comm]

theorem setOpAt?_append (h : 2 ≤ cs.length) : setOpAt? (cs ++ y) = setOpAt? (cs ++ z) := by
  obtain _ | ⟨c, _ | ⟨d, cs⟩⟩ := cs
  · cases h
  · simp at h
  · simp only [List.cons_append]
    unfold setOpAt?
    split <;> simp_all

theorem classAtom_frames {a : Atom} (h : Returns classAtom s a s')
    (ha : ∀ b, a ≠ .assertion b) : Frames classAtom s a s' := by
  obtain ⟨c, _, hdemand, h⟩ := returns_bind.1 h
  obtain ⟨cs, hrest, rfl⟩ := returns_demand.1 hdemand
  obtain ⟨_, t, hdrop, h⟩ := returns_bind.1 h
  refine looksAhead_demand.frames_bind hdemand ?_
  split at h
  · rename_i hc
    rw [if_pos hc]
    obtain hframes | ⟨rfl, -⟩ := escape_frames h
    · exact (looksAhead_drop 1).frames_bind hdrop hframes
    · exact absurd rfl (ha _)
  · rename_i hc
    rw [if_neg hc]
    exact takes_drop.bind (fun _ => contained_pure) (by rw [hrest]; nofun)
      (returns_bind.2 ⟨(), t, hdrop, h⟩)

theorem returns_itemSet {a : Atom} {set : CharSet} (h : Returns (itemSet a) s set s') :
    (∀ b, a ≠ .assertion b) ∧ s = s' ∧
      ∀ z, Returns (itemSet a) (s.withRest z) set (s.withRest z) := by
  cases a with
  | char c =>
      refine ⟨nofun, ?_⟩
      have h := returns_get_bind.1 h
      dsimp only at h
      split at h
      · exact absurd (returns_bind.1 h) (by simp)
      · rename_i hunicode
        obtain ⟨rfl, rfl⟩ := returns_pure.1 h
        refine ⟨rfl, fun z => returns_get_bind.2 ?_⟩
        dsimp only
        rw [ReaderState.withRest_flags, if_neg hunicode]
        exact returns_pure.2 ⟨rfl, rfl⟩
  | set set =>
      obtain ⟨rfl, rfl⟩ := returns_pure.1 h
      exact ⟨nofun, rfl, fun z => returns_pure.2 ⟨rfl, rfl⟩⟩
  | assertion b => exact absurd h not_returns_throw

theorem rest_ne_nil_of_classAtom {a : Atom} (h : Returns classAtom s a s') : s.rest ≠ [] := by
  obtain ⟨c, cs, hrest, -⟩ := returns_demand_bind.1 h
  exact fun hnil => List.cons_ne_nil c cs (hrest.symm.trans hnil)

theorem rangeFrom_frames {first : Atom} {set : CharSet} (h : Returns (rangeFrom first) s set s') :
    (∀ b, first ≠ .assertion b) ∧ skipped s (s.rest.drop 1) ≠ [] ∧
      Frames (rangeFrom first) s set s' := by
  obtain ⟨_, t, hdrop, h⟩ := returns_bind.1 h
  obtain ⟨last, u, hlast, h⟩ := returns_bind.1 h
  have hbehind := rest_ne_nil_of_classAtom hlast
  rw [← returns_dropAndSkip.1 hdrop] at hbehind
  cases first with
  | char a =>
      cases last with
      | char b =>
          refine ⟨nofun, hbehind, looksAhead_dropAndSkip.frames_bind hdrop ?_⟩
          refine (classAtom_frames hlast nofun).bind_contained ?_ h
          dsimp only
          split
          · exact contained_pure
          · exact contained_throw
      | set set => exact absurd h not_returns_throw
      | assertion b => exact absurd h not_returns_throw
  | set set => exact absurd h not_returns_throw
  | assertion b => exact absurd h not_returns_throw

/-- An item is a range, or it ends in front of a character that makes no range. -/
theorem classItem_frames {set : CharSet} (h : Returns classItem s set s') :
    Frames classItem s set s' ∨
      ∃ cs c ds, cs ≠ [] ∧ s.rest = cs ++ s'.rest ∧ s'.rest = c :: ds ∧
        ∀ z, (c = '-' → (skipped s' z).head? = (skipped s' ds).head?) →
          Returns classItem (s.withRest (cs ++ c :: z)) set (s'.withRest (c :: z)) := by
  obtain ⟨first, t, hfirst, h⟩ := returns_bind.1 h
  obtain ⟨_, u, hskip, h⟩ := returns_bind.1 h
  obtain ⟨c, _, hdemand, hrange⟩ := returns_bind.1 h
  obtain ⟨ds, hrest, rfl⟩ := returns_demand.1 hdemand
  have h := returns_get_bind.1 hrange
  simp only [hrest, List.drop_one, List.tail_cons] at h
  split at h
  · rename_i hsingle
    right
    obtain ⟨hfirst', rfl, hset⟩ := returns_itemSet h
    obtain ⟨cs, hcs, hrest', hfirst⟩ := classAtom_frames hfirst hfirst'
    obtain ⟨es, hes, hskip⟩ := looksAhead_skip hskip
    refine ⟨cs ++ es, c, ds, by simp [hcs], by rw [hrest', hes, List.append_assoc], hrest,
      fun z hz => ?_⟩
    refine returns_bind.2 ⟨first, t.withRest (es ++ c :: z), by simpa using hfirst (es ++ c :: z),
      returns_bind.2 ⟨(), u.withRest (c :: z), hskip _ (by rw [hrest]; rfl), returns_bind.2
        ⟨c, _, returns_demand.2 ⟨z, rfl, rfl⟩, returns_get_bind.2 ?_⟩⟩⟩
    dsimp only
    rw [if_pos]
    · exact hset _
    · by_cases hc : c = '-'
      · simpa [hc, hz hc] using hsingle
      · simp [hc]
  · rename_i hnosingle
    left
    obtain ⟨hfirst', -, es, hes, hrest', hz⟩ := rangeFrom_frames h
    refine (classAtom_frames hfirst hfirst').bind (looksAhead_skip.frames_bind hskip
      (looksAhead_demand.frames_bind hdemand ⟨es, hes, hrest', fun z => returns_get_bind.2 ?_⟩))
    -- what stands behind the hyphen belongs to the range
    have hwithin : skipped u (es.drop 1) ≠ [] := by
      have := (rangeFrom_frames (hz [])).2.1
      simpa using this
    have hbehind (w : List Char) :
        (skipped u ((es ++ w).drop 1)).head? = (skipped u (es.drop 1)).head? := by
      rw [List.drop_append_of_le_length (List.length_pos_iff.2 hes), skipped_append hwithin]
      exact (head?_append_of_ne_nil hwithin).trans (by rw [List.append_nil])
    have hds : ds = (es ++ s'.rest).drop 1 := by rw [← hrest', hrest, List.drop_one, List.tail_cons]
    rw [hds, hbehind] at hnosingle
    dsimp only
    rw [ReaderState.withRest_rest, skipped_withRest, hbehind, if_neg hnosingle]
    exact hz z

/-! ### Items -/

theorem returns_classItems {pending : Option (SetOp × CharSet)} {items set : CharSet} :
    Returns (classItems (n + 1) pending items) s set s' ↔ ∃ c cs, skipped s s.rest = c :: cs ∧
      if c = ']' then Returns (closeOperation pending items) (s.withRest cs) set s'
      else if c = '[' then
        ∃ inner t, Returns (innerClass (classItems n none)) (s.withRest (c :: cs)) inner t ∧
          Returns (classItems n pending (.union items inner)) t set s'
      else
        match setOpAt? (c :: cs) with
        | some op => ∃ left t, Returns (closeOperation pending items)
            (s.withRest (cs.drop 1)) left t ∧
            Returns (classItems n (some (op, left)) .empty) t set s'
        | none => ∃ item t, Returns classItem (s.withRest (c :: cs)) item t ∧
            Returns (classItems n pending (.union items item)) t set s' := by
  rw [classItems, returns_skip_bind, returns_demand_bind]
  refine exists_congr fun c => exists_congr fun cs => and_congr_right fun hcs => ?_
  rw [ReaderState.withRest_rest] at hcs
  simp only [hcs, beq_iff_eq]
  split
  · exact returns_drop_bind
  · split
    · exact returns_bind
    · rw [returns_get_bind, ReaderState.withRest_rest]
      cases setOpAt? (c :: cs) with
      | some op => exact returns_drop_bind.trans returns_bind
      | none => exact returns_bind

theorem classItems_skip {pending : Option (SetOp × CharSet)} {items set : CharSet} :
    Returns (classItems (n + 1) pending items) s set s' ↔
      Returns (classItems (n + 1) pending items) (s.withRest (skipped s s.rest)) set s' := by
  rw [returns_classItems, returns_classItems]
  simp

/-- A hyphen that is read in a class has something other than blanks behind it. -/
theorem skipped_ne_nil_of_hyphen {pending : Option (SetOp × CharSet)} {items set : CharSet}
    (h : Returns (classItems n pending items) s set s') (hrest : s.rest = '-' :: cs) :
    skipped s cs ≠ [] := by
  obtain _ | n := n
  · exact absurd h not_returns_throw
  obtain ⟨c, ds, hskip, h⟩ := returns_classItems.1 h
  rw [hrest, skipped_cons (by decide) (by decide)] at hskip
  obtain ⟨rfl, rfl⟩ := List.cons.inj hskip
  rw [if_neg (by decide), if_neg (by decide)] at h
  by_cases hdouble : cs.head? = some '-'
  · obtain ⟨es, rfl⟩ := List.head?_eq_some_iff.1 hdouble
    rw [skipped_cons (by decide) (by decide)]
    nofun
  · have hop : setOpAt? ('-' :: cs) = none := by
      unfold setOpAt?
      split <;> simp_all
    rw [hop] at h
    obtain ⟨item, t, hitem, -⟩ := h
    obtain ⟨first, u, hfirst, hitem⟩ := returns_bind.1 hitem
    obtain ⟨c, ds, hcs, hfirst⟩ := returns_demand_bind.1 hfirst
    obtain ⟨rfl, rfl⟩ := List.cons.inj hcs
    replace hfirst := returns_drop_bind.1 hfirst
    rw [if_neg (by decide)] at hfirst
    obtain ⟨rfl, rfl⟩ := returns_pure.1 hfirst
    obtain ⟨d, es, hes, -⟩ := returns_demand_bind.1 (returns_skip_bind.1 hitem)
    exact fun hnil => List.cons_ne_nil d es (hes.symm.trans hnil)

/-- Items are read up to the bracket that closes them, whatever follows, with a step for each
character or more. -/
def FramesItems (reader : Nat → Reads CharSet) (s : ReaderState) (set : CharSet)
    (s' : ReaderState) : Prop :=
  ∃ cs, ']' ∈ cs ∧ s.rest = cs ++ s'.rest ∧ ∀ z n, cs.length < n →
    Returns (reader n) (s.withRest (cs ++ z)) set (s'.withRest z)

theorem innerClass_frames (inner : Nat → CharSet → Reads CharSet) {set : CharSet}
    (hinner : ∀ {start set : CharSet} {s s' : ReaderState}, Returns (inner n start) s set s' →
      FramesItems (fun n => inner n start) s set s')
    (h : Returns (innerClass (inner n)) s set s') (hrest : s.rest = '[' :: y) :
    ∃ cs, s.rest = '[' :: cs ++ s'.rest ∧ ∀ z n', cs.length < n' →
      Returns (innerClass (inner n')) (s.withRest ('[' :: cs ++ z)) set (s'.withRest z) := by
  obtain ⟨o, t, hnamed, h⟩ := returns_bind.1 h
  obtain ⟨hname, rfl, rfl⟩ | ⟨set', rest, hname, rfl, rfl⟩ := returns_namedClass?.1 hnamed
  · obtain ⟨⟨negated, start⟩, u, hopen, h⟩ := returns_bind.1 (returns_drop_bind.1 h)
    obtain ⟨set', v, hitems, h⟩ := returns_bind.1 h
    obtain ⟨ds, hds, hopen⟩ := looksAhead_openClass hopen
    obtain ⟨es, hmem, hes, hitems⟩ := hinner hitems
    obtain ⟨fs, hfs, hclose⟩ := contained_closeClass negated set' h
    obtain rfl : y = ds ++ (es ++ (fs ++ s'.rest)) := by
      rw [← hfs, ← hes, ← hds, hrest]
      rfl
    have hne : es ≠ [] := List.ne_nil_of_mem hmem
    refine ⟨ds ++ (es ++ fs), by simp [hrest], fun z n' hn' => returns_bind.2
      ⟨none, s.withRest ('[' :: (ds ++ (es ++ (fs ++ z)))),
        returns_namedClass?.2 (.inl ⟨?_, rfl, by simp⟩), ?_⟩⟩
    · refine classNameAt?_none (y := s'.rest) (by simp [hmem]) ?_ z
      simpa [hrest] using hname
    · refine returns_drop_bind.2 (returns_bind.2 ⟨(negated, start), u.withRest (es ++ (fs ++ z)),
        ?_, returns_bind.2 ⟨set', v.withRest (fs ++ z), hitems _ n' ?_, hclose z⟩⟩)
      · exact hopen _ (hes ▸ head?_append_of_ne_nil hne)
      · simp only [List.length_append] at hn'
        omega
  · obtain ⟨rfl, rfl⟩ := returns_pure.1 h
    obtain ⟨front, -, hsplit, hz⟩ := classNameAt?_some hname
    cases front with
    | nil => cases hrest.symm.trans hsplit
    | cons c front =>
        obtain ⟨rfl, -⟩ := List.cons.inj (hrest.symm.trans hsplit)
        refine ⟨front ++ [']'], by simpa using hsplit, fun z n' _ => returns_bind.2
          ⟨some set', s.withRest z, returns_namedClass?.2 (.inr ⟨set', z, ?_, rfl, rfl⟩),
            returns_pure.2 ⟨rfl, rfl⟩⟩⟩
        simpa using hz z

/-- Items may have blanks in front. -/
theorem classItems_of_body {pending : Option (SetOp × CharSet)} {items set : CharSet}
    (cs : List Char) (hskip : skipped s s.rest = cs ++ s'.rest) (hmem : ']' ∈ cs)
    (hcs : ∀ z n', cs.length ≤ n' →
      Returns (classItems (n' + 1) pending items) (s.withRest (cs ++ z)) set (s'.withRest z)) :
    FramesItems (fun n => classItems n pending items) s set s' := by
  obtain ⟨ds, hds, hlead⟩ := exists_skipped s s.rest
  refine ⟨ds ++ cs, List.mem_append_right _ hmem, by rw [hds, hskip, List.append_assoc],
    fun z n' hn' => ?_⟩
  obtain _ | n' := n'
  · cases hn'
  have hfront : skipped s (ds ++ (cs ++ z)) = cs ++ z :=
    hlead _ (hskip ▸ head?_append_of_ne_nil (List.ne_nil_of_mem hmem))
  rw [classItems_skip, ReaderState.withRest_rest, skipped_withRest, List.append_assoc, hfront]
  exact hcs z n' (by rw [List.length_append] at hn'; omega)

/-- What follows an item within its class settles what was seen ahead of it. -/
theorem classItem_within {item : CharSet} {es : List Char} (hitem : Returns classItem s item t)
    (hes : t.rest = es ++ y) (hne : es ≠ [])
    (hhyphen : ∀ fs, es = '-' :: fs → skipped t fs ≠ []) :
    ∃ ds, ds ≠ [] ∧ s.rest = ds ++ t.rest ∧
      ∀ z, Returns classItem (s.withRest (ds ++ (es ++ z))) item (t.withRest (es ++ z)) := by
  obtain ⟨ds, hds, hsplit, hz⟩ | ⟨ds, c, fs, hds, hsplit, hfs, hz⟩ := classItem_frames hitem
  · exact ⟨ds, hds, hsplit, fun z => hz (es ++ z)⟩
  · obtain _ | ⟨e, es⟩ := es
    · exact absurd rfl hne
    obtain ⟨rfl, rfl⟩ := List.cons.inj (hfs.symm.trans hes)
    refine ⟨ds, hds, hsplit, fun z => hz (es ++ z) fun hc => ?_⟩
    replace hhyphen := hhyphen es (by rw [hc])
    have hbehind (w : List Char) : (skipped t (es ++ w)).head? = (skipped t es ++ y).head? := by
      rw [skipped_append hhyphen]
      exact head?_append_of_ne_nil hhyphen
    exact (hbehind z).trans (hbehind y).symm

section Step

variable {pending : Option (SetOp × CharSet)} {items item left set : CharSet} {op : SetOp}
  {c : Char}

theorem FramesItems.of_inner (hskip : skipped s s.rest = '[' :: cs)
    (hframes : ∀ {start set s s'}, Returns (classItems n none start) s set s' →
      FramesItems (fun n => classItems n none start) s set s')
    (hinner : Returns (innerClass (classItems n none)) (s.withRest ('[' :: cs)) item t)
    (h : FramesItems (fun n => classItems n pending (.union items item)) t set s') :
    FramesItems (fun n => classItems n pending items) s set s' := by
  obtain ⟨ds, hds, hinner⟩ := innerClass_frames (fun n => classItems n none) hframes hinner rfl
  obtain ⟨es, hmem, hes, hitems⟩ := h
  have hopen : skipped s ('[' :: (ds ++ t.rest)) = '[' :: (ds ++ t.rest) :=
    skipped_cons (by decide) (by decide)
  refine classItems_of_body ('[' :: ds ++ es) ?_ (List.mem_append_right _ hmem)
    fun z m hm => returns_classItems.2 ⟨'[', ds ++ (es ++ z), ?_, ?_⟩
  · rw [hskip, List.append_assoc, ← hes]
    exact hds
  · simpa using skipped_cons_congr hopen (ds ++ (es ++ z))
  · rw [if_neg (by decide), if_pos rfl]
    simp only [List.length_append, List.length_cons] at hm
    exact ⟨item, t.withRest (es ++ z), hinner _ _ (by omega), hitems _ _ (by omega)⟩

theorem FramesItems.of_operation (hskip : skipped s s.rest = c :: cs) (hc : c ≠ ']' ∧ c ≠ '[')
    (hop : setOpAt? (c :: cs) = some op)
    (hleft : Returns (closeOperation pending items) (s.withRest (cs.drop 1)) left t)
    (h : FramesItems (fun n => classItems n (some (op, left)) .empty) t set s') :
    FramesItems (fun n => classItems n pending items) s set s' := by
  have hstay : ∀ ds, skipped s (c :: ds) = c :: ds := skipped_cons_congr (hskip ▸ skipped_skipped)
  obtain _ | ⟨d, ds⟩ := cs
  · exact absurd hop (by unfold setOpAt?; split <;> simp_all)
  obtain ⟨es, hes, hleft⟩ := contained_closeOperation pending items hleft
  obtain ⟨fs, hmem, hfs, hitems⟩ := h
  obtain rfl : ds = es ++ t.rest := hes
  have hop' (w : List Char) : setOpAt? ([c, d] ++ w) = some op :=
    (setOpAt?_append (Nat.le_refl _)).trans hop
  refine classItems_of_body (c :: d :: (es ++ fs)) (by simp [hskip, hfs]) (by simp [hmem])
    fun z m hm => returns_classItems.2 ⟨c, d :: (es ++ (fs ++ z)), ?_, ?_⟩
  · simpa using hstay (d :: (es ++ (fs ++ z)))
  · rw [if_neg hc.1, if_neg hc.2]
    rw [show setOpAt? (c :: d :: (es ++ (fs ++ z))) = some op from hop' _]
    simp only [List.length_append, List.length_cons] at hm
    exact ⟨left, t.withRest (fs ++ z), hleft _, hitems _ _ (by omega)⟩

theorem FramesItems.of_item (hskip : skipped s s.rest = c :: cs) (hc : c ≠ ']' ∧ c ≠ '[')
    (hop : setOpAt? (c :: cs) = none) (hitem : Returns classItem (s.withRest (c :: cs)) item t)
    (h : FramesItems (fun n => classItems n pending (.union items item)) t set s') :
    FramesItems (fun n => classItems n pending items) s set s' := by
  have hstay : ∀ ds, skipped s (c :: ds) = c :: ds := skipped_cons_congr (hskip ▸ skipped_skipped)
  obtain ⟨es, hmem, hes, hitems⟩ := h
  have hne : es ≠ [] := List.ne_nil_of_mem hmem
  have hread : Returns (classItems (es.length + 1) pending (.union items item))
      (t.withRest es) set (s'.withRest []) := by
    simpa using hitems [] _ (Nat.lt_succ_self _)
  have hhyphen : ∀ fs, es = '-' :: fs → skipped (t.withRest es) fs ≠ [] :=
    fun fs hfs => skipped_ne_nil_of_hyphen hread hfs
  obtain ⟨_ | ⟨d, ds⟩, hds, hsplit, hitem⟩ := classItem_within hitem hes hne hhyphen
  · exact absurd rfl hds
  obtain ⟨rfl, rfl⟩ := List.cons.inj hsplit
  have hlength : 2 ≤ (c :: (ds ++ es)).length := by
    have := List.length_pos_iff.2 hne
    simp only [List.length_cons, List.length_append]
    omega
  have hop' (w : List Char) : setOpAt? (c :: (ds ++ es) ++ w) = none := by
    refine (setOpAt?_append (z := s'.rest) hlength).trans (Eq.trans ?_ hop)
    simp [hes]
  refine classItems_of_body (c :: (ds ++ es)) (by simp [hskip, hes]) (by simp [hmem])
    fun z m hm => returns_classItems.2 ⟨c, ds ++ (es ++ z), ?_, ?_⟩
  · simpa using hstay (ds ++ (es ++ z))
  · rw [if_neg hc.1, if_neg hc.2]
    rw [show setOpAt? (c :: (ds ++ (es ++ z))) = none by simpa using hop' z]
    simp only [List.length_append, List.length_cons] at hm
    exact ⟨item, t.withRest (es ++ z), hitem z, hitems _ _ (by omega)⟩

/-- Items end at the closing bracket of their class.  A step for each character is enough. -/
theorem classItems_frames (h : Returns (classItems n pending items) s set s') :
    FramesItems (fun n => classItems n pending items) s set s' := by
  induction n generalizing s s' pending items set with
  | zero => exact absurd h not_returns_throw
  | succ n ih =>
      obtain ⟨c, cs, hskip, h⟩ := returns_classItems.1 h
      split at h
      · rename_i hclose
        subst hclose
        obtain ⟨es, rfl, hz⟩ := contained_closeOperation pending items h
        refine classItems_of_body (']' :: es) (by simpa using hskip) (by simp)
          fun z m _ => returns_classItems.2 ⟨']', es ++ z, skipped_cons (by decide) (by decide), ?_⟩
        rw [if_pos rfl]
        exact hz z
      · rename_i hclose
        split at h
        · rename_i hopen
          subst hopen
          obtain ⟨item, t, hinner, h⟩ := h
          exact .of_inner hskip ih hinner (ih h)
        · rename_i hopen
          split at h
          · rename_i op hop
            obtain ⟨left, t, hleft, h⟩ := h
            exact .of_operation hskip ⟨hclose, hopen⟩ hop hleft (ih h)
          · rename_i hop
            obtain ⟨item, t, hitem, h⟩ := h
            exact .of_item hskip ⟨hclose, hopen⟩ hop hitem (ih h)

end Step

theorem consumes_bracketClass : Consumes bracketClass := by
  intro s set s' h
  obtain ⟨⟨negated, start⟩, t, hopen, h⟩ := returns_bind.1 h
  obtain ⟨set', u, hitems, h⟩ := returns_bind.1 (returns_get_bind.1 h)
  obtain ⟨cs, hmem, hcs, hitems⟩ := classItems_frames hitems
  obtain ⟨es, hes, hclose⟩ := contained_closeClass negated set' h
  refine looksAhead_openClass.frames_bind hopen ⟨cs ++ es, ?_, ?_, fun z => returns_get_bind.2
    (returns_bind.2 ⟨set', u.withRest (es ++ z), ?_, hclose z⟩)⟩
  · exact List.append_ne_nil_of_left_ne_nil (List.ne_nil_of_mem hmem) es
  · rw [hcs, hes, List.append_assoc]
  · rw [List.append_assoc]
    exact hitems _ _ (by rw [ReaderState.withRest_rest, List.length_append]; omega)

end Reads

end RowFormula.Pattern
