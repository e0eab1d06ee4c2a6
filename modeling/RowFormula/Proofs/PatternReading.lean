/-
# What reading a part of a pattern depends on

A part of a pattern means the same wherever it stands, as long as what follows does not run into it.
A reader that ends at a closing mark does not look behind what it takes; all the others look at most
at the next character, apart from a word boundary, which may have a name in braces.
-/

import Mathlib.Data.List.TakeWhile
import RowFormula.Pattern.Reader

namespace RowFormula.Pattern

/-- The same state in front of another text. -/
def ReaderState.withRest (s : ReaderState) (cs : List Char) : ReaderState :=
  { s with rest := cs }

namespace ReaderState

variable {s : ReaderState} {cs ds : List Char}

@[simp]
theorem withRest_rest : (s.withRest cs).rest = cs := rfl

@[simp]
theorem withRest_flags : (s.withRest cs).flags = s.flags := rfl

@[simp]
theorem withRest_withRest : (s.withRest cs).withRest ds = s.withRest ds := rfl

@[simp]
theorem withRest_self : s.withRest s.rest = s := rfl

end ReaderState

namespace Reads

variable {α β : Type} {m : Reads α} {f : α → Reads β} {a : α} {b : β} {s s' t : ReaderState}
  {cs c y z : List Char} {fault : PatternFault}

/-! ### Successful reading -/

/-- Reading succeeds with this result and goes on from this state. -/
def Returns (m : Reads α) (s : ReaderState) (a : α) (s' : ReaderState) : Prop :=
  m s = .ok (a, s')

@[simp]
theorem returns_pure {b : α} : Returns (pure a) s b s' ↔ a = b ∧ s = s' := by
  constructor
  · rintro ⟨⟩
    exact ⟨rfl, rfl⟩
  · rintro ⟨rfl, rfl⟩
    rfl

@[simp]
theorem not_returns_throw : ¬ Returns (throw fault) s a s' := nofun

@[simp]
theorem returns_bind :
    Returns (m >>= f) s b s' ↔ ∃ a t, Returns m s a t ∧ Returns (f a) t b s' := by
  have hbind : (m >>= f) s = m s >>= fun r => f r.1 r.2 := rfl
  unfold Returns
  rw [hbind]
  cases m s with
  | error e => exact ⟨nofun, nofun⟩
  | ok r =>
      constructor
      · exact fun h => ⟨r.1, r.2, rfl, h⟩
      · rintro ⟨a, t, ⟨⟩, h⟩
        exact h

@[simp]
theorem returns_set {u : PUnit} : Returns (set t) s u s' ↔ t = s' := by
  constructor
  · rintro ⟨⟩
    rfl
  · rintro rfl
    rfl

@[simp]
theorem returns_modify {g : ReaderState → ReaderState} {u : PUnit} :
    Returns (modify g) s u s' ↔ g s = s' := by
  constructor
  · rintro ⟨⟩
    rfl
  · rintro rfl
    rfl

@[simp]
theorem returns_map {g : α → β} : Returns (g <$> m) s b s' ↔ ∃ a, Returns m s a s' ∧ g a = b := by
  rw [← bind_pure_comp, returns_bind]
  simp only [returns_pure]
  constructor
  · rintro ⟨a, t, h, rfl, rfl⟩
    exact ⟨a, h, rfl⟩
  · rintro ⟨a, h, rfl⟩
    exact ⟨a, _, h, rfl, rfl⟩

theorem returns_bind_pure {g : α → β} :
    Returns (m >>= fun a => pure (g a)) s b s' ↔ ∃ a, Returns m s a s' ∧ g a = b := by
  rw [bind_pure_comp, returns_map]

@[simp]
theorem returns_lift {e : Except PatternFault α} :
    Returns (liftM e) s a s' ↔ e = .ok a ∧ s = s' := by
  cases e with
  | error e => exact ⟨nofun, nofun⟩
  | ok a' =>
      constructor
      · rintro ⟨⟩
        exact ⟨rfl, rfl⟩
      · rintro ⟨⟨⟩, rfl⟩
        rfl

theorem returns_get_bind {f : ReaderState → Reads β} :
    Returns (get >>= f) s b s' ↔ Returns (f s) s b s' := Iff.rfl

theorem returns_peek {o : Option Char} : Returns peek s o s' ↔ s.rest.head? = o ∧ s = s' := by
  rw [peek, returns_get_bind, returns_pure]

theorem returns_demand {c : Char} :
    Returns (demand fault) s c s' ↔ ∃ cs, s.rest = c :: cs ∧ s = s' := by
  rw [demand, returns_bind]
  cases hrest : s.rest with
  | nil => simp [returns_peek, hrest, and_assoc]
  | cons d cs => simp [returns_peek, hrest, and_assoc]

theorem returns_drop_bind {f : Unit → Reads β} {n : Nat} :
    Returns (drop n >>= f) s b s' ↔ Returns (f ()) (s.withRest (s.rest.drop n)) b s' := Iff.rfl

theorem returns_skip_bind {f : Unit → Reads β} :
    Returns (skip >>= f) s b s' ↔ Returns (f ()) (s.withRest (skipped s s.rest)) b s' := Iff.rfl

theorem returns_modify_bind {g : ReaderState → ReaderState} {f : PUnit → Reads β} :
    Returns (modify g >>= f) s b s' ↔ Returns (f ⟨⟩) (g s) b s' := Iff.rfl

theorem returns_demand_bind {f : Char → Reads β} :
    Returns (demand fault >>= f) s b s' ↔ ∃ c cs, s.rest = c :: cs ∧ Returns (f c) s b s' := by
  rw [returns_bind]
  constructor
  · rintro ⟨c, _, hdemand, h⟩
    obtain ⟨cs, hcs, rfl⟩ := returns_demand.1 hdemand
    exact ⟨c, cs, hcs, h⟩
  · rintro ⟨c, cs, hcs, h⟩
    exact ⟨c, s, returns_demand.2 ⟨cs, hcs, rfl⟩, h⟩

/-! ### How far a reader looks -/

/-- Reading takes this front of the text, at least one character, whatever follows. -/
def Frames (m : Reads α) (s : ReaderState) (a : α) (s' : ReaderState) : Prop :=
  ∃ cs, cs ≠ [] ∧ s.rest = cs ++ s'.rest ∧
    ∀ z, Returns m (s.withRest (cs ++ z)) a (s'.withRest z)

/-- The reader takes at least one character and does not look behind what it takes. -/
def Consumes (m : Reads α) : Prop :=
  ∀ ⦃s a s'⦄, Returns m s a s' → Frames m s a s'

/-- The reader takes at least one character if there is one, and does not look behind. -/
def Takes (m : Reads α) : Prop :=
  ∀ ⦃s a s'⦄, s.rest ≠ [] → Returns m s a s' → Frames m s a s'

/-- The reader does not look behind what it takes. -/
def Contained (m : Reads α) : Prop :=
  ∀ ⦃s a s'⦄, Returns m s a s' → ∃ cs, s.rest = cs ++ s'.rest ∧
    ∀ z, Returns m (s.withRest (cs ++ z)) a (s'.withRest z)

/-- The reader looks at most at the character behind what it takes. -/
def LooksAhead (m : Reads α) : Prop :=
  ∀ ⦃s a s'⦄, Returns m s a s' → ∃ cs, s.rest = cs ++ s'.rest ∧
    ∀ z, z.head? = s'.rest.head? → Returns m (s.withRest (cs ++ z)) a (s'.withRest z)

theorem head?_append_congr (h : y.head? = z.head?) : (cs ++ y).head? = (cs ++ z).head? := by
  cases cs with
  | nil => exact h
  | cons => rfl

theorem head?_append_of_ne_nil (h : cs ≠ []) : (cs ++ y).head? = (cs ++ z).head? := by
  cases cs with
  | nil => exact absurd rfl h
  | cons => rfl

theorem eq_nil_of_head? (h : z.head? = ([] : List Char).head?) : z = [] :=
  List.head?_eq_none_iff.1 h

theorem Frames.contained (h : Frames m s a s') : ∃ cs, s.rest = cs ++ s'.rest ∧
    ∀ z, Returns m (s.withRest (cs ++ z)) a (s'.withRest z) :=
  h.imp fun _ => And.right

theorem Consumes.contained (hm : Consumes m) : Contained m :=
  fun _ _ _ h => (hm h).contained

theorem Consumes.takes (hm : Consumes m) : Takes m :=
  fun _ _ _ _ h => hm h

theorem Contained.looksAhead (hm : Contained m) : LooksAhead m := by
  intro s a s' h
  obtain ⟨cs, hrest, hcs⟩ := hm h
  exact ⟨cs, hrest, fun z _ => hcs z⟩

theorem contained_pure : Contained (pure a : Reads α) := by
  rintro s _ s' h
  obtain ⟨rfl, rfl⟩ := returns_pure.1 h
  exact ⟨[], rfl, fun z => returns_pure.2 ⟨rfl, rfl⟩⟩

theorem consumes_throw : Consumes (throw fault : Reads α) :=
  fun _ _ _ h => absurd h not_returns_throw

theorem contained_throw : Contained (throw fault : Reads α) :=
  consumes_throw.contained

theorem consumes_throw_bind : Consumes ((throw fault : Reads α) >>= f) :=
  consumes_throw

theorem contained_throw_bind : Contained ((throw fault : Reads α) >>= f) :=
  contained_throw

theorem Contained.bind (hm : Contained m) (hf : ∀ a, Contained (f a)) : Contained (m >>= f) := by
  intro s b s' h
  obtain ⟨a, t, hfirst, hsecond⟩ := returns_bind.1 h
  obtain ⟨cs, hrest, hcs⟩ := hm hfirst
  obtain ⟨ds, hrest', hds⟩ := hf a hsecond
  refine ⟨cs ++ ds, by rw [hrest, hrest', List.append_assoc], fun z => returns_bind.2 ?_⟩
  exact ⟨a, t.withRest (ds ++ z), by rw [List.append_assoc]; exact hcs _, hds z⟩

theorem LooksAhead.bind (hm : LooksAhead m) (hf : ∀ a, LooksAhead (f a)) :
    LooksAhead (m >>= f) := by
  intro s b s' h
  obtain ⟨a, t, hfirst, hsecond⟩ := returns_bind.1 h
  obtain ⟨cs, hrest, hcs⟩ := hm hfirst
  obtain ⟨ds, hrest', hds⟩ := hf a hsecond
  refine ⟨cs ++ ds, by rw [hrest, hrest', List.append_assoc], fun z hz => returns_bind.2 ?_⟩
  refine ⟨a, t.withRest (ds ++ z), ?_, hds z hz⟩
  rw [List.append_assoc]
  exact hcs _ (hrest' ▸ head?_append_congr hz)

/-- What is read next settles what a reader saw ahead. -/
theorem LooksAhead.frames_bind (hm : LooksAhead m) (hfirst : Returns m s a t)
    (hsecond : Frames (f a) t b s') : Frames (m >>= f) s b s' := by
  obtain ⟨cs, hrest, hcs⟩ := hm hfirst
  obtain ⟨ds, hds, hrest', hsecond⟩ := hsecond
  refine ⟨cs ++ ds, by simp [hds], by rw [hrest, hrest', List.append_assoc],
    fun z => returns_bind.2 ⟨a, t.withRest (ds ++ z), ?_, hsecond z⟩⟩
  rw [List.append_assoc]
  exact hcs _ (hrest' ▸ head?_append_of_ne_nil hds)

theorem LooksAhead.bind_consumes (hm : LooksAhead m) (hf : ∀ a, Consumes (f a)) :
    Consumes (m >>= f) := by
  intro s b s' h
  obtain ⟨a, t, hfirst, hsecond⟩ := returns_bind.1 h
  exact hm.frames_bind hfirst (hf a hsecond)

theorem Frames.bind_contained (hm : Frames m s a t) (hf : Contained (f a))
    (hsecond : Returns (f a) t b s') : Frames (m >>= f) s b s' := by
  obtain ⟨cs, hcs, hrest, hfirst⟩ := hm
  obtain ⟨ds, hrest', hds⟩ := hf hsecond
  refine ⟨cs ++ ds, by simp [hcs], by rw [hrest, hrest', List.append_assoc],
    fun z => returns_bind.2 ⟨a, t.withRest (ds ++ z), ?_, hds z⟩⟩
  rw [List.append_assoc]
  exact hfirst _

theorem Frames.bind (hm : Frames m s a t) (hf : Frames (f a) t b s') : Frames (m >>= f) s b s' := by
  obtain ⟨cs, hcs, hrest, hfirst⟩ := hm
  obtain ⟨ds, -, hrest', hsecond⟩ := hf
  refine ⟨cs ++ ds, by simp [hcs], by rw [hrest, hrest', List.append_assoc],
    fun z => returns_bind.2 ⟨a, t.withRest (ds ++ z), ?_, hsecond z⟩⟩
  rw [List.append_assoc]
  exact hfirst _

theorem Takes.bind (hm : Takes m) (hf : ∀ a, Contained (f a)) : Takes (m >>= f) := by
  intro s b s' hrest h
  obtain ⟨a, t, hfirst, hsecond⟩ := returns_bind.1 h
  exact (hm hrest hfirst).bind_contained (hf a) hsecond

theorem Consumes.bind (hm : Consumes m) (hf : ∀ a, Contained (f a)) : Consumes (m >>= f) := by
  intro s b s' h
  obtain ⟨a, t, hfirst, hsecond⟩ := returns_bind.1 h
  exact (hm hfirst).bind_contained (hf a) hsecond

theorem Contained.map {g : α → β} (hm : Contained m) : Contained (g <$> m) := by
  rw [← bind_pure_comp]
  exact hm.bind fun _ => contained_pure

/-- What depends on the flags and groups only does not look at the text. -/
theorem Contained.get_bind {f : ReaderState → Reads β} (hf : ∀ s, Contained (f s))
    (hsame : ∀ s z, f (s.withRest z) = f s) : Contained (get >>= f) := by
  intro s b s' h
  obtain ⟨cs, hrest, hcs⟩ := hf s (returns_get_bind.1 h)
  refine ⟨cs, hrest, fun z => returns_get_bind.2 ?_⟩
  rw [hsame]
  exact hcs z

theorem Consumes.get_bind {f : ReaderState → Reads β} (hf : ∀ s, Consumes (f s))
    (hsame : ∀ s z, f (s.withRest z) = f s) : Consumes (get >>= f) := by
  intro s b s' h
  obtain ⟨cs, hne, hrest, hcs⟩ := hf s (returns_get_bind.1 h)
  refine ⟨cs, hne, hrest, fun z => returns_get_bind.2 ?_⟩
  rw [hsame]
  exact hcs z

/-! ### Single steps -/

theorem looksAhead_peek : LooksAhead peek := by
  intro s o s' h
  obtain ⟨rfl, rfl⟩ := returns_peek.1 h
  exact ⟨[], rfl, fun z hz => returns_peek.2 ⟨hz, rfl⟩⟩

theorem looksAhead_demand : LooksAhead (demand fault) := by
  intro s c s' h
  obtain ⟨cs, hrest, rfl⟩ := returns_demand.1 h
  refine ⟨[], rfl, fun z hz => returns_demand.2 ?_⟩
  rw [hrest] at hz
  obtain ⟨ds, hds⟩ := List.head?_eq_some_iff.1 hz
  exact ⟨ds, hds, rfl⟩

theorem consumes_demand_bind {f : Char → Reads β} (hf : ∀ c, Takes (f c)) :
    Consumes (demand fault >>= f) := by
  intro s b s' h
  obtain ⟨c, t, hfirst, hsecond⟩ := returns_bind.1 h
  obtain ⟨cs, hrest, rfl⟩ := returns_demand.1 hfirst
  exact looksAhead_demand.frames_bind hfirst (hf c (by rw [hrest]; nofun) hsecond)

theorem takes_drop : Takes (drop 1) := by
  intro s _ s' hrest h
  obtain rfl := returns_modify.1 h
  obtain ⟨c, cs, hcs⟩ := List.exists_cons_of_ne_nil hrest
  exact ⟨[c], nofun, by simp [hcs], fun z => returns_modify.2 rfl⟩

theorem looksAhead_drop (n : Nat) : LooksAhead (drop n) := by
  intro s _ s' h
  obtain rfl := returns_modify.1 h
  refine ⟨s.rest.take n, (List.take_append_drop n s.rest).symm, fun z hz => returns_modify.2 ?_⟩
  obtain hle | hlt := Nat.le_total s.rest.length n
  · rw [List.drop_of_length_le hle] at hz
    rw [eq_nil_of_head? hz]
    simp [ReaderState.withRest, List.drop_of_length_le, hle]
  · simp [ReaderState.withRest, List.length_take, Nat.min_eq_left hlt]

/-- A character is dropped, and a comment may be open behind it, or it is what comes next. -/
theorem dropIgnored_cons (inComment : Bool) (c : Char) :
    (∃ later, (∀ cs, dropIgnored inComment (c :: cs) = dropIgnored later cs) ∧
      (later = true → inComment = true ∧ c ≠ '\n' ∨ c = '#')) ∨
    inComment = false ∧ ∀ cs, dropIgnored inComment (c :: cs) = c :: cs := by
  cases inComment with
  | true => exact .inl ⟨c != '\n', fun _ => rfl, fun h => .inl ⟨rfl, bne_iff_ne.1 h⟩⟩
  | false =>
      by_cases hblank : Text.isBlank c = true
      · exact .inl ⟨false, fun cs => by rw [dropIgnored, if_pos hblank], nofun⟩
      · by_cases hsign : (c == '#') = true
        · refine .inl ⟨true, fun cs => ?_, fun _ => .inr (beq_iff_eq.1 hsign)⟩
          rw [dropIgnored, if_neg hblank, if_pos hsign]
        · exact .inr ⟨rfl, fun cs => by rw [dropIgnored, if_neg hblank, if_neg hsign]⟩

@[simp]
theorem dropIgnored_nil (inComment : Bool) : dropIgnored inComment [] = [] := by
  cases inComment <;> rfl

/-- What is skipped stays so if the same character follows. -/
theorem exists_ignored (inComment : Bool) (cs : List Char) :
    ∃ ds, cs = ds ++ dropIgnored inComment cs ∧
      ∀ z, z.head? = (dropIgnored inComment cs).head? → dropIgnored inComment (ds ++ z) = z := by
  induction cs generalizing inComment with
  | nil =>
      refine ⟨[], (dropIgnored_nil inComment).symm, fun z hz => ?_⟩
      rw [dropIgnored_nil] at hz
      rw [eq_nil_of_head? hz]
      exact dropIgnored_nil inComment
  | cons c cs ih =>
      obtain ⟨later, hdrop, -⟩ | ⟨-, hstay⟩ := dropIgnored_cons inComment c
      · obtain ⟨ds, hds, hz⟩ := ih later
        simp only [hdrop]
        exact ⟨c :: ds, congrArg (c :: ·) hds, fun z h => (hdrop _).trans (hz z h)⟩
      · simp only [hstay]
        refine ⟨[], rfl, fun z h => ?_⟩
        obtain ⟨ds, rfl⟩ := List.head?_eq_some_iff.1 h
        exact hstay ds

@[simp]
theorem skipped_withRest : skipped (s.withRest y) cs = skipped s cs := rfl

@[simp]
theorem skipped_nil : skipped s [] = [] := by
  unfold skipped
  split <;> rfl

theorem exists_skipped (s : ReaderState) (cs : List Char) :
    ∃ ds, cs = ds ++ skipped s cs ∧
      ∀ z, z.head? = (skipped s cs).head? → skipped s (ds ++ z) = z := by
  unfold skipped
  split
  · exact exists_ignored false cs
  · exact ⟨[], rfl, fun z _ => rfl⟩

/-- What is behind characters that are not skipped altogether does not matter. -/
theorem dropIgnored_append {inComment : Bool} (h : dropIgnored inComment cs ≠ []) (z : List Char) :
    dropIgnored inComment (cs ++ z) = dropIgnored inComment cs ++ z := by
  induction cs generalizing inComment with
  | nil => exact absurd (dropIgnored_nil _) h
  | cons c cs ih =>
      obtain ⟨later, hdrop, -⟩ | ⟨-, hstay⟩ := dropIgnored_cons inComment c
      · rw [hdrop] at h ⊢
        exact (hdrop _).trans (ih h)
      · rw [hstay]
        exact hstay _

theorem skipped_append (h : skipped s cs ≠ []) (z : List Char) :
    skipped s (cs ++ z) = skipped s cs ++ z := by
  unfold skipped at *
  split
  · rename_i hflag
    rw [if_pos hflag] at h
    exact dropIgnored_append h z
  · rfl

theorem skipped_cons {c : Char} (hblank : Text.isBlank c = false) (hcomment : c ≠ '#') :
    skipped s (c :: cs) = c :: cs := by
  unfold skipped
  split
  · rw [dropIgnored, if_neg (by simp [hblank]), if_neg (by simpa using hcomment)]
  · rfl

theorem dropIgnored_dropIgnored (inComment : Bool) (cs : List Char) :
    dropIgnored false (dropIgnored inComment cs) = dropIgnored inComment cs := by
  induction cs generalizing inComment with
  | nil => rw [dropIgnored_nil, dropIgnored_nil]
  | cons c cs ih =>
      obtain ⟨later, hdrop, -⟩ | ⟨rfl, hstay⟩ := dropIgnored_cons inComment c
      · rw [hdrop]
        exact ih later
      · rw [hstay, hstay]

@[simp]
theorem skipped_skipped : skipped s (skipped s cs) = skipped s cs := by
  unfold skipped
  split
  · exact dropIgnored_dropIgnored false cs
  · rfl

/-- Only the character that comes next tells whether something is skipped. -/
theorem skipped_cons_congr {c : Char} (h : skipped s (c :: cs) = c :: cs) (ds : List Char) :
    skipped s (c :: ds) = c :: ds := by
  obtain ⟨es, hes, hz⟩ := exists_skipped s (c :: cs)
  rw [h] at hes hz
  obtain rfl : es = [] := by simpa using hes
  exact hz (c :: ds) rfl

theorem looksAhead_skip : LooksAhead skip := by
  intro s _ s' h
  obtain rfl := returns_modify.1 h
  obtain ⟨ds, hds, hz⟩ := exists_skipped s s.rest
  exact ⟨ds, hds, fun z h => returns_modify.2 (congrArg s.withRest (hz z h))⟩

theorem returns_dropAndSkip {u : Unit} :
    Returns dropAndSkip s u s' ↔ s.withRest (skipped s (s.rest.drop 1)) = s' :=
  returns_drop_bind.trans returns_modify

theorem returns_dropAndSkip_bind {f : Unit → Reads β} : Returns (dropAndSkip >>= f) s b s' ↔
    Returns (f ()) (s.withRest (skipped s (s.rest.drop 1))) b s' := Iff.rfl

theorem looksAhead_dropAndSkip : LooksAhead dropAndSkip :=
  (looksAhead_drop 1).bind fun _ => looksAhead_skip

theorem returns_takeIf {front : List Char} {taken : Bool} :
    Returns (takeIf front) s taken s' ↔
      (taken = true ∧ s.rest = front ++ s'.rest ∧ s' = s.withRest s'.rest) ∨
        (taken = false ∧ ¬ front <+: s.rest ∧ s = s') := by
  rw [takeIf, returns_get_bind]
  constructor
  · split
    · rename_i hfront
      obtain ⟨cs, hcs⟩ := List.isPrefixOf_iff_prefix.1 hfront
      intro h
      obtain ⟨_, t, hdrop, hpure⟩ := returns_bind.1 h
      obtain ⟨rfl, rfl⟩ := returns_pure.1 hpure
      obtain rfl := returns_modify.1 hdrop
      exact .inl ⟨rfl, by simp [← hcs], rfl⟩
    · rename_i hfront
      intro h
      obtain ⟨rfl, rfl⟩ := returns_pure.1 h
      exact .inr ⟨rfl, mt List.isPrefixOf_iff_prefix.2 hfront, rfl⟩
  · rintro (⟨rfl, hrest, hs⟩ | ⟨rfl, hfront, rfl⟩)
    · rw [if_pos (List.isPrefixOf_iff_prefix.2 ⟨s'.rest, hrest.symm⟩)]
      refine returns_bind.2 ⟨(), s', returns_modify.2 ?_, returns_pure.2 ⟨rfl, rfl⟩⟩
      rw [hs, hrest, List.drop_left]
      rfl
    · rw [if_neg (mt List.isPrefixOf_iff_prefix.1 hfront)]
      exact returns_pure.2 ⟨rfl, rfl⟩

theorem returns_takeIf_bind {front : List Char} {f : Bool → Reads β} :
    Returns (takeIf front >>= f) s b s' ↔
      (∃ cs, s.rest = front ++ cs ∧ Returns (f true) (s.withRest cs) b s') ∨
        (¬ front <+: s.rest ∧ Returns (f false) s b s') := by
  simp only [returns_bind, returns_takeIf]
  constructor
  · rintro ⟨_, t, ⟨rfl, hrest, ht⟩ | ⟨rfl, hfront, rfl⟩, h⟩
    · exact .inl ⟨t.rest, hrest, ht ▸ h⟩
    · exact .inr ⟨hfront, h⟩
  · rintro (⟨cs, hrest, h⟩ | ⟨hfront, h⟩)
    · exact ⟨true, _, .inl ⟨rfl, hrest, rfl⟩, h⟩
    · exact ⟨false, _, .inr ⟨rfl, hfront, rfl⟩, h⟩

theorem singleton_prefix_iff {c : Char} : [c] <+: cs ↔ cs.head? = some c := by
  cases cs with
  | nil => simp
  | cons d cs => simp [eq_comm]

theorem returns_takeBraced {taken : List Char} : Returns (takeBraced fault) s taken s' ↔
    ∃ name, '\x7d' ∉ name ∧ s.rest = name ++ '\x7d' :: s'.rest ∧ s' = s.withRest s'.rest ∧
      (if s.flags.ignoreBlanks then takeBraced.dropBlanks name else name) = taken := by
  rw [takeBraced, returns_get_bind]
  dsimp only
  constructor
  · split
    · exact fun h => absurd h not_returns_throw
    · rename_i c rest hafter
      intro h
      obtain ⟨_, t, hset, hpure⟩ := returns_bind.1 h
      obtain ⟨rfl, rfl⟩ := returns_pure.1 hpure
      obtain rfl := returns_set.1 hset
      obtain rfl : c = '\x7d' := by
        have := List.head?_dropWhile_not (· != '\x7d') s.rest
        rw [hafter] at this
        simpa using this
      refine ⟨s.rest.takeWhile (· != '\x7d'), fun hmem => ?_, ?_, rfl, rfl⟩
      · simpa using List.mem_takeWhile_imp hmem
      · rw [← hafter, List.takeWhile_append_dropWhile]
  · rintro ⟨name, hname, hrest, hs, rfl⟩
    have hplain : ∀ c ∈ name, (c != '\x7d') = true :=
      fun c hc => bne_iff_ne.2 fun h => hname (h ▸ hc)
    rw [hrest, List.takeWhile_append_of_pos hplain, List.dropWhile_append_of_pos hplain,
      List.takeWhile_cons_of_neg (by decide), List.dropWhile_cons_of_neg (by decide), hs]
    simp [ReaderState.withRest]

theorem consumes_takeBraced : Consumes (takeBraced fault) := by
  intro s taken s' h
  obtain ⟨name, hname, hrest, hs, htaken⟩ := returns_takeBraced.1 h
  refine ⟨name ++ ['\x7d'], by simp, by simpa using hrest, fun z => returns_takeBraced.2 ?_⟩
  refine ⟨name, hname, by simp, ?_, htaken⟩
  rw [hs]
  rfl

theorem contained_charOfHex : Contained (charOfHex cs) := by
  unfold charOfHex
  dsimp only
  split
  · exact contained_pure
  · exact contained_throw

theorem contained_takeSpaced (n : Nat) : Contained (takeSpaced n) := by
  induction n with
  | zero => exact contained_pure
  | succ n ih =>
      refine (looksAhead_skip.bind_consumes fun _ => consumes_demand_bind fun c => ?_).contained
      exact takes_drop.bind fun _ => ih.bind fun _ => contained_pure

theorem consumes_takeSpaced (n : Nat) : Consumes (takeSpaced (n + 1)) :=
  looksAhead_skip.bind_consumes fun _ => consumes_demand_bind fun _ =>
    takes_drop.bind fun _ => (contained_takeSpaced n).bind fun _ => contained_pure

theorem consumes_hexEscape (n : Nat) : Consumes (hexEscape (n + 1)) := by
  refine looksAhead_skip.bind_consumes fun _ => consumes_demand_bind fun c => ?_
  split
  · exact takes_drop.bind fun _ => consumes_takeBraced.contained.bind fun _ => contained_charOfHex
  · exact ((consumes_takeSpaced n).bind fun _ => contained_charOfHex).takes

theorem contained_letterClass (property : Property) (ascii : CharSet) (negated : Bool) :
    Contained (letterClass property ascii negated) := by
  refine Contained.get_bind (fun s => ?_) fun _ _ => rfl
  split
  · exact contained_pure
  · unfold asciiOnly
    split
    · exact contained_throw
    · exact contained_pure

theorem contained_folded (set : CharSet) : Contained (folded set) := by
  refine Contained.get_bind (fun s => ?_) fun _ _ => rfl
  dsimp only
  split
  · exact contained_pure
  · split
    · exact contained_pure
    · exact contained_pure

theorem contained_charSet (c : Char) : Contained (charSet c) := by
  refine Contained.get_bind (fun s => ?_) fun _ _ => rfl
  dsimp only
  split
  · exact contained_throw.bind fun _ => contained_folded _
  · exact contained_folded _

theorem contained_namedSet (negated : Bool) (found : Option CharSet × Bool) :
    Contained (match found with
      | (some set, differs) => do pure (CharSet.negatedIf (negated != differs) (← folded set))
      | (none, _) => throw .unknownClass) := by
  obtain ⟨_ | set, differs⟩ := found
  · exact contained_throw
  · exact (contained_folded set).bind fun _ => contained_pure

theorem consumes_propertyEscape (negated : Bool) : Consumes (propertyEscape negated) := by
  refine Consumes.get_bind (fun s => ?_) fun _ _ => rfl
  dsimp only
  split
  · exact consumes_throw_bind
  · refine looksAhead_skip.bind_consumes fun _ => consumes_demand_bind fun c => ?_
    split
    · refine takes_drop.bind fun _ => consumes_takeBraced.contained.bind fun cs => ?_
      split
      · exact contained_pure.bind (contained_namedSet negated)
      · exact contained_pure.bind (contained_namedSet negated)
    · exact takes_drop.bind fun _ => contained_pure.bind (contained_namedSet negated)

end Reads

end RowFormula.Pattern
