/-
# Tokens that are taken

How the steps of the grammar go on operators, names, numbers, texts and references.  `Accepts`
and `Rejects` speak about the text alone and leave positions open.  A token is taken as a whole
whenever what follows cannot belong to it, whatever alternatives the grammar tries before.
-/

import RowFormula.Proofs.Acceptance

namespace RowFormula.Grammar

namespace Recognize

variable {α β : Type}

/-- In front of a text the step succeeds with a result of some kind and leaves a rest. -/
def Accepts (p : Recognize α) (Result : α → Prop) (input rest : List Char) : Prop :=
  ∀ start, ∃ x stop, Takes p ⟨input, start⟩ x ⟨rest, stop⟩ ∧ Result x

/-- In front of a text the step fails. -/
def Rejects (p : Recognize α) (input : List Char) : Prop :=
  ∀ start, Refuses p ⟨input, start⟩

/-- In front of a text the step can be taken again and again, and each time it takes something,
until a rest is left. -/
def Repeatedly (p : Recognize α) (Results : List α → Prop) (input rest : List Char) : Prop :=
  ∀ start, ∃ xs stop, Repeats (Takes p) ⟨input, start⟩ xs ⟨rest, stop⟩ ∧ Results xs ∧
    xs.length + rest.length ≤ input.length

section Steps

variable {p q : Recognize α} {P : α → Prop} {Q : β → Prop} {input mid rest : List Char}

theorem Accepts.pure {x : α} (h : P x) : Accepts (Pure.pure x) P rest rest :=
  fun start => ⟨x, start, Takes.pure x _, h⟩

theorem Accepts.mono {P' : α → Prop} (h : Accepts p P input rest) (himp : ∀ x, P x → P' x) :
    Accepts p P' input rest := by
  intro start
  obtain ⟨x, stop, htakes, hx⟩ := h start
  exact ⟨x, stop, htakes, himp x hx⟩

theorem Accepts.bind {f : α → Recognize β} (h : Accepts p P input mid)
    (hf : ∀ x, P x → Accepts (f x) Q mid rest) : Accepts (p >>= f) Q input rest := by
  intro start
  obtain ⟨x, stop, htakes, hx⟩ := h start
  obtain ⟨y, stop', htakes', hy⟩ := hf x hx stop
  exact ⟨y, stop', htakes.bind htakes', hy⟩

theorem Accepts.orElse (h : Accepts p P input rest) : Accepts (p <|> q) P input rest := by
  intro start
  obtain ⟨x, stop, htakes, hx⟩ := h start
  exact ⟨x, stop, htakes.orElse, hx⟩

theorem Rejects.orElse (h : Rejects p input) (h' : Accepts q P input rest) :
    Accepts (p <|> q) P input rest := by
  intro start
  obtain ⟨x, stop, htakes, hx⟩ := h' start
  exact ⟨x, stop, (h start).orElse htakes, hx⟩

theorem Accepts.construct {c : Construct} (h : Accepts p P input rest) :
    Accepts (construct c p) P input rest := by
  intro start
  obtain ⟨x, stop, htakes, hx⟩ := h start
  exact ⟨x, stop, htakes.construct, hx⟩

theorem Accepts.spanned (h : Accepts p P input rest) :
    Accepts (spanned p) (fun y => P y.1) input rest := by
  intro start
  obtain ⟨x, stop, htakes, hx⟩ := h start
  exact ⟨_, stop, htakes.spanned, hx⟩

theorem Rejects.bind {f : α → Recognize β} (h : Rejects p input) : Rejects (p >>= f) input :=
  fun start => (h start).bind

theorem Accepts.rejects_bind {f : α → Recognize β} (h : Accepts p P input mid)
    (hf : ∀ x, P x → Rejects (f x) mid) : Rejects (p >>= f) input := by
  intro start
  obtain ⟨x, stop, htakes, hx⟩ := h start
  exact htakes.refuses_bind (hf x hx stop)

theorem Rejects.construct {c : Construct} (h : Rejects p input) : Rejects (construct c p) input :=
  fun start => (h start).construct

theorem Rejects.spanned (h : Rejects p input) : Rejects (spanned p) input :=
  fun start => (h start).spanned

theorem Rejects.first {ps : List (Recognize α)} (h : ∀ p ∈ ps, Rejects p input) :
    Rejects (first ps) input :=
  fun start => Refuses.first fun p hp => h p hp start

/-- Of several steps, one succeeds if those before it fail. -/
theorem Accepts.first {before after : List (Recognize α)} (h : Accepts p P input rest)
    (hbefore : ∀ q ∈ before, Rejects q input) :
    Accepts (first (before ++ p :: after)) P input rest := by
  induction before with
  | nil => exact h.orElse
  | cons q before ih =>
      exact (hbefore q List.mem_cons_self).orElse
        (ih fun r hr => hbefore r (List.mem_cons_of_mem q hr))

theorem Repeatedly.nil {P : List α → Prop} (h : P []) : Repeatedly p P rest rest :=
  fun start => ⟨[], start, .nil, h, Nat.le_of_eq (Nat.zero_add _)⟩

theorem Repeatedly.cons {Ps R : List α → Prop} (h : Accepts p P input mid)
    (hlength : mid.length < input.length) (hmore : Repeatedly p Ps mid rest)
    (hcons : ∀ x xs, P x → Ps xs → R (x :: xs)) : Repeatedly p R input rest := by
  intro start
  obtain ⟨x, stop, htakes, hx⟩ := h start
  obtain ⟨xs, stop', hrepeats, hxs, hle⟩ := hmore stop
  refine ⟨x :: xs, stop', .cons htakes hrepeats, hcons x xs hx hxs, ?_⟩
  rw [List.length_cons]
  omega

theorem Repeatedly.many {P : List α → Prop} (h : Repeatedly p P input rest)
    (hstop : Rejects p rest) : Accepts (many p) P input rest := by
  intro start
  obtain ⟨xs, stop, hrepeats, hxs, hle⟩ := h start
  refine ⟨xs, stop, Takes.many hrepeats (hstop stop) ?_, hxs⟩
  exact Nat.le_succ_of_le (Nat.le_trans (Nat.le_add_right _ _) hle)

theorem Rejects.many (h : Rejects p input) : Accepts (Recognize.many p) (· = []) input input :=
  Repeatedly.many (Repeatedly.nil rfl) h

/-- A step that takes each of several parts takes them one after another. -/
theorem accepts_many_parts {p : Recognize (List Char)} {parts : List (List Char)}
    (hparts : ∀ part ∈ parts, part ≠ [] ∧ ∀ more, Accepts p (· = part) (part ++ more) more)
    (hstop : Rejects p rest) : Accepts (many p) (· = parts) (parts.flatten ++ rest) rest := by
  refine Repeatedly.many ?_ hstop
  induction parts with
  | nil => exact Repeatedly.nil rfl
  | cons part parts ih =>
      obtain ⟨hne, htakes⟩ := hparts part List.mem_cons_self
      have hmore := ih fun part hpart => hparts part (List.mem_cons_of_mem _ hpart)
      rw [List.flatten_cons, List.append_assoc]
      refine Repeatedly.cons (htakes _) ?_ hmore fun x xs hx hxs => by rw [hx, hxs]
      have := List.length_pos_iff.2 hne
      simp only [List.length_append]
      omega

end Steps

/-! ### Characters -/

section Characters

variable {test : Char → Bool} {c : Char} {cs rest : List Char}

theorem accepts_satisfy (h : test c = true) : Accepts (satisfy test) (· = c) (c :: rest) rest :=
  fun _ => ⟨c, _, takes_satisfy h, rfl⟩

theorem rejects_satisfy (h : ∀ c ∈ rest.head?, test c = false) : Rejects (satisfy test) rest :=
  fun _ => refuses_satisfy h

theorem accepts_char (c : Char) : Accepts (char c) (fun _ => True) (c :: rest) rest :=
  fun _ => ⟨(), _, takes_char, trivial⟩

theorem rejects_char (h : ∀ d ∈ rest.head?, d ≠ c) : Rejects (char c) rest :=
  Rejects.bind (rejects_satisfy fun d hd => beq_false_of_ne (h d hd))

theorem accepts_text (cs : List Char) : Accepts (text cs) (fun _ => True) (cs ++ rest) rest := by
  induction cs with
  | nil => exact Accepts.pure trivial
  | cons c cs ih => exact (accepts_char c).bind fun _ _ => ih

theorem rejects_text (h : ¬ cs <+: rest) : Rejects (text cs) rest := by
  induction cs generalizing rest with
  | nil => exact absurd List.nil_prefix h
  | cons c cs ih =>
      cases rest with
      | nil => exact Rejects.bind (rejects_char nofun)
      | cons d rest =>
          by_cases hd : d = c
          · subst hd
            exact (accepts_char d).rejects_bind fun _ _ =>
              ih fun hfront => h (List.prefix_cons_inj d |>.2 hfront)
          · exact Rejects.bind (rejects_char fun e he => by cases he; exact hd)

theorem accepts_run (hcs : ∀ c ∈ cs, test c = true) (hrest : ∀ c ∈ rest.head?, test c = false) :
    Accepts (run test) (· = cs) (cs ++ rest) rest :=
  fun _ => ⟨cs, _, takes_run hcs hrest, rfl⟩

theorem accepts_run1 (hne : cs ≠ []) (hcs : ∀ c ∈ cs, test c = true)
    (hrest : ∀ c ∈ rest.head?, test c = false) :
    Accepts (run1 test) (· = cs) (cs ++ rest) rest :=
  fun _ => ⟨cs, _, takes_run1 hne hcs hrest, rfl⟩

theorem rejects_run1 (h : ∀ c ∈ rest.head?, test c = false) : Rejects (run1 test) rest := by
  refine (@accepts_run test [] rest nofun h).rejects_bind fun cs hcs => ?_
  subst hcs
  exact fun start a => ⟨a, outcome_fail⟩

theorem accepts_blanks (hcs : ∀ c ∈ cs, isBlank c = true)
    (hrest : ∀ c ∈ rest.head?, isBlank c = false) :
    Accepts blanks (fun _ => True) (cs ++ rest) rest :=
  (accepts_run hcs hrest).bind fun _ _ => Accepts.pure trivial

theorem accepts_no_blanks (h : ∀ c ∈ rest.head?, isBlank c = false) :
    Accepts blanks (fun _ => True) rest rest :=
  @accepts_blanks [] rest nofun h

theorem accepts_isNotNext (h : ∀ d ∈ rest.head?, d ≠ c) :
    Accepts (isNotNext c) (fun _ => True) rest rest := by
  intro start
  refine ⟨(), start, fun a => ⟨a, ?_⟩, trivial⟩
  rw [isNotNext, outcome_bind_of_some outcome_get]
  cases rest with
  | nil => rfl
  | cons d rest => simp only [beq_false_of_ne (h d rfl), Bool.false_eq_true, if_false, outcome_pure]

end Characters

end Recognize

open Recognize

/-! ### What may follow -/

/-- Neither a name nor a number goes on here. -/
def Ends (rest : List Char) : Prop :=
  ∀ c ∈ rest.head?, continuesName c = false ∧ c ≠ '.'

/-- Behind blanks there is no parenthesis that would turn a name into a call. -/
def NoCall (rest : List Char) : Prop :=
  ∀ c ∈ (rest.dropWhile isBlank).head?, c ≠ '('

section Endings

variable {c : Char} {cs rest : List Char}

theorem forall_mem_of_all {P : Char → Prop} [DecidablePred P] (h : cs.all (P ·) = true) :
    ∀ c ∈ cs, P c :=
  fun c hc => of_decide_eq_true (List.all_eq_true.1 h c hc)

theorem forall_mem_head {P : Char → Prop} (h : P c) : ∀ d ∈ (c :: rest).head?, P d := by
  intro d hd
  cases hd
  exact h

/-- What holds of all characters of a part holds of the first one of a text that starts with
it. -/
theorem forall_mem_head_append {P : Char → Prop} (hne : cs ≠ []) (h : ∀ c ∈ cs, P c) :
    ∀ c ∈ (cs ++ rest).head?, P c := by
  obtain ⟨d, ds, rfl⟩ := List.exists_cons_of_ne_nil hne
  exact forall_mem_head (h d List.mem_cons_self)

/-- A character that passes a test is none of those that do not. -/
theorem ne_of_test {test : Char → Bool} {d : Char} (h : test c = true) (hd : test d = false) :
    c ≠ d := by
  rintro rfl
  exact Bool.false_ne_true (hd.symm.trans h)

theorem startsName_of_isDigit (h : c.isDigit = true) : startsName c = false := by
  simp only [Char.isDigit, Bool.and_eq_true, decide_eq_true_eq, UInt32.le_iff_toNat_le,
    ge_iff_le] at h
  have hnine : '9'.val.toNat = 57 := rfl
  have hbig : 'A'.val.toNat = 65 := rfl
  have hsmall : 'a'.val.toNat = 97 := rfl
  have hupper : ¬ c.val ≥ 'A'.val := by
    rw [ge_iff_le, UInt32.le_iff_toNat_le]
    omega
  have hlower : ¬ c.val ≥ 'a'.val := by
    rw [ge_iff_le, UInt32.le_iff_toNat_le]
    omega
  have halpha : c.isAlpha = false :=
    Bool.or_eq_false_iff.2 ⟨decide_eq_false fun h => hupper h.1,
      Bool.and_eq_false_iff.2 (.inl (decide_eq_false hlower))⟩
  have hline : c ≠ '_' := by
    rintro rfl
    have : '_'.val.toNat = 95 := rfl
    omega
  rw [startsName, halpha, beq_false_of_ne hline]
  rfl

/-- A run of characters of one sort ends where another sort begins. -/
theorem takeWhile_dropWhile_append {test : Char → Bool} (hcs : ∀ c ∈ cs, test c = true)
    (hrest : ∀ c ∈ rest.head?, test c = false) :
    (cs ++ rest).takeWhile test = cs ∧ (cs ++ rest).dropWhile test = rest := by
  rw [List.takeWhile_append_of_pos hcs, List.dropWhile_append_of_pos hcs]
  cases rest with
  | nil => exact ⟨List.append_nil _, rfl⟩
  | cons c rest =>
      have hc : ¬ test c = true := by rw [hrest c rfl]; exact Bool.false_ne_true
      rw [List.takeWhile_cons_of_neg hc, List.dropWhile_cons_of_neg hc]
      exact ⟨List.append_nil _, rfl⟩

theorem ends_of_isBlank (h : isBlank c = true) : continuesName c = false ∧ c ≠ '.' := by
  simp only [isBlank, Bool.or_eq_true, beq_iff_eq] at h
  obtain ((rfl | rfl) | rfl) | rfl := h <;> decide

theorem Ends.isDigit (h : Ends rest) : ∀ c ∈ rest.head?, c.isDigit = false := by
  intro c hc
  have := (h c hc).1
  rw [continuesName, Bool.or_eq_false_iff] at this
  exact this.2

theorem Ends.ne_of_continuesName (h : Ends rest) {d : Char} (hd : continuesName d = true) :
    ∀ c ∈ rest.head?, c ≠ d := by
  rintro c hc rfl
  exact Bool.false_ne_true ((h c hc).1.symm.trans hd)

end Endings

/-! ### Names and numbers -/

section Numbers

variable {c : Char} {cs e rest : List Char}

theorem accepts_name (h : IsName cs) (hrest : Ends rest) :
    Accepts name (· = cs) (cs ++ rest) rest := by
  cases h with
  | cons hstart hcontinue =>
      refine Accepts.construct ((accepts_satisfy hstart).bind fun c hc => ?_)
      refine (accepts_run hcontinue fun d hd => (hrest d hd).1).bind fun ds hds => ?_
      exact Accepts.pure (by rw [hc, hds])

theorem rejects_name (h : ∀ c ∈ rest.head?, startsName c = false) : Rejects name rest :=
  Rejects.construct (Rejects.bind (rejects_satisfy h))

theorem accepts_digits (h : IsDigits cs) (hrest : ∀ c ∈ rest.head?, c.isDigit = false) :
    Accepts (run1 Char.isDigit) (· = cs) (cs ++ rest) rest :=
  accepts_run1 h.1 h.2 hrest

theorem rejects_exponent (h : ∀ c ∈ rest.head?, c ≠ 'e' ∧ c ≠ 'E') : Rejects exponent rest :=
  Rejects.bind (rejects_satisfy fun c hc => by
    rw [beq_false_of_ne (h c hc).1, beq_false_of_ne (h c hc).2]
    rfl)

theorem accepts_exponent (h : IsExponent e) (hrest : Ends rest) :
    Accepts exponent (· = e) (e ++ rest) rest := by
  cases h with
  | @unsigned letter digits hletter hdigits =>
      refine (accepts_satisfy hletter).bind fun c hc => ?_
      have hsign : Rejects (do pure [← satisfy fun c => c == '+' || c == '-'])
          (digits ++ rest) := by
        refine Rejects.bind (rejects_satisfy (forall_mem_head_append hdigits.1 fun d hd => ?_))
        have hdigit := hdigits.2 d hd
        rw [beq_false_of_ne (ne_of_test hdigit rfl), beq_false_of_ne (ne_of_test hdigit rfl)]
        rfl
      have hnone : Accepts ((do pure [← satisfy fun c => c == '+' || c == '-']) <|> pure [])
          (· = []) (digits ++ rest) (digits ++ rest) := hsign.orElse (Accepts.pure rfl)
      refine hnone.bind fun sign hsign => ?_
      refine (accepts_digits hdigits hrest.isDigit).bind fun ds hds => ?_
      exact Accepts.pure (by rw [hc, hsign, hds]; rfl)
  | @signed letter sign digits hletter hsign hdigits =>
      refine (accepts_satisfy hletter).bind fun c hc => ?_
      have hsome : Accepts ((do pure [← satisfy fun c => c == '+' || c == '-']) <|> pure [])
          (· = [sign]) (sign :: (digits ++ rest)) (digits ++ rest) :=
        Accepts.orElse ((accepts_satisfy hsign).bind fun s hs => Accepts.pure (by rw [hs]))
      refine hsome.bind fun sign hsign => ?_
      refine (accepts_digits hdigits hrest.isDigit).bind fun ds hds => ?_
      exact Accepts.pure (by rw [hc, hsign, hds]; rfl)

theorem accepts_optionalExponent (h : e = [] ∨ IsExponent e) (hrest : Ends rest) :
    Accepts (exponent <|> pure []) (· = e) (e ++ rest) rest := by
  rcases h with rfl | h
  · refine Rejects.orElse (rejects_exponent fun c hc => ?_) (Accepts.pure rfl)
    exact ⟨hrest.ne_of_continuesName rfl c hc, hrest.ne_of_continuesName rfl c hc⟩
  · exact (accepts_exponent h hrest).orElse

/-- The text begins with an exponent, which is no digit and no point. -/
theorem exponent_head (h : IsExponent e) :
    ∀ c ∈ (e ++ rest).head?, c.isDigit = false ∧ c ≠ '.' := by
  have hletter : ∀ {c : Char}, (c == 'e' || c == 'E') = true → c.isDigit = false ∧ c ≠ '.' := by
    intro c hc
    rcases Bool.or_eq_true _ _ ▸ hc with hc | hc
    · obtain rfl := eq_of_beq hc
      decide
    · obtain rfl := eq_of_beq hc
      decide
  cases h with
  | unsigned he _ => exact forall_mem_head (hletter he)
  | signed he _ _ => exact forall_mem_head (hletter he)

/-- A number with a point or an exponent begins with a digit or a point. -/
theorem float_head (h : IsFloat cs) :
    ∀ c ∈ (cs ++ rest).head?, c.isDigit = true ∨ c = '.' := by
  have hdigits : ∀ {ds more : List Char}, IsDigits ds →
      ∀ c ∈ (ds ++ more).head?, c.isDigit = true ∨ c = '.' := fun hds =>
    forall_mem_head_append hds.1 fun c hc => .inl (hds.2 c hc)
  cases h with
  | point hwhole =>
      rw [List.append_assoc, List.append_assoc]
      exact hdigits hwhole
  | leadingPoint => exact forall_mem_head (.inr rfl)
  | exponent hwhole =>
      rw [List.append_assoc]
      exact hdigits hwhole

theorem name_head (h : IsName cs) : ∀ c ∈ (cs ++ rest).head?, startsName c = true := by
  cases h with
  | cons hstart => exact forall_mem_head hstart

theorem optionalExponent_head (h : e = [] ∨ IsExponent e) (hrest : Ends rest) :
    ∀ c ∈ (e ++ rest).head?, c.isDigit = false := by
  rcases h with rfl | h
  · exact hrest.isDigit
  · exact fun c hc => (exponent_head h c hc).1

theorem accepts_float (h : IsFloat cs) (hrest : Ends rest) :
    Accepts float (· = cs) (cs ++ rest) rest := by
  cases h with
  | @point whole fraction e hwhole hfraction he =>
      simp only [List.append_assoc, List.cons_append]
      refine Accepts.construct (Accepts.orElse ?_)
      refine (accepts_digits hwhole (forall_mem_head rfl)).bind fun ds hds => ?_
      refine (accepts_char '.').bind fun _ _ => ?_
      refine (accepts_run hfraction (optionalExponent_head he hrest)).bind fun fs hfs => ?_
      refine (accepts_optionalExponent he hrest).bind fun es hes => ?_
      exact Accepts.pure (by rw [hds, hfs, hes, List.append_assoc, List.cons_append])
  | @leadingPoint fraction e hfraction he =>
      rw [List.append_assoc, List.cons_append]
      have hwhole : Rejects (run1 Char.isDigit) ('.' :: (fraction ++ (e ++ rest))) :=
        rejects_run1 (forall_mem_head rfl)
      refine Accepts.construct (hwhole.bind.orElse (Accepts.orElse ?_))
      refine (accepts_char '.').bind fun _ _ => ?_
      refine (accepts_digits hfraction (optionalExponent_head he hrest)).bind fun fs hfs => ?_
      refine (accepts_optionalExponent he hrest).bind fun es hes => ?_
      exact Accepts.pure (by rw [hfs, hes]; rfl)
  | @exponent whole e hwhole he =>
      rw [List.append_assoc]
      have hhead := @exponent_head e rest he
      have hdigits : Accepts (run1 Char.isDigit) (· = whole) (whole ++ (e ++ rest)) (e ++ rest) :=
        accepts_digits hwhole fun c hc => (hhead c hc).1
      refine Accepts.construct (Rejects.orElse (hdigits.rejects_bind fun _ _ =>
        Rejects.bind (rejects_char fun c hc => (hhead c hc).2)) ?_)
      have hpoint : ∀ c ∈ (whole ++ (e ++ rest)).head?, c ≠ '.' :=
        forall_mem_head_append hwhole.1 fun c hc => ne_of_test (hwhole.2 c hc) rfl
      refine Rejects.orElse (Rejects.bind (rejects_char hpoint)) (Accepts.orElse ?_)
      refine hdigits.bind fun ds hds => (accepts_exponent he hrest).bind fun es hes => ?_
      exact Accepts.pure (by rw [hds, hes])

theorem rejects_float (h : ∀ c ∈ rest.head?, c.isDigit = false ∧ c ≠ '.') :
    Rejects float rest := by
  refine Rejects.construct (Rejects.first fun p hp => ?_)
  simp only [List.mem_cons, List.not_mem_nil, or_false] at hp
  obtain rfl | rfl | rfl := hp
  · exact Rejects.bind (rejects_run1 fun c hc => (h c hc).1)
  · exact Rejects.bind (rejects_char fun c hc => (h c hc).2)
  · exact Rejects.bind (rejects_run1 fun c hc => (h c hc).1)

/-- Digits alone are no number with a point or an exponent. -/
theorem rejects_float_of_isDigits (h : IsDigits cs) (hrest : Ends rest) :
    Rejects float (cs ++ rest) := by
  have hdigits := accepts_digits h hrest.isDigit
  refine Rejects.construct (Rejects.first fun p hp => ?_)
  simp only [List.mem_cons, List.not_mem_nil, or_false] at hp
  obtain rfl | rfl | rfl := hp
  · exact hdigits.rejects_bind fun _ _ => Rejects.bind (rejects_char fun c hc => (hrest c hc).2)
  · exact Rejects.bind (rejects_char (forall_mem_head_append h.1 fun c hc =>
      ne_of_test (h.2 c hc) rfl))
  · refine hdigits.rejects_bind fun _ _ => Rejects.bind (rejects_exponent fun c hc => ?_)
    exact ⟨hrest.ne_of_continuesName rfl c hc, hrest.ne_of_continuesName rfl c hc⟩

end Numbers

/-! ### Texts and references -/

section Delimited

variable {c : Char} {cs rest : List Char} {allowed : Char → Bool} {delimiter : Char}

theorem accepts_escapeOf (h : allowed c = true) :
    Accepts (escapeOf allowed) (· = ['\\', c]) ('\\' :: c :: rest) rest :=
  (accepts_char '\\').bind fun _ _ =>
    (accepts_satisfy h).bind fun d hd => Accepts.pure (by rw [hd])

theorem rejects_escapeOf (h : ∀ c ∈ rest.head?, c ≠ '\\') : Rejects (escapeOf allowed) rest :=
  Rejects.bind (rejects_char h)

/-- A backslash with a character that it cannot escape is no escape. -/
theorem rejects_escapeOf_of_not_allowed (h : allowed c = false) :
    Rejects (escapeOf allowed) ('\\' :: c :: rest) :=
  (accepts_char '\\').rejects_bind fun _ _ =>
    Rejects.bind (rejects_satisfy (forall_mem_head h))

theorem accepts_plainBefore (hdelimiter : c ≠ delimiter) (hescape : c ≠ '\\') :
    Accepts (plainBefore delimiter) (· = [c]) (c :: rest) rest := by
  refine (accepts_satisfy ?_).bind fun d hd => Accepts.pure (by rw [hd])
  rw [Bool.and_eq_true, bne_iff_ne, bne_iff_ne]
  exact ⟨hdelimiter, hescape⟩

theorem rejects_plainBefore : Rejects (plainBefore delimiter) (delimiter :: rest) :=
  Rejects.bind (rejects_satisfy (forall_mem_head (by rw [bne_self_eq_false, Bool.false_and])))

theorem accepts_unicodeEscape {a b d : Char} (ha : isHexDigit a = true)
    (hb : isHexDigit b = true) (hc : isHexDigit c = true) (hd : isHexDigit d = true) :
    Accepts unicodeEscape (· = ['\\', 'u', a, b, c, d])
      ('\\' :: 'u' :: a :: b :: c :: d :: rest) rest := by
  refine (accepts_text ['\\', 'u']).bind fun _ _ => ?_
  refine (accepts_satisfy ha).bind fun a' ha' => (accepts_satisfy hb).bind fun b' hb' => ?_
  refine (accepts_satisfy hc).bind fun c' hc' => (accepts_satisfy hd).bind fun d' hd' => ?_
  exact Accepts.pure (by rw [ha', hb', hc', hd'])

theorem rejects_unicodeEscape (h : ∀ c ∈ rest.head?, c ≠ '\\') : Rejects unicodeEscape rest :=
  Rejects.bind (Rejects.bind (rejects_char h))

theorem AttributePart.ne_nil (h : AttributePart cs) : cs ≠ [] := by
  cases h with
  | plain => exact List.cons_ne_nil _ _
  | escape => exact List.cons_ne_nil _ _

theorem TextPart.ne_nil (h : TextPart cs) : cs ≠ [] := by
  cases h with
  | plain => exact List.cons_ne_nil _ _
  | escape => exact List.cons_ne_nil _ _
  | unicode => exact List.cons_ne_nil _ _

theorem accepts_bracketed {parts : List (List Char)} (hne : parts ≠ [])
    (hparts : ∀ part ∈ parts, AttributePart part) :
    Accepts bracketed (· = parts.flatten) ('[' :: (parts.flatten ++ ']' :: rest)) rest := by
  have hmany := @accepts_many_parts (']' :: rest)
    (first [escapeOf fun c => c == '[' || c == ']' || c == '\\', plainBefore ']']) parts
    (fun part hpart => ⟨(hparts part hpart).ne_nil, fun more => ?part⟩) ?stop
  case part =>
    cases hparts part hpart with
    | plain hclose hescape =>
        exact (rejects_escapeOf (forall_mem_head hescape)).orElse
          (accepts_plainBefore hclose hescape).orElse
    | escape hallowed => exact (accepts_escapeOf hallowed).orElse
  case stop =>
    refine Rejects.first fun p hp => ?_
    simp only [List.mem_cons, List.not_mem_nil, or_false] at hp
    obtain rfl | rfl := hp
    · exact rejects_escapeOf (forall_mem_head (by decide))
    · exact rejects_plainBefore
  have hname : Accepts (do
      let parts ← many (first
        [escapeOf fun c => c == '[' || c == ']' || c == '\\', plainBefore ']'])
      if parts.isEmpty then fail else pure parts) (· = parts) (parts.flatten ++ ']' :: rest)
      (']' :: rest) := by
    refine hmany.bind fun found hfound => ?_
    subst hfound
    rw [if_neg (by rwa [List.isEmpty_iff])]
    exact Accepts.pure rfl
  refine Accepts.construct ((accepts_char '[').bind fun _ _ => ?_)
  refine hname.construct.bind fun found hfound => ?_
  exact (accepts_char ']').bind fun _ _ => Accepts.pure (by rw [hfound])

theorem accepts_quotedText {parts : List (List Char)} (hparts : ∀ part ∈ parts, TextPart part) :
    Accepts quotedText (· = parts.flatten) ('"' :: (parts.flatten ++ '"' :: rest)) rest := by
  have hmany := @accepts_many_parts ('"' :: rest)
    (first
      [ escapeOf fun c => c == '"' || c == '\\' || c == 'n' || c == 'r' || c == 't',
        unicodeEscape,
        plainBefore '"' ]) parts
    (fun part hpart => ⟨(hparts part hpart).ne_nil, fun more => ?part⟩) ?stop
  case part =>
    cases hparts part hpart with
    | plain hquote hescape =>
        exact (rejects_escapeOf (forall_mem_head hescape)).orElse
          ((rejects_unicodeEscape (forall_mem_head hescape)).orElse
            (accepts_plainBefore hquote hescape).orElse)
    | escape hallowed => exact (accepts_escapeOf hallowed).orElse
    | unicode ha hb hc hd =>
        exact (rejects_escapeOf_of_not_allowed rfl).orElse
          (accepts_unicodeEscape ha hb hc hd).orElse
  case stop =>
    refine Rejects.first fun p hp => ?_
    simp only [List.mem_cons, List.not_mem_nil, or_false] at hp
    obtain rfl | rfl | rfl := hp
    · exact rejects_escapeOf (forall_mem_head (by decide))
    · exact rejects_unicodeEscape (forall_mem_head (by decide))
    · exact rejects_plainBefore
  refine Accepts.construct ((accepts_char '"').bind fun _ _ => ?_)
  refine (Accepts.construct hmany).bind fun found hfound => ?_
  exact (accepts_char '"').bind fun _ _ => Accepts.pure (by rw [hfound])

theorem rejects_bracketed (h : ∀ c ∈ rest.head?, c ≠ '[') : Rejects bracketed rest :=
  Rejects.construct (Rejects.bind (rejects_char h))

theorem rejects_macroReference (h : ∀ c ∈ rest.head?, c ≠ '%') : Rejects macroReference rest :=
  Rejects.construct (Rejects.bind (Rejects.bind (rejects_char h)))

theorem rejects_quotedText (h : ∀ c ∈ rest.head?, c ≠ '"') : Rejects quotedText rest :=
  Rejects.construct (Rejects.bind (rejects_char h))

theorem accepts_macroReference (h : IsMacroName cs) :
    Accepts macroReference (· = cs) ('%' :: '\x7b' :: (cs ++ '\x7d' :: rest)) rest := by
  intro start
  obtain ⟨stop, htakes⟩ := @takes_macroReference cs rest start h
  exact ⟨cs, stop, htakes, rfl⟩

end Delimited

/-! ### Operands without parts -/

section Leaves

variable {inner : Recognize Chain} {c : Char} {cs rest : List Char}

theorem rejects_group (h : ∀ c ∈ rest.head?, c ≠ '(') : Rejects (group inner) rest :=
  Rejects.bind (Rejects.spanned (Rejects.construct (Rejects.bind (rejects_char h))))

theorem rejects_call (h : ∀ c ∈ rest.head?, startsName c = false) : Rejects (call inner) rest :=
  Rejects.bind (Rejects.spanned (Rejects.construct (Rejects.bind (rejects_name h))))

/-- A name without a parenthesis behind it is no call. -/
theorem rejects_call_of_noCall (h : IsName cs) (hrest : Ends rest) (hcall : NoCall rest) :
    Rejects (call inner) (cs ++ rest) := by
  have hblanks : Accepts blanks (fun _ => True) rest (rest.dropWhile isBlank) := by
    have hsplit := @accepts_blanks (rest.takeWhile isBlank) (rest.dropWhile isBlank)
      (fun c hc => List.all_eq_true.1 List.all_takeWhile c hc) (fun c hc => ?_)
    · rwa [List.takeWhile_append_dropWhile] at hsplit
    · have := List.head?_dropWhile_not isBlank rest
      rw [hc] at this
      simpa using this
  refine Rejects.bind (Rejects.spanned (Rejects.construct ?_))
  exact (accepts_name h hrest).rejects_bind fun _ _ =>
    hblanks.rejects_bind fun _ _ => Rejects.bind (rejects_char hcall)

theorem rejects_leaf {make : List Char → Leaf} {step : Recognize (List Char)}
    (h : Rejects step rest) : Rejects (leaf make step) rest :=
  Rejects.bind h.spanned

theorem accepts_leafOf {make : List Char → Leaf} {step : Recognize (List Char)}
    {input : List Char} (h : Accepts step (· = cs) input rest) :
    Accepts (leaf make step) (fun p => ∃ span, p = .leaf (make cs) span) input rest :=
  h.spanned.bind fun y hy => Accepts.pure ⟨y.2, by rw [hy]⟩

/-- A number is not taken for anything that the grammar tries before numbers. -/
theorem accepts_number {make : List Char → Leaf} {steps : List (Recognize Primary)}
    (hhead : ∀ c ∈ (cs ++ rest).head?, c.isDigit = true ∨ c = '.')
    (h : Accepts (first steps) (fun p => ∃ span, p = .leaf (make cs) span) (cs ++ rest) rest) :
    Accepts (first ([group inner, call inner, leaf .attributeRef bracketed,
      leaf .macroRef macroReference] ++ steps)) (fun p => ∃ span, p = .leaf (make cs) span)
      (cs ++ rest) rest := by
  have hne : ∀ d, d.isDigit = false → d ≠ '.' → ∀ c ∈ (cs ++ rest).head?, c ≠ d := by
    rintro d hd hpoint c hc rfl
    rcases hhead c hc with hdigit | rfl
    · exact Bool.false_ne_true (hd.symm.trans hdigit)
    · exact hpoint rfl
  have hname : ∀ c ∈ (cs ++ rest).head?, startsName c = false := by
    intro c hc
    rcases hhead c hc with hdigit | rfl
    · exact startsName_of_isDigit hdigit
    · rfl
  exact (rejects_group (hne '(' rfl (by decide))).orElse ((rejects_call hname).orElse
    ((rejects_leaf (rejects_bracketed (hne '[' rfl (by decide)))).orElse
      ((rejects_leaf (rejects_macroReference (hne '%' rfl (by decide)))).orElse h)))

/-- The text of an operand without parts is taken as that operand, whatever alternatives are
tried before it. -/
theorem accepts_leaf {leaf : Leaf} (h : SpellsLeaf cs leaf) (hrest : Ends rest)
    (hcall : NoCall rest) :
    Accepts (primary inner) (fun p => ∃ span, p = .leaf leaf span) (cs ++ rest) rest := by
  cases h with
  | @attributeRef parts hne hparts =>
      have hleaf := @accepts_bracketed rest parts hne hparts
      rw [List.append_assoc]
      exact (rejects_group (forall_mem_head (by decide))).orElse
        ((rejects_call (forall_mem_head rfl)).orElse (accepts_leafOf hleaf).orElse)
  | @macroRef macroName hname =>
      have hleaf := @accepts_macroReference macroName rest hname
      rw [List.append_assoc]
      exact (rejects_group (forall_mem_head (by decide))).orElse
        ((rejects_call (forall_mem_head rfl)).orElse
          ((rejects_leaf (rejects_bracketed (forall_mem_head (by decide)))).orElse
            (accepts_leafOf hleaf).orElse))
  | float hdigits =>
      exact accepts_number (float_head hdigits)
        (accepts_leafOf (accepts_float hdigits hrest)).orElse
  | integer hdigits =>
      have hinteger : Accepts integer (· = cs) (cs ++ rest) rest :=
        (accepts_digits hdigits hrest.isDigit).construct
      exact accepts_number (forall_mem_head_append hdigits.1 fun c hc => .inl (hdigits.2 c hc))
        ((rejects_leaf (rejects_float_of_isDigits hdigits hrest)).orElse
          (accepts_leafOf hinteger).orElse)
  | @string parts hparts =>
      have hleaf := @accepts_quotedText rest parts hparts
      rw [List.append_assoc]
      refine (rejects_group (forall_mem_head (by decide))).orElse
        ((rejects_call (forall_mem_head rfl)).orElse ?_)
      refine (rejects_leaf (rejects_bracketed (forall_mem_head (by decide)))).orElse
        ((rejects_leaf (rejects_macroReference (forall_mem_head (by decide)))).orElse ?_)
      exact (rejects_leaf (rejects_float (forall_mem_head ⟨rfl, by decide⟩))).orElse
        ((rejects_leaf (Rejects.construct (rejects_run1 (forall_mem_head rfl)))).orElse
          (accepts_leafOf hleaf).orElse)
  | ident hname =>
      have hhead : ∀ c ∈ (cs ++ rest).head?, startsName c = true := name_head hname
      have hne : ∀ d, startsName d = false → ∀ c ∈ (cs ++ rest).head?, c ≠ d :=
        fun d hd c hc => ne_of_test (hhead c hc) hd
      have hdigit : ∀ c ∈ (cs ++ rest).head?, c.isDigit = false := fun c hc =>
        Bool.eq_false_iff.2 fun hdigit =>
          Bool.false_ne_true ((startsName_of_isDigit hdigit).symm.trans (hhead c hc))
      refine (rejects_group (hne '(' rfl)).orElse
        ((rejects_call_of_noCall hname hrest hcall).orElse ?_)
      refine (rejects_leaf (rejects_bracketed (hne '[' rfl))).orElse
        ((rejects_leaf (rejects_macroReference (hne '%' rfl))).orElse ?_)
      refine (rejects_leaf (rejects_float fun c hc => ⟨hdigit c hc, hne '.' rfl c hc⟩)).orElse
        ((rejects_leaf (Rejects.construct (rejects_run1 hdigit))).orElse ?_)
      exact (rejects_leaf (rejects_quotedText (hne '"' rfl))).orElse
        (accepts_leafOf (accepts_name hname hrest)).orElse

end Leaves

/-! ### Operators -/

/-- Blanks that separate tokens. -/
def IsGap (gap : List Char) : Prop := gap ≠ [] ∧ ∀ c ∈ gap, isBlank c = true

/-- Neither blanks nor an operator begin here, nor a character that would make another operator
out of the one in front of it. -/
def Begins (input : List Char) : Prop :=
  ∀ c ∈ input.head?, isBlank c = false ∧ c ∉ ['-', '+', '!', '=', '\x7b']

/-- No further operand is joined to what stands before: behind blanks there is a closing
parenthesis, a comma or nothing. -/
def Closes (rest : List Char) : Prop :=
  ∃ gap more, rest = gap ++ more ∧ (∀ c ∈ gap, isBlank c = true) ∧
    ∀ c ∈ more.head?, c = ')' ∨ c = ','

section Operators

variable {gap cs more rest : List Char}

theorem Begins.isBlank (h : Begins more) : ∀ c ∈ more.head?, isBlank c = false :=
  fun c hc => (h c hc).1

theorem Begins.ne (h : Begins more) {d : Char} (hd : d ∈ ['-', '+', '!', '=', '\x7b']) :
    ∀ c ∈ more.head?, c ≠ d := by
  rintro c hc rfl
  exact (h c hc).2 hd

/-- Blanks behind an operator and a token behind them, neither of which makes another operator
out of the one in front. -/
structure Separates (gap more : List Char) : Prop where
  blanks : ∀ c ∈ gap, isBlank c = true
  token : ∀ c ∈ more.head?, isBlank c = false ∧ c ≠ '=' ∧ c ≠ '\x7b'
  front : ∀ c ∈ (gap ++ more).head?, c ∉ ['=', '&', '|']

theorem IsGap.separates (hgap : IsGap gap) (hmore : Begins more) : Separates gap more where
  blanks := hgap.2
  token c hc := ⟨hmore.isBlank c hc, hmore.ne (by decide) c hc, hmore.ne (by decide) c hc⟩
  front := by
    refine forall_mem_head_append hgap.1 fun c hc hmem => ?_
    have hblank : ∀ d ∈ ['=', '&', '|'], isBlank d = false := forall_mem_of_all rfl
    exact Bool.false_ne_true ((hblank c hmem).symm.trans (hgap.2 c hc))

/-- A text that is no beginning of an operator is none either of the operator with something
behind it, unless it goes on with that. -/
theorem not_prefix_append {ds : List Char} (hfront : ¬ cs <+: ds)
    (hrest : ∀ c ∈ rest.head?, c ∉ (cs.drop ds.length).head?) : ¬ cs <+: ds ++ rest := by
  intro h
  rcases List.prefix_or_prefix_of_prefix h (List.prefix_append _ _) with h' | ⟨tail, rfl⟩
  · exact hfront h'
  · rw [List.prefix_append_right_inj] at h
    rw [List.drop_left] at hrest
    cases tail with
    | nil => exact hfront (by simp)
    | cons c tail =>
        obtain ⟨more, rfl⟩ := h
        exact hrest c rfl rfl

/-- An operator that must not be followed by some character takes the blanks behind it, and any
other operator leaves them. -/
theorem accepts_operatorText (text : String) (guarded : Prop) [Decidable guarded] {next : Char}
    (hgap : ∀ c ∈ gap, isBlank c = true) (hmore : ∀ c ∈ more.head?, isBlank c = false)
    (hnext : ∀ c ∈ more.head?, c ≠ next) :
    ∃ left, (∀ c ∈ left, isBlank c = true) ∧ left.length ≤ gap.length ∧ Accepts (do
      Recognize.text text.toList
      if guarded then
        blanks
        isNotNext next) (fun _ => True) (text.toList ++ (gap ++ more)) (left ++ more) := by
  by_cases hguarded : guarded
  · refine ⟨[], nofun, Nat.zero_le _, (accepts_text text.toList).bind fun _ _ => ?_⟩
    rw [if_pos hguarded]
    exact (accepts_blanks hgap hmore).bind fun _ _ => accepts_isNotNext hnext
  · refine ⟨gap, hgap, Nat.le_refl _, (accepts_text text.toList).bind fun _ _ => ?_⟩
    rw [if_neg hguarded]
    exact Accepts.pure trivial

/-- Of the operators in a list, the one that is there is taken. -/
theorem accepts_operator {α ω : Type} {ops before after : List ω} {op : ω} {f : ω → List Char}
    {step : ω → Recognize α} {P : α → Prop} {input : List Char} (hops : ops = before ++ op :: after)
    (hfront : ops.Pairwise fun a b => ¬ f a <+: f b)
    (hinput : ∀ other ∈ ops, ∀ c ∈ input.head?, c ∉ ((f other).drop (f op).length).head?)
    (hrejects : ∀ op input, ¬ f op <+: input → Rejects (step op) input)
    (h : Accepts (step op) P (f op ++ input) rest) :
    Accepts (first (ops.map step)) P (f op ++ input) rest := by
  subst hops
  rw [List.map_append, List.map_cons]
  refine h.first fun q hq => ?_
  obtain ⟨other, hother, rfl⟩ := List.mem_map.1 hq
  have hpair := (List.pairwise_append.1 hfront).2.2 other hother op List.mem_cons_self
  exact hrejects other _ (not_prefix_append hpair
    (hinput other (List.mem_append_left _ hother)))

/-- No operator in front of an operand is longer than another one. -/
theorem drop_unaryOp (op other : UnaryOp) :
    (other.text.toList.drop op.text.toList.length).head? = none := by
  cases op <;> cases other <;> decide

/-- What makes a longer operator out of one between operands. -/
theorem drop_infixOp (op other : InfixOp) :
    ∀ c ∈ (other.text.toList.drop op.text.toList.length).head?, c ∈ ['=', '&', '|'] := by
  have htest : (other.text.toList.drop op.text.toList.length).head?.all
      (['=', '&', '|'].contains ·) = true := by
    rcases op with op | op | op <;> cases op <;> rcases other with other | other | other <;>
      cases other <;> rfl
  exact fun c hc => List.contains_iff_mem.1 ((Option.all_eq_true _ _).1 htest c hc)

theorem accepts_sign {op : UnaryOp} (hgap : ∀ c ∈ gap, isBlank c = true)
    (hmore : ∀ c ∈ more.head?, isBlank c = false ∧ c ≠ '=') :
    ∃ left, (∀ c ∈ left, isBlank c = true) ∧ left.length ≤ gap.length ∧
      Accepts sign (fun s => ∃ span, s = ⟨op, span⟩) (op.text.toList ++ (gap ++ more))
        (left ++ more) := by
  obtain ⟨before, after, hops⟩ := List.append_of_mem (show op ∈ unaryOps by cases op <;> decide)
  obtain ⟨left, hleft, hlength, htext⟩ := accepts_operatorText op.text (op = .not) hgap
    (fun c hc => (hmore c hc).1) (fun c hc => (hmore c hc).2)
  refine ⟨left, hleft, hlength, ?_⟩
  refine accepts_operator (f := fun op => op.text.toList) hops (by decide)
    (fun other _ c _ => ?_) (fun op input hinput => ?_) ?_
  · rw [drop_unaryOp]
    exact nofun
  · exact Rejects.bind (Rejects.spanned (Rejects.construct (Rejects.bind (rejects_text hinput))))
  · exact htext.construct.spanned.bind fun y _ => Accepts.pure ⟨y.2, rfl⟩

theorem accepts_infixOperator {op : InfixOp} (h : Separates gap more) :
    ∃ left, (∀ c ∈ left, isBlank c = true) ∧ left.length ≤ gap.length ∧
      Accepts infixOperator (fun y => y.1 = op) (op.text.toList ++ (gap ++ more))
        (left ++ more) := by
  have hmem : op ∈ InfixOp.all := by
    rcases op with op | op | op <;> cases op <;> decide
  obtain ⟨before, after, hops⟩ := List.append_of_mem hmem
  obtain ⟨left, hleft, hlength, htext⟩ := accepts_operatorText op.text (op = .arithmetic .mod)
    h.blanks (fun c hc => (h.token c hc).1) (fun c hc => (h.token c hc).2.2)
  refine ⟨left, hleft, hlength, ?_⟩
  refine accepts_operator (f := fun op => op.text.toList) hops (by decide)
    (fun other _ c hc hdrop => ?_) (fun op input hinput => ?_) ?_
  · exact h.front c hc (drop_infixOp op other c hdrop)
  · exact Rejects.bind (Rejects.spanned (Rejects.construct (Rejects.bind (rejects_text hinput))))
  · exact htext.construct.spanned.bind fun y _ => Accepts.pure rfl

/-- There is no operator in front of what begins without one. -/
theorem rejects_sign (h : Begins more) : Rejects sign more :=
  fun _ => refuses_sign fun c hc =>
    ⟨h.ne (by decide) c hc, h.ne (by decide) c hc, h.ne (by decide) c hc⟩

theorem accepts_signs_none (h : Begins more) : Accepts signs (· = []) more more := by
  have hnone : Accepts ((do
      let s ← sign
      let more ← many do
        blanks
        sign
      pure (s :: more)) <|> pure []) (· = []) more more :=
    (rejects_sign h).bind.orElse (Accepts.pure rfl)
  refine hnone.bind fun found hfound => ?_
  exact (accepts_no_blanks h.isBlank).bind fun _ _ => Accepts.pure hfound

/-- Operators in front of an operand, with blanks behind each of them. -/
inductive SignsText : List UnaryOp → List Char → Prop
  | nil : SignsText [] []
  | cons {op : UnaryOp} {ops : List UnaryOp} {gap cs : List Char} :
      (∀ c ∈ gap, isBlank c = true) → SignsText ops cs →
      SignsText (op :: ops) (op.text.toList ++ (gap ++ cs))

section Signs

variable {ops : List UnaryOp} {cs : List Char}

/-- Behind its signs an operand begins, or there is another sign. -/
theorem SignsText.head (h : SignsText ops cs) (hmore : Begins more) :
    ∀ c ∈ (cs ++ more).head?, isBlank c = false ∧ c ≠ '=' := by
  cases h with
  | nil => exact fun c hc => ⟨hmore.isBlank c hc, hmore.ne (by decide) c hc⟩
  | @cons op => cases op <;> exact forall_mem_head (by decide)

/-- Signs are taken one after another, with the blanks in front of each. -/
theorem SignsText.repeatedly (h : SignsText ops cs) (hmore : Begins more) {left : List Char}
    (hleft : ∀ c ∈ left, isBlank c = true) :
    ∃ left', (∀ c ∈ left', isBlank c = true) ∧
      Repeatedly (do blanks; sign) (fun found => found.map Sign.op = ops) (left ++ (cs ++ more))
        (left' ++ more) := by
  induction h generalizing left with
  | nil => exact ⟨left, hleft, Repeatedly.nil rfl⟩
  | @cons op ops gap cs hgap hcs ih =>
      obtain ⟨left₁, hleft₁, hlength, hsign⟩ :=
        @accepts_sign gap (cs ++ more) op hgap (hcs.head hmore)
      obtain ⟨left', hleft', hrepeatedly⟩ := ih hleft₁
      have hhead : ∀ c ∈ (op.text.toList ++ (gap ++ (cs ++ more))).head?, isBlank c = false := by
        cases op <;> exact forall_mem_head (by decide)
      have hround := (accepts_blanks hleft hhead).bind fun _ _ => hsign
      have hop : 0 < op.text.toList.length := by cases op <;> decide
      refine ⟨left', hleft', ?_⟩
      simp only [List.append_assoc]
      refine Repeatedly.cons hround ?_ hrepeatedly ?_
      · simp only [List.length_append]
        omega
      · rintro _ xs ⟨span, rfl⟩ hxs
        rw [List.map_cons, hxs]

/-- The signs of an operand are taken, with all blanks behind them. -/
theorem SignsText.accepts (h : SignsText ops cs) (hmore : Begins more) :
    Accepts signs (fun found => found.map Sign.op = ops) (cs ++ more) more := by
  cases h with
  | nil =>
      refine (accepts_signs_none hmore).mono ?_
      rintro _ rfl
      rfl
  | @cons op ops gap cs hgap hcs =>
      obtain ⟨left, hleft, -, hsign⟩ := @accepts_sign gap (cs ++ more) op hgap (hcs.head hmore)
      obtain ⟨left', hleft', hrepeatedly⟩ := hcs.repeatedly hmore hleft
      have hblanks := accepts_blanks hleft' hmore.isBlank
      have hmany := hrepeatedly.many (hblanks.rejects_bind fun _ _ => rejects_sign hmore)
      simp only [List.append_assoc]
      refine Accepts.bind (P := fun found => found.map Sign.op = op :: ops)
        (Accepts.orElse (hsign.bind fun s hs => hmany.bind fun found hfound => Accepts.pure ?_))
        fun found hfound => hblanks.bind fun _ _ => Accepts.pure hfound
      obtain ⟨span, rfl⟩ := hs
      rw [List.map_cons, hfound]

end Signs

theorem accepts_signs_one {op : UnaryOp} (hgap : IsGap gap) (hmore : Begins more) :
    Accepts signs (fun found => ∃ span, found = [⟨op, span⟩]) (op.text.toList ++ (gap ++ more))
      more := by
  have hsign : Accepts signs (fun found => found.map Sign.op = [op])
      (op.text.toList ++ (gap ++ []) ++ more) more :=
    (SignsText.cons hgap.2 .nil).accepts hmore
  rw [List.append_nil, List.append_assoc] at hsign
  refine hsign.mono fun found hfound => ?_
  obtain ⟨⟨op', span⟩, rfl, hop⟩ := List.map_eq_singleton_iff.1 hfound
  exact ⟨span, by rw [← hop]⟩

end Operators

end RowFormula.Grammar
