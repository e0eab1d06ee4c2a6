/-
# Markup and its entities

Escaping writes five characters as entities, each of which begins with an ampersand.  A text is
fit for markup if it has none of the other four characters and every ampersand in it begins an
entity.  Exactly these texts are the escaped ones: reading the entities in one pass from left to
right takes an escaped text back to the only text that it comes from.
-/

import RowFormula.Proofs.Searching

namespace RowFormula.Text

/-- The entities, each with the character that it stands for. -/
def entities : List (String × Char) :=
  [("&amp;", '&'), ("&lt;", '<'), ("&gt;", '>'), ("&quot;", '"'), ("&#39;", '\'')]

/-- The character that the entity in front of a text stands for, and what follows the entity. -/
def frontEntity? (cs : List Char) : Option (Char × List Char) :=
  entities.findSome? fun e => (dropText? e.1.toList cs).map fun rest => (e.2, rest)

variable {c d : Char} {cs ds rest rest' : List Char} {e e' : String}

/-! ### Entities -/

/-- Only the first character of an entity has a meaning in markup. -/
theorem exists_toList_entity (h : (e, c) ∈ entities) :
    ∃ tail, e.toList = '&' :: tail ∧ ∀ d ∈ tail, d ∉ entities.map Prod.snd := by
  have hall : ∀ e ∈ entities, e.1.toList.head? = some '&' ∧
      ∀ d ∈ e.1.toList.tail, d ∉ entities.map Prod.snd := by
    simp [entities]
  obtain ⟨hhead, htail⟩ := hall _ h
  exact ⟨_, (List.cons_head?_tail hhead).symm, htail⟩

theorem entity_of_mem (h : (e, c) ∈ entities) : entity c = e := by
  simp only [entities, List.mem_cons, Prod.mk.injEq, List.not_mem_nil, or_false] at h
  obtain ⟨rfl, rfl⟩ | ⟨rfl, rfl⟩ | ⟨rfl, rfl⟩ | ⟨rfl, rfl⟩ | ⟨rfl, rfl⟩ := h <;> rfl

theorem entity_of_not_mem (h : c ∉ entities.map Prod.snd) : entity c = String.singleton c := by
  unfold entity
  split
  case h_6 => rfl
  all_goals exact absurd (by decide) h

theorem entity_cases (c : Char) :
    (entity c, c) ∈ entities ∨ c ∉ entities.map Prod.snd ∧ (entity c).toList = [c] := by
  by_cases h : c ∈ entities.map Prod.snd
  · obtain ⟨⟨e, d⟩, hmem, rfl⟩ := List.mem_map.1 h
    exact .inl (entity_of_mem hmem ▸ hmem)
  · exact .inr ⟨h, by rw [entity_of_not_mem h, String.toList_singleton]⟩

/-- No entity is the beginning of another one. -/
theorem eq_of_entity_append (h : (e, c) ∈ entities) (h' : (e', d) ∈ entities)
    (heq : e.toList ++ rest = e'.toList ++ rest') : c = d ∧ rest = rest' := by
  simp only [entities, List.mem_cons, Prod.mk.injEq, List.not_mem_nil, or_false] at h h'
  obtain ⟨rfl, rfl⟩ | ⟨rfl, rfl⟩ | ⟨rfl, rfl⟩ | ⟨rfl, rfl⟩ | ⟨rfl, rfl⟩ := h <;>
    obtain ⟨rfl, rfl⟩ | ⟨rfl, rfl⟩ | ⟨rfl, rfl⟩ | ⟨rfl, rfl⟩ | ⟨rfl, rfl⟩ := h' <;>
    simp_all

theorem frontEntity?_eq_some_iff :
    frontEntity? cs = some (c, rest) ↔ ∃ e, (e, c) ∈ entities ∧ cs = e.toList ++ rest := by
  have hsome {c : Char} {rest : List Char} (h : frontEntity? cs = some (c, rest)) :
      ∃ e, (e, c) ∈ entities ∧ cs = e.toList ++ rest := by
    obtain ⟨⟨e, d⟩, hmem, hfound⟩ := List.exists_of_findSome?_eq_some h
    obtain ⟨rest', hdrop, hpair⟩ := Option.map_eq_some_iff.1 hfound
    cases hpair
    exact ⟨e, hmem, dropText?_eq_some_iff.1 hdrop⟩
  refine ⟨hsome, ?_⟩
  rintro ⟨e, hmem, hcs⟩
  cases hfront : frontEntity? cs with
  | none =>
      have hnone := List.findSome?_eq_none_iff.1 hfront (e, c) hmem
      rw [Option.map_eq_none_iff, dropText?_eq_some_iff.2 hcs] at hnone
      cases hnone
  | some found =>
      obtain ⟨d, rest'⟩ := found
      obtain ⟨e', hmem', hcs'⟩ := hsome hfront
      obtain ⟨rfl, rfl⟩ := eq_of_entity_append hmem hmem' (hcs.symm.trans hcs')
      rfl

theorem length_lt_of_frontEntity? (h : frontEntity? cs = some (c, rest)) :
    rest.length < cs.length := by
  obtain ⟨e, hmem, rfl⟩ := frontEntity?_eq_some_iff.1 h
  obtain ⟨tail, htail, -⟩ := exists_toList_entity hmem
  rw [htail, List.cons_append, List.length_cons, List.length_append]
  omega

/-! ### Reading entities -/

/-- Reads a text from left to right, every entity as the character that it stands for. -/
def readEntities : List Char → List Char
  | [] => []
  | c :: cs =>
    match h : frontEntity? (c :: cs) with
    | some (d, rest) =>
      have := length_lt_of_frontEntity? h
      d :: readEntities rest
    | none => c :: readEntities cs
termination_by cs => cs.length
decreasing_by
  · exact this
  · exact Nat.lt_succ_self cs.length

def unescapeMarkup (s : String) : String :=
  String.ofList (readEntities s.toList)

theorem readEntities_of_front (h : (e, c) ∈ entities) :
    readEntities (e.toList ++ cs) = c :: readEntities cs := by
  have hfront : frontEntity? (e.toList ++ cs) = some (c, cs) :=
    frontEntity?_eq_some_iff.2 ⟨e, h, rfl⟩
  obtain ⟨tail, htail, -⟩ := exists_toList_entity h
  rw [htail, List.cons_append] at hfront ⊢
  rw [readEntities]
  split
  · rename_i found
    cases hfront.symm.trans found
    rfl
  · rename_i hnone
    cases hfront.symm.trans hnone

theorem readEntities_of_ne (h : c ≠ '&') : readEntities (c :: cs) = c :: readEntities cs := by
  rw [readEntities]
  split
  · rename_i hfront
    obtain ⟨e, hmem, hcs⟩ := frontEntity?_eq_some_iff.1 hfront
    obtain ⟨tail, htail, -⟩ := exists_toList_entity hmem
    rw [htail] at hcs
    cases hcs
    exact absurd rfl h
  · rfl

/-! ### Escaped texts -/

/-- The characters of an escaped text. -/
def escaped (cs : List Char) : List Char :=
  cs.flatMap fun c => (entity c).toList

theorem toList_escapeMarkup (s : String) : (escapeMarkup s).toList = escaped s.toList := by
  unfold escapeMarkup escaped
  generalize s.toList = cs
  induction cs with
  | nil => rfl
  | cons c cs ih => rw [List.map_cons, String.join_cons, String.toList_append, ih,
      List.flatMap_cons]

theorem escapeMarkup_append (a b : String) :
    escapeMarkup (a ++ b) = escapeMarkup a ++ escapeMarkup b := by
  refine String.toList_injective ?_
  simp only [toList_escapeMarkup, String.toList_append, escaped, List.flatMap_append]

theorem readEntities_escaped (cs : List Char) : readEntities (escaped cs) = cs := by
  induction cs with
  | nil => rw [escaped, List.flatMap_nil, readEntities]
  | cons c cs ih =>
      rw [escaped, List.flatMap_cons, ← escaped]
      obtain hmem | ⟨hplain, hentity⟩ := entity_cases c
      · rw [readEntities_of_front hmem, ih]
      · have hne : c ≠ '&' := by
          rintro rfl
          exact hplain (by decide)
        rw [hentity, List.singleton_append, readEntities_of_ne hne, ih]

theorem unescapeMarkup_escapeMarkup (s : String) : unescapeMarkup (escapeMarkup s) = s := by
  rw [unescapeMarkup, toList_escapeMarkup, readEntities_escaped, String.ofList_toList]

/-! ### Texts that are fit for markup -/

/-- No character has a meaning in markup but ampersands, and these begin entities. -/
structure Fit (cs : List Char) : Prop where
  eq_ampersand : ∀ c ∈ cs, c ∈ entities.map Prod.snd → c = '&'
  begins : ∀ before behind, cs = before ++ '&' :: behind →
    ∃ e ∈ entities, e.1.toList <+: '&' :: behind

theorem Fit.nil : Fit [] :=
  ⟨fun _ h => absurd h List.not_mem_nil, fun before behind h => by simp at h⟩

theorem Fit.append (h : Fit cs) (h' : Fit ds) : Fit (cs ++ ds) := by
  refine ⟨fun c hc => ?_, fun before behind hsplit => ?_⟩
  · exact (List.mem_append.1 hc).elim (h.eq_ampersand c) (h'.eq_ampersand c)
  · obtain ⟨tail, rfl, hds⟩ | ⟨tail, rfl, hbehind⟩ := List.append_eq_append_iff.1 hsplit
    · exact h'.begins tail behind hds
    · cases tail with
      | nil => exact h'.begins [] behind hbehind.symm
      | cons c tail =>
          rw [List.cons_append, List.cons.injEq] at hbehind
          obtain ⟨rfl, rfl⟩ := hbehind
          obtain ⟨e, he, hfront⟩ := h.begins before tail rfl
          exact ⟨e, he, hfront.trans (List.prefix_append _ ds)⟩

theorem Fit.of_append (h : Fit (cs ++ ds)) : Fit ds where
  eq_ampersand := fun c hc => h.eq_ampersand c (List.mem_append_right cs hc)
  begins := fun before behind hsplit =>
    h.begins (cs ++ before) behind (by rw [hsplit, List.append_assoc])

theorem fit_entity (c : Char) : Fit (entity c).toList := by
  obtain hmem | ⟨hplain, hentity⟩ := entity_cases c
  · obtain ⟨tail, htail, hplain⟩ := exists_toList_entity hmem
    refine ⟨fun d hd hmark => ?_, fun before behind hsplit => ?_⟩
    · rw [htail] at hd
      obtain rfl | hd := List.mem_cons.1 hd
      · rfl
      · exact absurd hmark (hplain d hd)
    · cases before with
      | nil => exact ⟨_, hmem, hsplit ▸ List.prefix_refl _⟩
      | cons d before =>
          rw [htail, List.cons_append, List.cons.injEq] at hsplit
          refine absurd (by decide) (hplain '&' ?_)
          rw [hsplit.2]
          exact List.mem_append_right _ List.mem_cons_self
  · rw [hentity]
    refine ⟨fun d hd hmark => ?_, fun before behind hsplit => ?_⟩
    · rw [List.mem_singleton.1 hd] at hmark
      exact absurd hmark hplain
    · have hmem : '&' ∈ [c] := hsplit ▸ List.mem_append_right _ List.mem_cons_self
      obtain rfl := List.mem_singleton.1 hmem
      exact absurd (by decide) hplain

theorem fit_escaped (cs : List Char) : Fit (escaped cs) := by
  induction cs with
  | nil => exact Fit.nil
  | cons c cs ih => exact (fit_entity c).append ih

/-- What is fit for markup is escaped. -/
theorem Fit.escaped_readEntities (h : Fit cs) : escaped (readEntities cs) = cs := by
  induction cs using readEntities.induct with
  | case1 => rw [readEntities]; rfl
  | case2 c cs d rest hfront _ ih =>
      obtain ⟨e, hmem, hcs⟩ := frontEntity?_eq_some_iff.1 hfront
      rw [hcs] at h ⊢
      rw [readEntities_of_front hmem, escaped, List.flatMap_cons, ← escaped, ih h.of_append,
        entity_of_mem hmem]
  | case3 c cs hnone ih =>
      have hne : c ≠ '&' := by
        rintro rfl
        obtain ⟨⟨e, d⟩, hmem, rest, hcs⟩ := h.begins [] cs rfl
        rw [frontEntity?_eq_some_iff.2 ⟨e, hmem, hcs.symm⟩] at hnone
        cases hnone
      have hplain : c ∉ entities.map Prod.snd :=
        fun hmark => hne (h.eq_ampersand c List.mem_cons_self hmark)
      rw [readEntities_of_ne hne, escaped, List.flatMap_cons, ← escaped,
        ih (@Fit.of_append [c] cs h), entity_of_not_mem hplain, String.toList_singleton]
      rfl

/-- The same of a text: none of the other four characters, and no ampersand but in front of an
entity. -/
def IsMarkup (s : String) : Prop :=
  (∀ c ∈ ['<', '>', '"', '\''], c ∉ s.toList) ∧
    ∀ before behind, s = before ++ "&" ++ behind →
      ∃ e ∈ entities, ∃ rest, "&" ++ behind = e.1 ++ rest

theorem isMarkup_iff {s : String} : IsMarkup s ↔ Fit s.toList := by
  constructor
  · rintro ⟨hnone, hbegins⟩
    refine ⟨fun c hc hmark => ?_, fun before behind hsplit => ?_⟩
    · simp only [entities, List.map_cons, List.map_nil] at hmark
      obtain rfl | hmark := List.mem_cons.1 hmark
      · rfl
      · exact absurd hc (hnone c hmark)
    · obtain ⟨e, he, rest, hrest⟩ := hbegins (.ofList before) (.ofList behind)
        (String.toList_injective (by simpa using hsplit))
      refine ⟨e, he, rest.toList, ?_⟩
      have hampersand : ("&" ++ String.ofList behind).toList = '&' :: behind := by simp
      rw [← String.toList_append, ← hrest, hampersand]
  · rintro ⟨hmark, hbegins⟩
    refine ⟨fun c hc hmem => ?_, fun before behind hsplit => ?_⟩
    · obtain rfl := hmark c hmem (List.mem_cons_of_mem '&' hc)
      simp at hc
    · obtain ⟨e, he, rest, hrest⟩ := hbegins before.toList behind.toList (by simp [hsplit])
      refine ⟨e, he, .ofList rest, String.toList_injective ?_⟩
      have hampersand : ("&" ++ behind).toList = '&' :: behind.toList := by simp
      rw [hampersand, ← hrest, String.toList_append, String.toList_ofList]

theorem isMarkup_escapeMarkup (s : String) : IsMarkup (escapeMarkup s) :=
  isMarkup_iff.2 (toList_escapeMarkup s ▸ fit_escaped s.toList)

theorem IsMarkup.escapeMarkup_unescapeMarkup {s : String} (h : IsMarkup s) :
    escapeMarkup (unescapeMarkup s) = s := by
  refine String.toList_injective ?_
  rw [toList_escapeMarkup, unescapeMarkup, String.toList_ofList,
    (isMarkup_iff.1 h).escaped_readEntities]

theorem escapeMarkup_singleton (h : (e, c) ∈ entities) :
    escapeMarkup (String.singleton c) = e := by
  refine String.toList_injective ?_
  rw [toList_escapeMarkup, String.toList_singleton, escaped, List.flatMap_singleton,
    entity_of_mem h]

end RowFormula.Text

namespace RowFormula.Catalog

open Text (IsMarkup entities escapeMarkup unescapeMarkup)

theorem gives_escape_html (s : String) :
    Gives "escape_html" [.ofString s] (.ofString (escapeMarkup s)) :=
  gives_of_mem (f := textFunction "escape_html" _ escapeMarkup)
    (mem_functions_of_transformation (List.mem_of_getElem? (i := 10) rfl)) fun _ => rfl

/-- Escaping gives the texts that are fit for markup, each of them for one text, which reading the
entities gives back. -/
theorem markup_reversible (s : String) :
    Gives "escape_html" [.ofString s] (.ofString (escapeMarkup s)) ∧
      IsMarkup (escapeMarkup s) ∧
      (∀ e ∈ entities, escapeMarkup (String.singleton e.2) = e.1) ∧
      unescapeMarkup (escapeMarkup s) = s ∧
      Function.Injective escapeMarkup ∧
      (∀ t, escapeMarkup (s ++ t) = escapeMarkup s ++ escapeMarkup t) ∧
      (IsMarkup s ↔ ∃ t, escapeMarkup t = s) := by
  refine ⟨gives_escape_html s, Text.isMarkup_escapeMarkup s, fun _ => Text.escapeMarkup_singleton,
    Text.unescapeMarkup_escapeMarkup s, ?_, Text.escapeMarkup_append s, ?_⟩
  · exact Function.LeftInverse.injective Text.unescapeMarkup_escapeMarkup
  · refine ⟨fun h => ⟨_, h.escapeMarkup_unescapeMarkup⟩, ?_⟩
    rintro ⟨t, rfl⟩
    exact Text.isMarkup_escapeMarkup t

end RowFormula.Catalog
