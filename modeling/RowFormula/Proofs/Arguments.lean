/-
# Arguments decode to what was written

An argument is cut at its first equals sign, and what stands before it once more at the last colon
or point.  So delimiters may stand in names and texts wherever no other cut could be meant: in the
text all of them, in the name of an attribute colons, in the name of an operator points.  Kinds are
named by letters, so that no name of a kind is cut.

The settings collect what the options of each sort decode to, in their order.  An engine enters them
into tables, where the last entry of a key counts.
-/

import RowFormula.CommandLine
import RowFormula.Proofs.References
import RowFormula.Proofs.Tables

namespace RowFormula

/-! ### Cutting at a character -/

namespace Text

variable {mark c : Char} {cs before behind : List Char} {text : String}

/-- Everything before the first mark, if there is one. -/
theorem takeWhile_drop_iff :
    (cs.takeWhile (· != mark) = before ∧ ∃ c, cs.drop before.length = c :: behind) ↔
      cs = before ++ mark :: behind ∧ mark ∉ before := by
  constructor
  · rintro ⟨rfl, c, hdrop⟩
    have hcut : cs.takeWhile (· != mark) ++ cs.dropWhile (· != mark) = cs :=
      List.takeWhile_append_dropWhile
    have hrest : cs.dropWhile (· != mark) = c :: behind :=
      List.drop_left.symm.trans
        ((congrArg (List.drop (cs.takeWhile (· != mark)).length) hcut).trans hdrop)
    have hc : c = mark := by
      have hhead := List.head?_dropWhile_not (· != mark) cs
      rw [hrest] at hhead
      simpa using hhead
    subst hc
    exact ⟨hrest ▸ hcut.symm, fun hmark => by simpa using List.mem_takeWhile_imp hmark⟩
  · rintro ⟨rfl, hbefore⟩
    have hplain : ∀ c ∈ before, (c != mark) = true := by
      intro c hc
      exact bne_iff_ne.2 fun h => hbefore (h ▸ hc)
    exact ⟨(Grammar.takeWhile_dropWhile_append hplain (by simp)).1, mark, List.drop_left⟩

variable {front back : String}

/-- A text is cut at the first mark: what stands before it has none. -/
theorem splitFirst?_eq_some_iff : splitFirst? mark text = some (front, back) ↔
    text.toList = front.toList ++ mark :: back.toList ∧ mark ∉ front.toList := by
  rw [← takeWhile_drop_iff, splitFirst?]
  constructor
  · intro h
    split at h
    · cases h
    · rename_i c behind hdrop
      cases h
      simp only [String.toList_ofList]
      exact ⟨trivial, c, hdrop⟩
  · rintro ⟨hfront, c, hdrop⟩
    simp only [hfront, hdrop, String.ofList_toList]

/-- A text is cut at the last mark: what stands behind it has none. -/
theorem splitLast?_eq_some_iff : splitLast? mark text = some (front, back) ↔
    text.toList = front.toList ++ mark :: back.toList ∧ mark ∉ back.toList := by
  have hreverse : text.toList = front.toList ++ mark :: back.toList ∧ mark ∉ back.toList ↔
      text.toList.reverse = back.toList.reverse ++ mark :: front.toList.reverse ∧
        mark ∉ back.toList.reverse := by
    rw [List.mem_reverse, ← List.reverse_inj]
    simp
  rw [hreverse, ← takeWhile_drop_iff, splitLast?]
  constructor
  · intro h
    split at h
    · cases h
    · rename_i c before hdrop
      cases h
      simp only [String.toList_ofList, List.reverse_reverse]
      exact ⟨trivial, c, hdrop⟩
  · rintro ⟨hback, c, hdrop⟩
    simp only [hback, hdrop, List.reverse_reverse, String.ofList_toList]

theorem mem_dropWhile (hc : c ∈ cs) {test : Char → Bool} (htest : test c = false) :
    c ∈ cs.dropWhile test := by
  rw [← List.takeWhile_append_dropWhile (p := test) (l := cs), List.mem_append] at hc
  refine hc.resolve_left fun h => ?_
  rw [List.mem_takeWhile_imp h] at htest
  cases htest

/-- Only blanks are cut off. -/
theorem mem_trim (hc : c ∈ text.toList) (hblank : isBlank c = false) : c ∈ (trim text).toList := by
  rw [trim, String.toList_ofList, trimBack, List.mem_reverse]
  exact mem_dropWhile (List.mem_reverse.2 (mem_dropWhile hc hblank)) hblank

end Text

/-- The delimiters of an argument do not stand in names of kinds. -/
theorem Kind.not_mem_of_ofName? {name : String} {k : Kind} (h : ofName? name = some k) :
    ':' ∉ name.toList ∧ '=' ∉ name.toList := by
  have hsmall : ∀ mark : Char, Text.isBlank mark = false → mark.toLower = mark →
      mark ∈ name.toList → mark ∈ (Text.asciiLower (Text.trim name)).toList := by
    intro mark hblank hlower hmark
    rw [Text.asciiLower, String.toList_ofList]
    exact List.mem_map.2 ⟨mark, Text.mem_trim hmark hblank, hlower⟩
  suffices hnone : ':' ∉ (Text.asciiLower (Text.trim name)).toList ∧
      '=' ∉ (Text.asciiLower (Text.trim name)).toList from
    ⟨mt (hsmall ':' rfl rfl) hnone.1, mt (hsmall '=' rfl rfl) hnone.2⟩
  unfold ofName? at h
  split at h
  case h_15 => cases h
  all_goals
    rename_i heq
    rw [heq]
    decide

/-! ### Arguments -/

namespace CommandLine

variable {arg name kindName operator parameter text : String} {v : Value} {k : Kind}

theorem toList_colon : ":".toList = [':'] := rfl

theorem toList_point : ".".toList = ['.'] := rfl

theorem toList_equals : "=".toList = ['='] := rfl

/-- What stands before and behind a delimiter, as characters. -/
theorem eq_append_iff {front delimiter back : String} {mark : Char}
    (hmark : delimiter.toList = [mark]) :
    text = front ++ delimiter ++ back ↔ text.toList = front.toList ++ mark :: back.toList := by
  rw [← String.toList_inj, String.toList_append, String.toList_append, hmark, List.append_assoc]
  rfl

/-- An argument is cut into three: at its first equals sign, and before it at the last of another
delimiter. -/
theorem split_eq_some_iff {front delimiter middle back : String} {mark : Char}
    (hmark : delimiter.toList = [mark]) :
    ((Text.splitFirst? '=' arg).bind fun p => (Text.splitLast? mark p.1).map (·, p.2)) =
        some ((front, middle), back) ↔
      arg = front ++ delimiter ++ middle ++ "=" ++ back ∧
        '=' ∉ (front ++ delimiter ++ middle).toList ∧ mark ∉ middle.toList := by
  rw [eq_append_iff toList_equals]
  simp only [Option.bind_eq_some_iff, Option.map_eq_some_iff, Prod.mk.injEq, Prod.exists]
  constructor
  · rintro ⟨key, _, hfirst, _, _, hlast, ⟨rfl, rfl⟩, rfl⟩
    obtain ⟨harg, hkey⟩ := Text.splitFirst?_eq_some_iff.1 hfirst
    obtain ⟨hsplit, hmiddle⟩ := Text.splitLast?_eq_some_iff.1 hlast
    obtain rfl := (eq_append_iff hmark).2 hsplit
    exact ⟨harg, hkey, hmiddle⟩
  · rintro ⟨harg, hkey, hmiddle⟩
    exact ⟨front ++ delimiter ++ middle, back, Text.splitFirst?_eq_some_iff.2 ⟨harg, hkey⟩, front,
      middle, Text.splitLast?_eq_some_iff.2 ⟨(eq_append_iff hmark).1 rfl, hmiddle⟩, ⟨rfl, rfl⟩, rfl⟩

theorem not_mem_append_iff {front delimiter middle : String} {mark : Char}
    (hmark : delimiter.toList = [mark]) {c : Char} (hc : c ≠ mark) :
    c ∉ (front ++ delimiter ++ middle).toList ↔ c ∉ front.toList ∧ c ∉ middle.toList := by
  simp [hmark, hc]

/-- An attribute is its name, a name of a kind, and a text of this kind. -/
theorem readAttribute_eq_ok_iff : readAttribute arg = .ok (name, v) ↔
    ∃ kindName text k, arg = name ++ ":" ++ kindName ++ "=" ++ text ∧ name ≠ "" ∧
      '=' ∉ name.toList ∧ Kind.ofName? kindName = some k ∧ readValue k text = .ok v := by
  rw [readAttribute]
  constructor
  · intro h
    split at h
    · cases h
    · rename_i name' kindName text hsplit
      split at h
      · cases h
      · rename_i hname
        split at h
        · cases h
        · rename_i k hk
          obtain ⟨v, hv, hpair⟩ := map_eq_ok_iff.1 h
          cases hpair
          obtain ⟨harg, hkey, -⟩ := (split_eq_some_iff toList_colon).1 hsplit
          rw [not_mem_append_iff toList_colon (by decide)] at hkey
          exact ⟨kindName, text, k, harg, hname, hkey.1, hk, hv⟩
  · rintro ⟨kindName, text, k, harg, hname, hequals, hk, hv⟩
    obtain ⟨hcolon, hequals'⟩ := Kind.not_mem_of_ofName? hk
    have hkey := (not_mem_append_iff toList_colon (by decide)).2 ⟨hequals, hequals'⟩
    rw [(split_eq_some_iff toList_colon).2 ⟨harg, hkey, hcolon⟩]
    simp only [hname, if_false, hk, hv]
    rfl

/-- A macro is its name and its text. -/
theorem readMacro_eq_ok_iff : readMacro arg = .ok (name, text) ↔
    arg = name ++ "=" ++ text ∧ name ≠ "" ∧ '=' ∉ name.toList := by
  rw [eq_append_iff toList_equals, readMacro]
  constructor
  · intro h
    split at h
    · cases h
    · rename_i hsplit
      split at h
      · cases h
      · rename_i hname
        cases h
        obtain ⟨harg, hmark⟩ := Text.splitFirst?_eq_some_iff.1 hsplit
        exact ⟨harg, hname, hmark⟩
  · rintro ⟨harg, hname, hmark⟩
    rw [Text.splitFirst?_eq_some_iff.2 ⟨harg, hmark⟩]
    exact if_neg hname

/-- A parameter is its operator, its name and its text. -/
theorem readParameter_eq_ok_iff : readParameter arg = .ok ((operator, parameter), text) ↔
    arg = operator ++ "." ++ parameter ++ "=" ++ text ∧ operator ≠ "" ∧ parameter ≠ "" ∧
      '=' ∉ operator.toList ∧ '=' ∉ parameter.toList ∧ '.' ∉ parameter.toList := by
  rw [readParameter]
  constructor
  · intro h
    split at h
    · cases h
    · rename_i hsplit
      split at h
      · cases h
      · rename_i hne
        cases h
        obtain ⟨harg, hkey, hpoint⟩ := (split_eq_some_iff toList_point).1 hsplit
        rw [not_mem_append_iff toList_point (by decide)] at hkey
        rw [not_or] at hne
        exact ⟨harg, hne.1, hne.2, hkey.1, hkey.2, hpoint⟩
  · rintro ⟨harg, hoperator, hparameter, hequals, hequals', hpoint⟩
    have hkey := (not_mem_append_iff toList_point (by decide)).2 ⟨hequals, hequals'⟩
    rw [(split_eq_some_iff toList_point).2 ⟨harg, hkey, hpoint⟩]
    exact if_neg (not_or.2 ⟨hoperator, hparameter⟩)

/-- No text at all and a question mark stand for the missing text.  Every other text stays as it
is. -/
theorem readValue_string (text : String) :
    readValue .string text =
      .ok (if text = "" ∨ text = "?" then .missing .string else .ofString text) := by
  rw [readValue]
  split <;> rfl

/-! ### Options -/

/-- An option with its value attached, as one argument. -/
def ValueOption.attached (o : ValueOption) (text : String) : String :=
  "--" ++ o.name ++ "=" ++ text

theorem take_attached (s : Settings) (o : ValueOption) (text : String) :
    Progress.take { settings := s } (o.attached text) = (do
      pure { settings := ← s.enter o text }) := by
  have hname : '=' ∉ o.name.toList := by
    cases o <;> decide
  -- what stands behind the hyphens, which is more than none, so that they do not end the options
  obtain ⟨rest, hrest⟩ : ∃ rest, o.name.toList ++ '=' :: text.toList = rest := ⟨_, rfl⟩
  have hchars : (o.attached text).toList = '-' :: '-' :: rest := by
    simp [ValueOption.attached, ← hrest]
  obtain ⟨htake, -⟩ := Text.takeWhile_drop_iff.2 ⟨hrest.symm, hname⟩
  have hsplit : Text.splitFirst? '=' (String.ofList rest) = some (o.name, text) :=
    Text.splitFirst?_eq_some_iff.2 ⟨String.toList_ofList.trans hrest.symm, hname⟩
  have hoption : Named.ofName? o.name = some (.value o) := by
    cases o <;> decide
  obtain ⟨c, cs, hcs⟩ : ∃ c cs, rest = c :: cs := List.exists_cons_of_ne_nil (by simp [← hrest])
  have htaken : Progress.take { settings := s } (o.attached text) =
      Progress.takeNamed { settings := s } (o.attached text)
        (String.ofList (rest.takeWhile (· != '=')))
        ((Text.splitFirst? '=' (String.ofList rest)).map Prod.snd) := by
    rw [Progress.take, hchars, hcs]
    rfl
  rw [htaken, htake, hsplit, String.ofList_toList, Progress.takeNamed, hoption]
  rfl

/-- Enters the values of options from first to last. -/
def Settings.enterAll (s : Settings) (options : List (ValueOption × String)) : Reading Settings :=
  options.foldlM (fun s o => s.enter o.1 o.2) s

theorem foldlM_take_attached (options : List (ValueOption × String)) (s : Settings) :
    (options.map fun o => o.1.attached o.2).foldlM Progress.take { settings := s } = (do
      pure { settings := ← s.enterAll options }) := by
  induction options generalizing s with
  | nil => rfl
  | cons o options ih =>
      rw [List.map_cons, List.foldlM_cons, take_attached, Settings.enterAll, List.foldlM_cons]
      cases s.enter o.1 o.2 with
      | error stop => rfl
      | ok s' => exact ih s'

/-- A command line of options with their values attached enters one after another. -/
theorem read_attached (options : List (ValueOption × String)) :
    Settings.read (options.map fun o => o.1.attached o.2) = Settings.enterAll {} options := by
  rw [Settings.read, show ({} : Progress) = { settings := {} } from rfl, foldlM_take_attached]
  cases Settings.enterAll {} options <;> rfl

/-- The texts that are given for an option, in their order. -/
def textsFor (o : ValueOption) (options : List (ValueOption × String)) : List String :=
  (options.filter fun p => p.1 = o).map Prod.snd

section Entries

variable {α : Type} {o : ValueOption} {decode : String → Except ArgumentFault α}
variable {entries : Settings → List α}

/-- A list of the settings collects what the texts of an option decode to. -/
def Collects (o : ValueOption) (decode : String → Except ArgumentFault α)
    (entries : Settings → List α) : Prop :=
  ∀ s o' text s', Settings.enter s o' text = .ok s' →
    if o' = o then ∃ a, decode text = .ok a ∧ entries s' = entries s ++ [a]
    else entries s' = entries s

theorem valueOrFault_eq_ok_iff {text : String} {x : Except ArgumentFault α} {a : α} :
    Settings.valueOrFault o text x = .ok a ↔ x = .ok a := by
  cases x <;> simp [Settings.valueOrFault, misuse]

/-- A value is decoded and joins the others of its option. -/
theorem enter_eq_ok {s s' : Settings} {text : String} (h : s.enter o text = .ok s') :
    match o with
    | .attr => ∃ a, readAttribute text = .ok a ∧ s' = { s with attributes := s.attributes ++ [a] }
    | .macroText => ∃ m, readMacro text = .ok m ∧ s' = { s with macros := s.macros ++ [m] }
    | .param => ∃ p, readParameter text = .ok p ∧ s' = { s with parameters := s.parameters ++ [p] }
    | .seed => ∃ seed, readSeed? text = some seed ∧ s' = { s with seed := some seed } := by
  cases o with
  | attr =>
      obtain ⟨a, ha, hs⟩ := bind_eq_ok_iff.1 h
      exact ⟨a, valueOrFault_eq_ok_iff.1 ha, (Except.ok.inj hs).symm⟩
  | macroText =>
      obtain ⟨m, hm, hs⟩ := bind_eq_ok_iff.1 h
      exact ⟨m, valueOrFault_eq_ok_iff.1 hm, (Except.ok.inj hs).symm⟩
  | param =>
      obtain ⟨p, hp, hs⟩ := bind_eq_ok_iff.1 h
      exact ⟨p, valueOrFault_eq_ok_iff.1 hp, (Except.ok.inj hs).symm⟩
  | seed =>
      rw [Settings.enter] at h
      split at h
      · cases h
      · split at h
        · rename_i seed hseed
          exact ⟨seed, hseed, (Except.ok.inj h).symm⟩
        · cases h

/-- Each list of the settings belongs to one option. -/
theorem collects_entered : Collects .attr readAttribute Settings.attributes ∧
    Collects .macroText readMacro Settings.macros ∧
    Collects .param readParameter Settings.parameters := by
  refine ⟨?_, ?_, ?_⟩
  all_goals
    intro s o text s' h
    have henter := enter_eq_ok h
    cases o
    all_goals
      obtain ⟨a, ha, rfl⟩ := henter
      first | exact ⟨a, ha, rfl⟩ | rfl

/-- A whole run collects the texts of all options of the sort. -/
theorem Collects.enterAll (h : Collects o decode entries) {options : List (ValueOption × String)}
    {s s' : Settings} (hrun : s.enterAll options = .ok s') :
    ∃ as, entries s' = entries s ++ as ∧
      List.Forall₂ (fun text a => decode text = .ok a) (textsFor o options) as := by
  induction options generalizing s with
  | nil =>
      obtain rfl := Except.ok.inj hrun
      exact ⟨[], (List.append_nil _).symm, .nil⟩
  | cons p options ih =>
      obtain ⟨s₁, hs₁, hrun⟩ := bind_eq_ok_iff.1 hrun
      obtain ⟨as, has, hdecodes⟩ := ih hrun
      have hentry := h _ _ _ _ hs₁
      by_cases hp : p.1 = o
      · rw [if_pos hp] at hentry
        obtain ⟨a, ha, hentry⟩ := hentry
        refine ⟨a :: as, ?_, ?_⟩
        · rw [has, hentry, List.append_assoc]
          rfl
        · rw [textsFor, List.filter_cons_of_pos (by simpa using hp)]
          exact .cons ha hdecodes
      · rw [if_neg hp] at hentry
        refine ⟨as, hentry ▸ has, ?_⟩
        rw [textsFor, List.filter_cons_of_neg (by simpa using hp)]
        exact hdecodes

end Entries

end CommandLine

/-! ### Calls with two texts -/

namespace Grammar

open Cursor (Passes)

/-- A text in quotes. -/
def quoted (text : String) : List Char := '"' :: escaped '"' text.toList ++ ['"']

theorem exists_passes (cs rest : List Char) (position : Nat) :
    ∃ position', Passes ⟨cs ++ rest, position⟩ cs ⟨rest, position'⟩ :=
  ⟨_, rfl, rfl⟩

theorem spellsChain_quoted (text : String) (rest : List Char) (position : Nat) :
    ∃ span position', SpellsChain ⟨quoted text ++ rest, position⟩
      (.single (.mk [] (.leaf (.string (escaped '"' text.toList)) span))) ⟨rest, position'⟩ := by
  obtain ⟨position', hpasses⟩ := exists_passes (quoted text) rest position
  exact ⟨_, position',
    .single (.mk (.nil (.refl _)) (.leaf (quotes_escaped text).spellsLeaf hpasses))⟩

end Grammar

namespace Tree

open Grammar

variable {function : String} {maxDepth : Nat}

/-- The text of a call of a function with two texts as its arguments. -/
def callOfTexts (function first second : String) : String :=
  String.ofList (function.toList ++ (['('] ++
    (quoted first ++ ([','] ++ ([' '] ++ (quoted second ++ [')']))))))

/-- The call is spelled by its text. -/
theorem spells_callOfTexts (hfunction : IsName function.toList) (first second : String) :
    ∃ span span₁ span₂, Spells (callOfTexts function first second).toList
      (.single (.mk [] (.call function.toList
        [.single (.mk [] (.leaf (.string (escaped '"' first.toList)) span₁)),
          .single (.mk [] (.leaf (.string (escaped '"' second.toList)) span₂))] span))) := by
  rw [callOfTexts, String.toList_ofList]
  obtain ⟨p₁, hname⟩ := exists_passes function.toList _ 0
  obtain ⟨p₂, hopen⟩ := exists_passes ['('] _ p₁
  obtain ⟨span₁, p₃, hfirst⟩ := spellsChain_quoted first _ p₂
  obtain ⟨p₄, hcomma⟩ := exists_passes [','] _ p₃
  obtain ⟨p₅, hblank⟩ := exists_passes [' '] _ p₄
  obtain ⟨span₂, p₆, hsecond⟩ := spellsChain_quoted second [')'] p₅
  obtain ⟨p₇, hclose⟩ := exists_passes [')'] [] p₆
  have harguments := SpellsArguments.some hfirst
    (.cons (.refl _) hcomma ⟨[' '], forall_mem_of_all rfl, hblank⟩ hsecond .nil)
  have hcall := SpellsPrimary.call hfunction hname (.refl _) hopen (.refl _) harguments (.refl _)
    hclose
  exact ⟨_, span₁, span₂, _, _, _, .refl _, .single (.mk (.nil (.refl _)) hcall), .refl _, rfl⟩

/-- It is read as the call, whatever the texts are. -/
theorem parse_callOfTexts (hfunction : IsName function.toList) (hdepth : 2 ≤ maxDepth)
    (first second : String) :
    ∃ t, parse maxDepth (callOfTexts function first second) = .ok t ∧
      t.withoutSpans = .call function ⟨0, 0⟩ [.text first ⟨0, 0⟩, .text second ⟨0, 0⟩] := by
  obtain ⟨span, span₁, span₂, hspells⟩ := spells_callOfTexts hfunction first second
  have hraises := raises_of_spells hspells nofun
  have hscan :
      deepParenthesis? maxDepth {} 0 (callOfTexts function first second).toList = none := by
    refine (deepParenthesis?_eq_none_iff (Nat.zero_le _)).2 ?_
    rw [show ({} : ScanState) = ScanState.outside 0 from rfl, (hraises 0).2]
    exact (show 1 ≤ maxDepth by omega)
  have hleaf : ∀ (text : String) (span : Span),
      ReadsChain (callOfTexts function first second)
        (.single (.mk [] (.leaf (.string (escaped '"' text.toList)) span))) (.text text span) := by
    intro text span
    refine readsChain_bare (.leaf ?_)
    rw [ofLeaf, (quotes_escaped text).unescape]
    rfl
  have hreads : ReadsPrimary (callOfTexts function first second) _
      (.call (String.ofList function.toList) span [.text first span₁, .text second span₂]) :=
    .call (.cons (hleaf first span₁) (.cons (hleaf second span₂) .nil))
  obtain ⟨c, hc, hsame⟩ := recognize_of_spells hspells
  obtain ⟨t, ht, htree⟩ := (readsChain_bare hreads).exists_same hsame
  rw [String.ofList_toList] at htree
  have hfits : (Tree.call function span [.text first span₁, .text second span₂]).Fits maxDepth :=
    .inr hdepth
  exact ⟨t, (parse_eq_ok_iff hscan).2 ⟨c, hc, ht, hfits.of_withoutSpans_eq htree⟩, htree⟩

end Tree

/-! ### Parameters -/

namespace Catalog

theorem parameter_body {call : Call} {operator name text : String}
    (h : call.parameter? operator name = some text) :
    parameter.body call [.ofString operator, .ofString name] = pure (.ofString text) := by
  have hoperator : textAt? [Value.ofString operator, .ofString name] 0 = some operator := rfl
  have hname : textAt? [Value.ofString operator, .ofString name] 1 = some name := rfl
  simp only [parameter, hoperator, hname, h]
  rfl

theorem parameter_mem : parameter ∈ functions := by
  have hmem : parameter ∈ process := .tail _ (.head _)
  simp only [functions, List.mem_append]
  tauto

end Catalog

namespace Formula

variable {ctx : Context} {operator name text : String}

/-- A parameter of the process is the value of the call that names it. -/
theorem evaluate_parameter (hfunction : ctx.functions.Has Catalog.parameter)
    (hparse : 2 ≤ ctx.options.maxParseDepth) (hdepth : 2 ≤ ctx.options.maxDepth)
    (h : ctx.parameter? operator name = some text) (draws : Random.Draws) :
    (evaluate ctx (Tree.callOfTexts "param" operator name)).outcome draws =
      (.ok (.ofString text), draws) := by
  have hname : Grammar.IsName "param".toList :=
    .cons (by decide) (Grammar.forall_mem_of_all (by decide))
  obtain ⟨t, ht, htree⟩ := Tree.parse_callOfTexts hname hparse operator name
  obtain ⟨serial, hcall⟩ := @Term.ofTree_call_of_has (nestedKind ctx.levels ctx) ctx "" ⟨0, 0⟩ _
    [.text operator ⟨0, 0⟩, .text name ⟨0, 0⟩] hfunction (by decide) rfl
  have hterm : Term.ofTree (nestedKind ctx.levels ctx) ctx "" t.withoutSpans =
      .ok (.call .string ⟨0, 0⟩ { Catalog.parameter with serial := serial }
        [.ofValue ⟨0, 0⟩ (.ofString operator), .ofValue ⟨0, 0⟩ (.ofString name)]) := by
    rw [htree]
    refine hcall.trans ?_
    show Term.ofCall (nestedKind ctx.levels ctx) ctx "" "param" ⟨0, 0⟩
      { Catalog.parameter with serial := serial }
      [.ofValue ⟨0, 0⟩ (.ofString operator), .ofValue ⟨0, 0⟩ (.ofString name)] = _
    exact Term.ofCall_of_accepts (Term.misplaced?_pair.2 ⟨rfl, rfl⟩) rfl
  obtain ⟨f, hf, hsame⟩ := exists_compile_of_ofTree ht hterm
  have hheight : f.term.height ≤ ctx.options.maxDepth := by
    obtain ⟨u, hu, hle, -⟩ := height_le_of_compile hf
    obtain rfl := Except.ok.inj (hu.symm.trans ht)
    rw [← Tree.height_withoutSpans, htree] at hle
    exact Nat.le_trans hle hdepth
  have hrun : (f.run ctx).mapError EvaluationError.fault = pure (.ofString text) := by
    rw [run, runWithin_eq_unlimited hheight, hsame.value]
    exact congrArg (Evaluation.mapError EvaluationError.fault)
      (Term.apply_of_body (Catalog.parameter_body h) rfl)
  rw [evaluate, hf]
  show ((f.run ctx).mapError Error.failed).outcome draws = _
  rw [Evaluation.outcome_mapError, Evaluation.outcome_of_mapError_eq_pure hrun]
  rfl

end Formula

/-! ### Arguments and settings -/

namespace CommandLine

/-- Among the settings the last argument counts that is given for a parameter. -/
theorem parameter?_engine {s : Settings} {before later : List ((String × String) × String)}
    {operator parameter text : String}
    (h : s.parameters = before ++ ((operator, parameter), text) :: later)
    (hlater : ∀ p ∈ later, p.1 ≠ (operator, parameter)) (now : Calendar.Instant) (row : Row) :
    (s.engine.context now row).parameter? operator parameter = some text := by
  show (Table.ofList s.parameters).get? (operator, parameter) = some text
  rw [h, Table.get?_ofList hlater]

/-- An attribute that is a text, a macro and a parameter decode to what they were written from.  The
call that names a parameter then evaluates to its text, unless a later argument gives it another.
What a command line enters into the settings are the arguments of each sort, as they are decoded and
in their order. -/
theorem arguments_read_back :
    (∀ name kindName text, name ≠ "" → '=' ∉ name.toList → Kind.ofName? kindName = some .string →
      readAttribute (name ++ ":" ++ kindName ++ "=" ++ text) =
        .ok (name, if text = "" ∨ text = "?" then .missing .string else .ofString text)) ∧
    (∀ name text, name ≠ "" → '=' ∉ name.toList →
      readMacro (name ++ "=" ++ text) = .ok (name, text)) ∧
    (∀ operator parameter text, operator ≠ "" → '=' ∉ operator.toList → parameter ≠ "" →
      '=' ∉ parameter.toList → '.' ∉ parameter.toList →
      readParameter (operator ++ "." ++ parameter ++ "=" ++ text) =
        .ok ((operator, parameter), text)) ∧
    (∀ (s : Settings) before later operator parameter text,
      s.parameters = before ++ ((operator, parameter), text) :: later →
      (∀ p ∈ later, p.1 ≠ (operator, parameter)) → ∀ now row draws,
      (Formula.evaluate (s.engine.context now row)
        (Tree.callOfTexts "param" operator parameter)).outcome draws =
          (.ok (.ofString text), draws)) ∧
    ∀ options s, Settings.read (options.map fun o => o.1.attached o.2) = .ok s →
      List.Forall₂ (fun text a => readAttribute text = .ok a) (textsFor .attr options)
        s.attributes ∧
      List.Forall₂ (fun text m => readMacro text = .ok m) (textsFor .macroText options) s.macros ∧
      List.Forall₂ (fun text p => readParameter text = .ok p) (textsFor .param options)
        s.parameters := by
  refine ⟨?attributes, ?macros, ?parameters, ?evaluates, ?settings⟩
  case attributes =>
    intro name kindName text hname hequals hkind
    exact readAttribute_eq_ok_iff.2
      ⟨kindName, text, .string, rfl, hname, hequals, hkind, readValue_string text⟩
  case macros =>
    intro name text hname hequals
    exact readMacro_eq_ok_iff.2 ⟨rfl, hname, hequals⟩
  case parameters =>
    intro operator parameter text hoperator hequals hparameter hequals' hpoint
    exact readParameter_eq_ok_iff.2 ⟨rfl, hoperator, hparameter, hequals, hequals', hpoint⟩
  case evaluates =>
    intro s before later operator parameter text hs hlater now row draws
    exact Formula.evaluate_parameter (Catalog.registry_has _ Catalog.parameter_mem)
      (show 2 ≤ 256 by decide) (show 2 ≤ 1000 by decide) (parameter?_engine hs hlater now row) draws
  case settings =>
    intro options s hread
    rw [read_attached] at hread
    obtain ⟨hattributes, hmacros, hparameters⟩ := collects_entered
    obtain ⟨_, rfl, hattributes⟩ := hattributes.enterAll hread
    obtain ⟨_, rfl, hmacros⟩ := hmacros.enterAll hread
    obtain ⟨_, rfl, hparameters⟩ := hparameters.enterAll hread
    exact ⟨hattributes, hmacros, hparameters⟩

/-- Delimiters stand in names and in texts, and the file is given twice. -/
theorem arguments_read_back_of_delimiters :
    let options : List (ValueOption × String) :=
      [(.attr, "time:of:day: Nominal =a=b:c"), (.param, "Read.CSV.file=old"), (.macroText, "m=x=y"),
        (.attr, "note:string=?"), (.param, "Read.CSV.file=a.b=c?"), (.param, "Read.CSV.sep=;")]
    let s : Settings :=
      { attributes := [("time:of:day", .ofString "a=b:c"), ("note", .missing .string)]
        macros := [("m", "x=y")]
        parameters := [(("Read.CSV", "file"), "old"), (("Read.CSV", "file"), "a.b=c?"),
          (("Read.CSV", "sep"), ";")] }
    Settings.read (options.map fun o => o.1.attached o.2) = .ok s ∧
      readAttribute "time:of:day: Nominal =a=b:c" = .ok ("time:of:day", .ofString "a=b:c") ∧
      readAttribute "note:string=?" = .ok ("note", .missing .string) ∧
      readMacro "m=x=y" = .ok ("m", "x=y") ∧
      readParameter "Read.CSV.file=a.b=c?" = .ok (("Read.CSV", "file"), "a.b=c?") ∧
      Tree.callOfTexts "param" "Read.CSV" "file" = "param(\"Read.CSV\", \"file\")" ∧
      (∀ now row draws, (Formula.evaluate (s.engine.context now row)
        (Tree.callOfTexts "param" "Read.CSV" "file")).outcome draws =
          (.ok (.ofString "a.b=c?"), draws)) ∧
      List.Forall₂ (fun text a => readAttribute text = .ok a) (textsFor .attr options)
        s.attributes := by
  intro options s
  have hread : Settings.read (options.map fun o => o.1.attached o.2) = .ok s := by decide +kernel
  obtain ⟨hattribute, hmacro, hparameter, hevaluates, hsettings⟩ := arguments_read_back
  exact ⟨hread, hattribute "time:of:day" " Nominal " "a=b:c" (by decide) (by decide) (by decide),
    hattribute "note" "string" "?" (by decide) (by decide) (by decide),
    hmacro "m" "x=y" (by decide) (by decide),
    hparameter "Read.CSV" "file" "a.b=c?" (by decide) (by decide) (by decide) (by decide)
      (by decide),
    by decide, hevaluates s [(("Read.CSV", "file"), "old")] [(("Read.CSV", "sep"), ";")] "Read.CSV"
      "file" "a.b=c?" rfl (by decide), (hsettings options s hread).1⟩

end CommandLine

end RowFormula
