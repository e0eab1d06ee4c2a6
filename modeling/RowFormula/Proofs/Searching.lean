/-
# Where a text stands in another one

The search finds the first place where the wanted text can be cut out.  A search over the bytes of
both texts finds the same place: the first byte of a character never stands inside of another
character, so no occurrence begins there.
-/

import RowFormula.Proofs.Substrings

namespace RowFormula.Catalog

open Number (maxInt64)

variable {text wanted : String} {needle cs : List Char} {start i : ℕ} {j n : ℤ} {v w : Value}

/-! ### The first occurrence -/

theorem dropText?_isSome_iff : (Text.dropText? needle cs).isSome ↔ needle <+: cs := by
  rw [Option.isSome_iff_exists]
  exact exists_congr fun rest => Text.dropText?_eq_some_iff.trans eq_comm

theorem indexFrom?_some (h : Text.indexFrom? needle start cs = some i) :
    ∃ before behind, cs = before ++ needle ++ behind ∧ start + before.length = i ∧
      ∀ before' behind', cs = before' ++ needle ++ behind' → before.length ≤ before'.length := by
  induction cs generalizing start with
  | nil =>
      obtain ⟨hempty, hstart⟩ := Option.ite_none_right_eq_some.1 h
      obtain rfl := List.isEmpty_iff.1 hempty
      exact ⟨[], [], rfl, Option.some.inj hstart, fun _ _ _ => Nat.zero_le _⟩
  | cons c cs ih =>
      rw [Text.indexFrom?] at h
      split at h
      · rename_i hfront
        obtain ⟨behind, hbehind⟩ := dropText?_isSome_iff.1 hfront
        exact ⟨[], behind, hbehind.symm, Option.some.inj h, fun _ _ _ => Nat.zero_le _⟩
      · rename_i hfront
        obtain ⟨before, behind, rfl, hlength, hleast⟩ := ih h
        refine ⟨c :: before, behind, rfl, by simp only [List.length_cons]; omega, ?_⟩
        rintro (_ | ⟨c', before'⟩) behind' hoccurs
        · exact absurd (dropText?_isSome_iff.2 ⟨behind', hoccurs.symm⟩) hfront
        · exact Nat.succ_le_succ (hleast before' behind' (List.cons.inj hoccurs).2)

theorem indexFrom?_none (h : Text.indexFrom? needle start cs = none) (before behind : List Char) :
    cs ≠ before ++ needle ++ behind := by
  induction cs generalizing start before with
  | nil =>
      rintro hoccurs
      obtain ⟨rfl, rfl, rfl⟩ : before = [] ∧ needle = [] ∧ behind = [] := by simpa using hoccurs
      simp [Text.indexFrom?] at h
  | cons c cs ih =>
      rw [Text.indexFrom?] at h
      split at h
      · cases h
      · rename_i hfront
        rintro hoccurs
        cases before with
        | nil => exact hfront (dropText?_isSome_iff.2 ⟨behind, hoccurs.symm⟩)
        | cons c' before => exact ih h before (List.cons.inj hoccurs).2

theorem isPart_wanted_iff : IsPart text j wanted.length wanted ↔
    ∃ before behind, text.toList = before ++ wanted.toList ++ behind ∧ (before.length : ℤ) = j := by
  constructor
  · rintro ⟨before, behind, rfl, rfl, -⟩
    exact ⟨before.toList, behind.toList, by simp only [String.toList_append],
      by rw [String.length_toList]⟩
  · rintro ⟨before, behind, hoccurs, rfl⟩
    refine ⟨.ofList before, .ofList behind, String.toList_injective ?_, ?_, rfl⟩
    · simpa only [String.toList_append, String.toList_ofList] using hoccurs
    · rw [String.length_ofList]

/-- The position is the first one at which the wanted text can be cut out, or it is -1. -/
theorem position_isLeast_or (text wanted : String) :
    IsLeast {j | IsPart text j wanted.length wanted} (position text wanted) ∨
      position text wanted = -1 ∧ ∀ j, ¬ IsPart text j wanted.length wanted := by
  unfold position Text.index?
  cases hindex : Text.indexFrom? wanted.toList 0 text.toList with
  | some i =>
      left
      obtain ⟨before, behind, hoccurs, hlength, hleast⟩ := indexFrom?_some hindex
      refine ⟨isPart_wanted_iff.2 ⟨before, behind, hoccurs, by simp only; omega⟩, fun j hj => ?_⟩
      obtain ⟨before', behind', hoccurs', rfl⟩ := isPart_wanted_iff.1 hj
      have := hleast before' behind' hoccurs'
      simp only
      omega
  | none =>
      refine .inr ⟨rfl, fun j hj => ?_⟩
      obtain ⟨before, behind, hoccurs, -⟩ := isPart_wanted_iff.1 hj
      exact indexFrom?_none hindex before behind hoccurs

theorem IsPart.nonneg (h : IsPart text j n wanted) : 0 ≤ j :=
  (isPart_iff.1 h).1.1

/-- An occurrence anywhere is found, and not behind it. -/
theorem IsPart.position_mem (h : IsPart text j wanted.length wanted) :
    0 ≤ position text wanted ∧ position text wanted ≤ j := by
  obtain ⟨hmem, hleast⟩ | ⟨-, hnone⟩ := position_isLeast_or text wanted
  · exact ⟨IsPart.nonneg hmem, hleast h⟩
  · exact absurd h (hnone j)

theorem position_empty (text : String) : position text "" = 0 := by
  have hpart : IsPart text 0 "".length "" := ⟨"", text, by simp, rfl, rfl⟩
  have hmem := hpart.position_mem
  omega

theorem contains_eq (text wanted : String) :
    Text.contains text wanted = decide (0 ≤ position text wanted) := by
  unfold Text.contains position
  cases Text.index? wanted text with
  | some i => simp
  | none => rfl

/-! ### Beginnings and ends -/

theorem startsWith_iff : Text.startsWith text wanted ↔ front text wanted.length = wanted := by
  rw [Text.startsWith, dropText?_isSome_iff, List.prefix_iff_eq_take, front, Text.front,
    ← String.toList_inj, String.toList_ofList, Int.toNat_natCast, String.length_toList]
  exact eq_comm

theorem endsWith_iff : Text.endsWith text wanted ↔ back text wanted.length = wanted := by
  rw [Text.endsWith, dropText?_isSome_iff, List.reverse_prefix, List.suffix_iff_eq_drop, back,
    Text.back, ← String.toList_inj, String.toList_ofList, Int.toNat_natCast, String.length_toList,
    String.length_toList]
  exact eq_comm

theorem isPart_of_front (h : front text wanted.length = wanted) :
    IsPart text 0 wanted.length wanted := by
  have hpart := isPart_front text wanted.length
  have hlength := hpart.choose_spec.choose_spec.2.2
  rw [h] at hpart hlength
  rwa [← hlength] at hpart

theorem isPart_of_back (h : back text wanted.length = wanted) :
    ∃ j, IsPart text j wanted.length wanted := by
  have hpart := isPart_back text wanted.length
  have hlength := hpart.choose_spec.choose_spec.2.2
  rw [h] at hpart hlength
  rw [← hlength] at hpart
  exact ⟨_, hpart⟩

/-! ### Bytes -/

/-- The bytes of the wanted text stand behind so many bytes of the text. -/
def HasBytesAt (text wanted : String) (i : ℕ) : Prop :=
  ∃ a b : ByteArray, text.toByteArray = a ++ (wanted.toByteArray ++ b) ∧ a.size = i

theorem hasBytesAt_append (before wanted behind : String) :
    HasBytesAt (before ++ wanted ++ behind) wanted before.utf8ByteSize := by
  refine ⟨before.toByteArray, behind.toByteArray, ?_, String.size_toByteArray⟩
  rw [String.toByteArray_append, String.toByteArray_append, ByteArray.append_assoc]

/-- At an occurrence of bytes a character begins. -/
theorem HasBytesAt.split (h : HasBytesAt text wanted i) (hwanted : wanted ≠ "") :
    ∃ before rest, text = before ++ rest ∧ before.utf8ByteSize = i := by
  obtain ⟨a, b, hbytes, rfl⟩ := h
  have hpos : 0 < wanted.toByteArray.size := by
    rw [String.size_toByteArray]
    exact Nat.pos_of_ne_zero (mt String.utf8ByteSize_eq_zero_iff.1 hwanted)
  have hlt : a.size < text.toByteArray.size := by
    rw [hbytes, ByteArray.size_append, ByteArray.size_append]
    omega
  have hfirst : text.getUTF8Byte ⟨a.size⟩ hlt = wanted.getUTF8Byte 0 hpos := by
    simp only [String.getUTF8Byte, hbytes]
    rw [ByteArray.getElem_append_right (Nat.le_refl _), ByteArray.getElem_append_left (by simpa)]
    simp
  have hvalid : String.Pos.Raw.IsValid text ⟨a.size⟩ :=
    String.Pos.Raw.isValid_iff_isUTF8FirstByte.2
      (.inr ⟨hlt, hfirst ▸ String.isUTF8FirstByte_getUTF8Byte_zero⟩)
  obtain ⟨before, rest, hsplit, hbefore⟩ := String.Pos.Raw.isValid_iff_exists_append.1 hvalid
  exact ⟨before, rest, hsplit, (congrArg String.Pos.Raw.byteIdx hbefore).symm⟩

/-- An occurrence of bytes is an occurrence of characters. -/
theorem HasBytesAt.exists_append (h : HasBytesAt text wanted i) (hwanted : wanted ≠ "") :
    ∃ before behind, text = before ++ wanted ++ behind ∧ before.utf8ByteSize = i := by
  obtain ⟨before, rest, rfl, hbefore⟩ := h.split hwanted
  obtain ⟨a, b, hbytes, hsize⟩ := h
  rw [String.toByteArray_append] at hbytes
  obtain rfl : before.toByteArray = a :=
    ByteArray.append_inj_left hbytes (by rw [String.size_toByteArray, hbefore, hsize])
  have hrest : wanted.toList.utf8Encode ++ b = rest.toList.utf8Encode := by
    rw [String.utf8Encode_toList, String.utf8Encode_toList]
    exact ((ByteArray.append_right_inj _).1 hbytes).symm
  obtain ⟨behind, hbehind⟩ := List.isPrefix_of_utf8Encode_append_eq_utf8Encode b hrest
  refine ⟨before, .ofList behind, String.toList_injective ?_, hbefore⟩
  simp only [String.toList_append, String.toList_ofList, List.append_assoc, hbehind]

/-- A search over bytes finds the same place: in front of the first occurrence of the bytes stand as
many characters as the position says. -/
theorem position_eq_of_bytes (h : IsLeast {i | HasBytesAt text wanted i} i) :
    ∃ before rest, text = before ++ rest ∧ before.utf8ByteSize = i ∧
      position text wanted = before.length := by
  by_cases hwanted : wanted = ""
  · subst hwanted
    have hzero : i = 0 := Nat.le_zero.1 (h.2 (by simpa using hasBytesAt_append "" "" text))
    exact ⟨"", text, by simp, hzero.symm, position_empty text⟩
  · obtain ⟨before, behind, htext, hbefore⟩ := h.1.exists_append hwanted
    have hpart : IsPart text before.length wanted.length wanted := ⟨_, _, htext, rfl, rfl⟩
    obtain ⟨⟨first, rest, hfirst, hlength, -⟩, hleast⟩ | ⟨-, hnone⟩ :=
      position_isLeast_or text wanted
    · have hle : first.length ≤ before.length := by
        have := hleast hpart
        omega
      -- both occurrences lie in one text, so the first one begins within what is before the other
      obtain ⟨d, hd⟩ : first.toList <+: before.toList := by
        have hwithin : first.toList <+: text.toList :=
          ⟨(wanted ++ rest).toList, by simp [hfirst]⟩
        refine List.prefix_of_prefix_length_le hwithin
          ⟨(wanted ++ behind).toList, by simp [htext]⟩ ?_
        rwa [String.length_toList, String.length_toList]
      have hbytes : before.utf8ByteSize = first.utf8ByteSize + (String.ofList d).utf8ByteSize := by
        rw [← String.utf8ByteSize_append]
        congr 1
        exact String.toList_injective (by simp [hd])
      have hge : i ≤ first.utf8ByteSize := h.2 (hfirst ▸ hasBytesAt_append first wanted rest)
      exact ⟨first, wanted ++ rest, by rw [hfirst, String.append_assoc], by omega, hlength.symm⟩
    · exact absurd hpart (hnone _)

theorem position_eq_neg_one_iff_bytes :
    position text wanted = -1 ↔ ∀ i, ¬ HasBytesAt text wanted i := by
  constructor
  · intro hposition i hi
    by_cases hwanted : wanted = ""
    · rw [hwanted, position_empty] at hposition
      cases hposition
    · obtain ⟨before, behind, htext, -⟩ := hi.exists_append hwanted
      have hpart : IsPart text before.length wanted.length wanted := ⟨_, _, htext, rfl, rfl⟩
      have hmem := hpart.position_mem
      omega
  · intro hnone
    obtain ⟨⟨before, behind, htext, -⟩, -⟩ | ⟨hposition, -⟩ := position_isLeast_or text wanted
    · exact absurd (htext ▸ hasBytesAt_append before wanted behind) (hnone _)
    · exact hposition

/-! ### The functions -/

theorem mem_functions_of_information {f : Function} (hf : f ∈ stringInformation) :
    f ∈ functions := by
  simp only [functions, List.mem_append]
  tauto

section Body

variable {name description : String}

theorem gives_predicate {test : String → String → Bool}
    (hf : textPredicate name description (fun _ a b => pure (test a b)) ∈ functions) :
    Gives name [.ofString text, .ofString wanted] (.ofBool (test text wanted)) :=
  gives_of_mem hf fun _ => rfl

theorem gives_measure {measure : String → String → ℤ}
    (hf : textMeasure name description measure ∈ functions) :
    Gives name [.ofString text, .ofString wanted]
      (.integer (Number.ofInt (measure text wanted))) :=
  gives_of_mem hf fun _ => rfl

end Body

theorem gives_contains : Gives "contains" [.ofString text, .ofString wanted]
    (.ofBool (decide (0 ≤ position text wanted))) :=
  contains_eq text wanted ▸
    gives_predicate (mem_functions_of_information (List.mem_of_getElem? (i := 0) rfl))

theorem gives_starts : Gives "starts" [.ofString text, .ofString wanted]
    (.ofBool (decide (front text wanted.length = wanted))) :=
  Bool.eq_iff_iff.2 (startsWith_iff.trans decide_eq_true_iff.symm) ▸
    gives_predicate (mem_functions_of_information (List.mem_of_getElem? (i := 2) rfl))

theorem gives_ends : Gives "ends" [.ofString text, .ofString wanted]
    (.ofBool (decide (back text wanted.length = wanted))) :=
  Bool.eq_iff_iff.2 (endsWith_iff.trans decide_eq_true_iff.symm) ▸
    gives_predicate (mem_functions_of_information (List.mem_of_getElem? (i := 3) rfl))

theorem gives_index : Gives "index" [.ofString text, .ofString wanted]
    (.integer (Number.ofInt (position text wanted))) :=
  gives_measure (mem_functions_of_information (List.mem_of_getElem? (i := 7) rfl))

theorem gives_length : Gives "length" [.ofString text] (.integer (Number.ofInt text.length)) :=
  gives_of_mem (mem_functions_of_information (List.mem_of_getElem? (i := 8) rfl)) fun _ => rfl

theorem isCut_wanted_iff :
    IsCut text j wanted.length wanted ↔ IsPart text j wanted.length wanted :=
  ⟨And.left, IsPart.isCut⟩

theorem standsFor_ofInt (hlow : -1 ≤ j) (hhigh : j ≤ 2 ^ 53) :
    StandsFor (.integer (Number.ofInt j)) j := by
  obtain rfl | hnonneg := eq_or_lt_of_le hlow
  · exact standsFor_of_toInt64 (by decide +kernel) (by decide +kernel)
  · lift j to ℕ using by omega
    exact standsFor_of_isNatural (Number.isNatural_ofNat (by omega)) (by omega)

theorem neg_one_le_position : -1 ≤ position text wanted := by
  unfold position
  split <;> omega

theorem position_le_length (text wanted : String) : position text wanted ≤ text.length := by
  obtain ⟨hmem, -⟩ | ⟨hposition, -⟩ := position_isLeast_or text wanted
  · have := (isPart_iff.1 hmem).1
    omega
  · omega

/-- All the search functions speak of the same place, which is told by cutting as well as by a
search over bytes.  Positions and lengths are numbers, so they are exact up to `2 ^ 53`, which is
more than any memory holds. -/
theorem searching_agrees (text wanted : String) :
    ∃ i : ℤ, Gives "index" [.ofString text, .ofString wanted] (.integer (Number.ofInt i)) ∧
      (IsLeast {j | IsCut text j wanted.length wanted} i ∨
        i = -1 ∧ ∀ j, ¬ IsCut text j wanted.length wanted) ∧
      Gives "contains" [.ofString text, .ofString wanted] (.ofBool (decide (0 ≤ i))) ∧
      (∃ a, (∀ v, StandsFor v wanted.length →
          Gives "prefix" [.ofString text, v] (.ofString a)) ∧
        Gives "starts" [.ofString text, .ofString wanted] (.ofBool (decide (a = wanted))) ∧
        (a = wanted → i = 0)) ∧
      (∃ b, (∀ v, StandsFor v wanted.length →
          Gives "suffix" [.ofString text, v] (.ofString b)) ∧
        Gives "ends" [.ofString text, .ofString wanted] (.ofBool (decide (b = wanted))) ∧
        (b = wanted → 0 ≤ i)) ∧
      (text.length ≤ 2 ^ 53 → wanted.length ≤ 2 ^ 53 →
        StandsFor (.integer (Number.ofInt i)) i ∧
        ∃ l, Gives "length" [.ofString wanted] l ∧ StandsFor l wanted.length ∧
          ∀ v j, StandsFor v j →
            (Gives "cut" [.ofString text, v, l] (.ofString wanted) ↔
              IsCut text j wanted.length wanted)) ∧
      (i = -1 ↔ ∀ k, ¬ HasBytesAt text wanted k) ∧
      ∀ k, IsLeast {k | HasBytesAt text wanted k} k → ∃ before rest, text = before ++ rest ∧
        before.utf8ByteSize = k ∧ i = before.length := by
  refine ⟨position text wanted, gives_index, ?_, gives_contains,
    ⟨_, fun v hv => gives_prefix hv, gives_starts, fun hfront => ?_⟩,
    ⟨_, fun v hv => gives_suffix hv, gives_ends, fun hback => ?_⟩, fun htext hwanted => ?_,
    position_eq_neg_one_iff_bytes, fun k hk => position_eq_of_bytes hk⟩
  · simpa only [isCut_wanted_iff] using position_isLeast_or text wanted
  · have hmem := (isPart_of_front hfront).position_mem
    omega
  · obtain ⟨j, hj⟩ := isPart_of_back hback
    exact hj.position_mem.1
  · have hhigh : position text wanted ≤ 2 ^ 53 := by
      have := position_le_length text wanted
      omega
    have hlength : StandsFor (.integer (Number.ofInt wanted.length)) wanted.length :=
      standsFor_ofInt (by omega) (by omega)
    refine ⟨standsFor_ofInt neg_one_le_position hhigh, _, gives_length, hlength,
      fun v j hv => (gives_cut_iff ?_ hv hlength).trans isCut_wanted_iff.symm⟩
    unfold maxInt64
    omega

theorem searching_agrees_of_accents :
    "aéaéa".length ≤ 2 ^ 53 ∧ "éa".length ≤ 2 ^ 53 ∧ StandsFor (.double 1.0) 1 ∧
      ∃ l, Gives "length" [.ofString "éa"] l ∧
        Gives "cut" [.ofString "aéaéa", .double 1.0, l] (.ofString "éa") := by
  have hone : StandsFor (.double 1.0) 1 :=
    standsFor_of_toInt64 (by decide +kernel) (by decide +kernel)
  obtain ⟨i, -, -, -, -, -, hlength, -⟩ := searching_agrees "aéaéa" "éa"
  obtain ⟨-, l, hgives, -, hcut⟩ := hlength (by decide) (by decide)
  refine ⟨by decide, by decide, hone, l, hgives, (hcut _ _ hone).2 ?_⟩
  exact IsPart.isCut ⟨"a", "éa", rfl, rfl, rfl⟩

end RowFormula.Catalog
