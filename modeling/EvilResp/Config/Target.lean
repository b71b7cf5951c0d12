import EvilResp.Config.Framing
import EvilResp.Library.Fields

/-!
# Normalized targets

A target names one frame by the segments of its path.  Letter case and leading zeros are
lost when it is read, and what is left is read as itself.

Main results:

- Theorem {lit}`Target.parse_of_normal`: normalized segments are read as they are.
- Theorem {lit}`Target.parse_asStr`: the text of a target is read as that target.
- Theorem {lit}`Target.parse_of_eq_lowercase` and theorem {lit}`Target.parse_zeros`: letter
  case and leading zeros do not matter.
-/

namespace EvilResp

open Library

/-! ## Segments -/

/-- Characters are mapped inside the segments, as long as no separator comes or goes. -/
theorem splitOn_map {φ : Char → Char} {x : Char} (hφ : ∀ c, φ c = x ↔ c = x) (cs : List Char) :
    (cs.map φ).splitOn x = (cs.splitOn x).map (List.map φ) := by
  induction cs with
  | nil => rfl
  | cons c cs ih =>
      rw [List.map_cons, List.splitOn_cons_eq_if_modifyHead, List.splitOn_cons_eq_if_modifyHead,
        ih]
      by_cases hc : c = x
      · have hφc : φ c = x := (hφ c).mpr hc
        rw [hφc, hc]
        simp
      · have hφc : φ c ≠ x := fun h => hc ((hφ c).mp h)
        have hne := List.splitOn_ne_nil x cs
        rcases List.exists_cons_of_ne_nil hne with ⟨first, rest, hsplit⟩
        simp [hc, hφc, hsplit]

/-- Only letters change their case. -/
theorem toLower_of_lt {c : Char} (h : c.toNat < 65) : c.toLower = c := by
  have hupper : ¬ (c.val ≥ 'A'.val ∧ c.val ≤ 'Z'.val) := by
    rintro ⟨hle, _⟩
    have hle' : 65 ≤ c.toNat := UInt32.le_iff_toNat_le.mp hle
    omega
  exact dif_neg hupper

theorem toLower_eq_dot {c : Char} : c.toLower = '.' ↔ c = '.' := by
  constructor
  · intro h
    by_cases hupper : c.val ≥ 'A'.val ∧ c.val ≤ 'Z'.val
    · exfalso
      have hlowered : c.toLower.val = c.val + ('a'.val - 'A'.val) := by
        have hlower : c.toLower = _ := dif_pos hupper
        rw [hlower]
      have hval : c.toLower.val.toNat = '.'.val.toNat := by rw [h]
      rcases hupper with ⟨hle, hge⟩
      rw [hlowered] at hval
      simp only [ge_iff_le, UInt32.le_iff_toNat_le] at hle hge
      simp [UInt32.toNat_add] at hle hge hval
      omega
    · have hkept : c.toLower = c := dif_neg hupper
      exact hkept ▸ h
  · intro h
    rw [h]
    rfl

theorem toLower_of_isDigit {c : Char} (h : c.isDigit = true) : c.toLower = c :=
  toLower_of_lt (by have := toNat_of_isDigit h; omega)

theorem toAsciiLowercase_of_digits {digits : List Char} (h : ∀ c ∈ digits, c.isDigit = true) :
    toAsciiLowercase (String.ofList digits) = String.ofList digits := by
  rw [toAsciiLowercase, String.toList_ofList]
  congr 1
  exact (List.map_congr_left fun c hc => toLower_of_isDigit (h c hc)).trans (List.map_id' digits)

namespace Target

/-- Segments in their normal form.  A pair member follows an index. -/
inductive Normal : Bool → List (List Char) → Prop where
  | nil (afterIndex : Bool) : Normal afterIndex []
  | member {part : String} {parts : List (List Char)} (hpart : part = "key" ∨ part = "value")
      (h : Normal false parts) : Normal true (part.toList :: parts)
  | index {afterIndex : Bool} {n : Nat} {parts : List (List Char)} (hn : n < 2 ^ 64)
      (h : Normal true parts) : Normal afterIndex (n.repr.toList :: parts)

/-- The text of segments after the root. -/
def dotted (parts : List (List Char)) : String :=
  String.ofList (parts.flatMap fun part => '.' :: part)

theorem dotted_cons (part : String) (parts : List (List Char)) :
    dotted (part.toList :: parts) = "." ++ part ++ dotted parts := by
  apply String.toList_injective
  simp [dotted]

theorem digits_repr (n : Nat) :
    toAsciiLowercase n.repr = n.repr ∧ n.repr ≠ "" ∧ n.repr.toList.all Char.isDigit = true := by
  have hdigits : ∀ c ∈ n.repr.toList, c.isDigit = true := fun c hc => isDigit_of_mem_repr hc
  refine ⟨?_, ?_, List.all_eq_true.mpr hdigits⟩
  · have hlower := toAsciiLowercase_of_digits hdigits
    rwa [String.ofList_toList] at hlower
  · intro hempty
    have hlist := congrArg String.toList hempty
    rw [Nat.toList_repr] at hlist
    exact Nat.toDigits_ne_nil hlist

theorem not_member_of_digits {part : String} (h : part.toList.all Char.isDigit = true) :
    ¬ (part = "key" ∨ part = "value") := by
  rintro (rfl | rfl)
  · exact absurd h (by decide)
  · exact absurd h (by decide)

theorem parseUnsigned_repr {n : Nat} (h : n < 2 ^ 64) : parseUnsigned 64 n.repr = .ok n := by
  rw [parseUnsigned, parseInteger_repr (by omega) (by omega)]
  rfl

theorem lt_of_parseUnsigned {s : String} {n : Nat} (h : parseUnsigned 64 s = .ok n) :
    n < 2 ^ 64 := by
  rw [parseUnsigned] at h
  cases hparse : parseInteger 0 (2 ^ 64 - 1) s with
  | error e =>
      rw [hparse] at h
      cases h
  | ok value =>
      rw [hparse] at h
      have hbounds := parseInteger_bounds (by omega) (by omega) hparse
      have hvalue : value.toNat = n := Except.ok.inj h
      omega

/-- Normalized segments are kept as they are. -/
theorem parseSegments_of_normal {afterIndex : Bool} {parts : List (List Char)}
    (h : Normal afterIndex parts) :
    ∀ text, parseSegments parts afterIndex text = .ok (text ++ dotted parts) := by
  induction h with
  | nil afterIndex =>
      intro text
      simp [parseSegments, dotted]
  | @member part parts hpart _ ih =>
      intro text
      have hlower : toAsciiLowercase (String.ofList part.toList) = part := by
        rcases hpart with rfl | rfl <;> rfl
      rw [parseSegments, hlower, if_pos ⟨rfl, hpart⟩, ih, dotted_cons]
      simp only [String.append_assoc]
  | @index afterIndex n parts hn _ ih =>
      intro text
      rcases digits_repr n with ⟨hlower, hne, hdigits⟩
      rw [parseSegments, String.ofList_toList, hlower,
        if_neg fun h => not_member_of_digits hdigits h.2, if_pos ⟨hne, hdigits⟩,
        parseUnsigned_repr hn]
      dsimp only
      rw [ih, dotted_cons]
      simp only [String.append_assoc]
      rfl

/-- What is read is normalized. -/
theorem normal_of_parseSegments {parts : List (List Char)} :
    ∀ {afterIndex : Bool} {text out : String}, parseSegments parts afterIndex text = .ok out →
      ∃ norm, Normal afterIndex norm ∧ out = text ++ dotted norm := by
  induction parts with
  | nil =>
      intro afterIndex text out h
      cases h
      exact ⟨[], .nil afterIndex, by simp [dotted]⟩
  | cons part parts ih =>
      intro afterIndex text out h
      unfold parseSegments at h
      dsimp only at h
      split_ifs at h with hmember hdigits
      · rcases ih h with ⟨norm, hnorm, rfl⟩
        rcases hmember with ⟨rfl, hpart⟩
        refine ⟨_, .member hpart hnorm, ?_⟩
        rw [dotted_cons]
        simp only [String.append_assoc]
      · split at h
        · rename_i n hn
          rcases ih h with ⟨norm, hnorm, rfl⟩
          refine ⟨_, .index (lt_of_parseUnsigned hn) hnorm, ?_⟩
          rw [dotted_cons]
          simp only [String.append_assoc]
          rfl
        · cases h

theorem dot_not_mem_of_normal {afterIndex : Bool} {parts : List (List Char)}
    (h : Normal afterIndex parts) : ∀ part ∈ parts, '.' ∉ part := by
  induction h with
  | nil _ => simp
  | member hpart _ ih =>
      refine List.forall_mem_cons.mpr ⟨?_, ih⟩
      rcases hpart with rfl | rfl <;> decide
  | index _ _ ih =>
      refine List.forall_mem_cons.mpr ⟨?_, ih⟩
      intro hdot
      exact absurd (isDigit_of_mem_repr hdot) (by decide)

theorem splitOn_dotted {parts : List (List Char)} (h : ∀ part ∈ parts, '.' ∉ part) :
    ("root" ++ dotted parts).toList.splitOn '.' = "root".toList :: parts := by
  have hdots : ∀ (parts : List (List Char)) (before : List Char), '.' ∉ before →
      (∀ part ∈ parts, '.' ∉ part) →
        (before ++ parts.flatMap fun part => '.' :: part).splitOn '.' = before :: parts := by
    intro parts
    induction parts with
    | nil =>
        intro before hbefore _
        simpa using List.splitOn_eq_singleton hbefore
    | cons part parts ih =>
        intro before hbefore hparts
        rcases List.forall_mem_cons.mp hparts with ⟨hpart, hparts⟩
        rw [List.flatMap_cons, List.cons_append,
          List.splitOn_append_cons_self_of_not_mem hbefore, ih part hpart hparts]
  have hroot : '.' ∉ "root".toList := by decide
  have htext : ("root" ++ dotted parts).toList =
      "root".toList ++ parts.flatMap fun part => '.' :: part := by
    simp [dotted]
  rw [htext]
  exact hdots parts _ hroot h

/-- Normalized segments are read as they are. -/
theorem parse_of_normal {parts : List (List Char)} (h : Normal false parts) :
    parse ("root" ++ dotted parts) = .ok (.path ("root" ++ dotted parts)) := by
  have hany : eqIgnoreAsciiCase ("root" ++ dotted parts) "ANY" = false := by
    rw [Bool.eq_false_iff, ne_eq, eqIgnoreAsciiCase_iff]
    intro hsame
    have hhead := congrArg (fun s : String => s.toList.head?) hsame
    simp [toAsciiLowercase, dotted] at hhead
  have hroot : eqIgnoreAsciiCase (String.ofList "root".toList) "root" = true := rfl
  rw [parse, hany, splitOn_dotted (dot_not_mem_of_normal h)]
  dsimp only
  rw [hroot, parseSegments_of_normal h]
  rfl

theorem parse_path {value text : String} (h : parse value = .ok (.path text)) :
    ∃ parts, Normal false parts ∧ text = "root" ++ dotted parts := by
  unfold parse at h
  by_cases hany : eqIgnoreAsciiCase value "ANY" = true
  · rw [if_pos hany] at h
    cases h
  rw [if_neg hany] at h
  split at h
  · cases h
  · rename_i parts _
    split_ifs at h
    cases hsegments : parseSegments parts false "root" with
    | error e =>
        rw [hsegments] at h
        cases h
    | ok out =>
        rw [hsegments] at h
        have hout : out = text := Target.path.inj (Except.ok.inj h)
        exact hout ▸ normal_of_parseSegments hsegments

/-- The text of a target is read as that target. -/
theorem parse_asStr {value : String} {target : Target} (h : parse value = .ok target) :
    parse target.asStr = .ok target := by
  cases target with
  | any => rfl
  | path text =>
      rcases parse_path h with ⟨parts, hparts, rfl⟩
      exact parse_of_normal hparts

/-! ## What a spelling does not say -/

/-- Only the letters of a segment count, not their case. -/
theorem parseSegments_congr {parts : List (List Char)} :
    ∀ {parts' : List (List Char)} {afterIndex : Bool} {text : String},
      parts.map (List.map Char.toLower) = parts'.map (List.map Char.toLower) →
        parseSegments parts afterIndex text = parseSegments parts' afterIndex text := by
  induction parts with
  | nil =>
      intro parts' afterIndex text h
      rw [List.map_nil, eq_comm, List.map_eq_nil_iff] at h
      rw [h]
  | cons part parts ih =>
      intro parts' afterIndex text h
      cases parts' with
      | nil => cases h
      | cons part' parts' =>
          rw [List.map_cons, List.map_cons, List.cons.injEq] at h
          rcases h with ⟨hpart, hparts⟩
          have hlower : toAsciiLowercase (String.ofList part) =
              toAsciiLowercase (String.ofList part') := by
            rw [toAsciiLowercase, toAsciiLowercase, String.toList_ofList, String.toList_ofList,
              hpart]
          simp only [parseSegments, hlower, ih hparts]

/-- Letter case does not matter. -/
theorem parse_of_eq_lowercase {value value' : String}
    (h : toAsciiLowercase value = toAsciiLowercase value') : parse value = parse value' := by
  have hchars : value.toList.map Char.toLower = value'.toList.map Char.toLower :=
    String.ofList_injective h
  have hsplit := congrArg (List.splitOn '.') hchars
  rw [splitOn_map fun c => toLower_eq_dot, splitOn_map fun c => toLower_eq_dot] at hsplit
  have hsame : ∀ s, eqIgnoreAsciiCase value s = eqIgnoreAsciiCase value' s := by
    intro s
    rw [eqIgnoreAsciiCase, eqIgnoreAsciiCase, h]
  rw [parse, parse, hsame]
  cases hv : value.toList.splitOn '.' with
  | nil => exact absurd hv (List.splitOn_ne_nil _ _)
  | cons root parts =>
      cases hv' : value'.toList.splitOn '.' with
      | nil => exact absurd hv' (List.splitOn_ne_nil _ _)
      | cons root' parts' =>
          rw [hv, hv', List.map_cons, List.map_cons, List.cons.injEq] at hsplit
          have hroot : eqIgnoreAsciiCase (String.ofList root) "root" =
              eqIgnoreAsciiCase (String.ofList root') "root" := by
            simp only [eqIgnoreAsciiCase, toAsciiLowercase, String.toList_ofList]
            rw [hsplit.1]
          dsimp only
          rw [hroot, parseSegments_congr hsplit.2]

theorem parseInteger_of_isDigit {c : Char} (h : c.isDigit = true) (low high : Int)
    (cs : List Char) : parseInteger low high (String.ofList (c :: cs)) =
      parseDigits low high false (c :: cs) 0 := by
  have hplus : '+' ≠ c := fun h' => absurd (h' ▸ h) (by decide)
  have hminus : '-' ≠ c := fun h' => absurd (h' ▸ h) (by decide)
  unfold parseInteger
  split <;> rename_i hlist <;> rw [String.toList_ofList] at hlist
  · cases hlist
  · exact absurd (List.cons.inj hlist).1.symm hplus
  · exact absurd (List.cons.inj hlist).1.symm hminus
  · exact absurd (List.cons.inj hlist).1.symm hplus
  · exact absurd (List.cons.inj hlist).1.symm hminus
  · rw [String.toList_ofList]

/-- A zero before a digit adds nothing. -/
theorem parseUnsigned_zero {c : Char} (h : c.isDigit = true) (cs : List Char) :
    parseUnsigned 64 (String.ofList ('0' :: c :: cs)) =
      parseUnsigned 64 (String.ofList (c :: cs)) := by
  have hzero : '0'.isDigit = true := rfl
  rw [parseUnsigned, parseUnsigned, parseInteger_of_isDigit hzero, parseInteger_of_isDigit h,
    parseDigits, if_pos hzero]
  rfl

theorem parseSegments_zero {c : Char} (h : c.isDigit = true) (cs : List Char)
    (parts : List (List Char)) (afterIndex : Bool) (text : String) :
    parseSegments (('0' :: c :: cs) :: parts) afterIndex text =
      parseSegments ((c :: cs) :: parts) afterIndex text := by
  have hzero : '0'.toLower = '0' := rfl
  have hc := toLower_of_isDigit h
  have hmember : ∀ d cs, d.isDigit = true →
      ¬ (String.ofList (d :: cs) = "key" ∨ String.ofList (d :: cs) = "value") := by
    intro d cs hd hname
    rcases hname with hname | hname <;>
    · have hlist := congrArg String.toList hname
      rw [String.toList_ofList] at hlist
      exact absurd ((List.cons.inj hlist).1 ▸ hd) (by decide)
  have hempty : ∀ d cs, String.ofList (d :: cs) ≠ "" := by
    intro d cs hname
    have hlist := congrArg String.toList hname
    rw [String.toList_ofList] at hlist
    cases hlist
  have hlower : ∀ cs : List Char, toAsciiLowercase (String.ofList cs) =
      String.ofList (cs.map Char.toLower) := by
    intro cs
    rw [toAsciiLowercase, String.toList_ofList]
  simp only [parseSegments, hlower, List.map_cons, hzero, hc]
  have hzeroDigit : '0'.isDigit = true := rfl
  simp only [hmember '0' _ rfl, hmember c _ h, and_false, if_false, ne_eq, hempty,
    not_false_eq_true, true_and, String.toList_ofList, List.all_cons, hzeroDigit, h,
    Bool.true_and, parseUnsigned_zero h]

theorem parseSegments_append_congr {before parts parts' : List (List Char)}
    (h : ∀ afterIndex text, parseSegments parts afterIndex text =
      parseSegments parts' afterIndex text) (afterIndex : Bool) (text : String) :
    parseSegments (before ++ parts) afterIndex text =
      parseSegments (before ++ parts') afterIndex text := by
  induction before generalizing afterIndex text with
  | nil => exact h afterIndex text
  | cons part before ih =>
      rw [List.cons_append, List.cons_append, parseSegments, parseSegments]
      simp only [ih]

/-- A leading zero of an index does not matter. -/
theorem parse_zero {c : Char} (hc : c.isDigit = true) (before after : List Char) :
    parse (String.ofList (before ++ '.' :: '0' :: c :: after)) =
      parse (String.ofList (before ++ '.' :: c :: after)) := by
  have hany : ∀ rest, eqIgnoreAsciiCase (String.ofList (before ++ '.' :: rest)) "ANY" = false := by
    intro rest
    rw [Bool.eq_false_iff, ne_eq, eqIgnoreAsciiCase_iff]
    intro hsame
    have hdot : '.' ∈ (toAsciiLowercase (String.ofList (before ++ '.' :: rest))).toList := by
      rw [toAsciiLowercase, String.toList_ofList, String.toList_ofList]
      exact List.mem_map.mpr ⟨'.', by simp, rfl⟩
    rw [hsame] at hdot
    exact absurd hdot (by decide)
  have hne : c ≠ '.' := fun h => absurd (h ▸ hc) (by decide)
  have hfirst := List.splitOn_ne_nil '.' after
  rcases List.exists_cons_of_ne_nil hfirst with ⟨digits, rest, hrest⟩
  have hshort : (c :: after).splitOn '.' = (c :: digits) :: rest := by
    rw [List.splitOn_cons_eq_if_modifyHead, hrest]
    simp [hne]
  have hlong : ('0' :: c :: after).splitOn '.' = ('0' :: c :: digits) :: rest := by
    rw [List.splitOn_cons_eq_if_modifyHead, hshort]
    simp
  rw [parse, parse, hany, hany, String.toList_ofList, String.toList_ofList,
    List.splitOn_append_cons_self, List.splitOn_append_cons_self, hlong, hshort]
  have hroot := List.splitOn_ne_nil '.' before
  rcases List.exists_cons_of_ne_nil hroot with ⟨root, parts, hbefore⟩
  rw [hbefore]
  simp only [List.cons_append, Bool.false_eq_true, if_false]
  rw [parseSegments_append_congr (parseSegments_zero hc digits rest)]

/-- Leading zeros of an index do not matter. -/
theorem parse_zeros {c : Char} (hc : c.isDigit = true) (before after : List Char) (count : Nat) :
    parse (String.ofList (before ++ '.' :: (List.replicate count '0' ++ c :: after))) =
      parse (String.ofList (before ++ '.' :: c :: after)) := by
  induction count with
  | zero => rfl
  | succ count ih =>
      rw [← ih, List.replicate_succ, List.cons_append]
      cases count with
      | zero => exact parse_zero hc before after
      | succ count =>
          rw [List.replicate_succ, List.cons_append]
          exact parse_zero rfl before _

end Target

end EvilResp
