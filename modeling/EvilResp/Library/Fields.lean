import Mathlib.Tactic
import Mathlib.Data.List.TakeWhile

/-!
# Fields and lines

Splitting lists of characters at separators and at line ends, and maps kept as lists of
keys and values.

Main results:

- Theorem {lit}`splitWhitespace_cons`: fields that were joined by blanks are found again.
- Theorem {lit}`first_split_unique` and theorem {lit}`exists_first_split`: the first place of
  an item cuts a list in one way.
- Theorem {lit}`mem_of_lookup`: a map returns only what it lists.
-/

namespace Library

/-- What was tested of a list holds of its members. -/
theorem forall_mem_of_all {α : Type} {p : α → Prop} [DecidablePred p] {xs : List α}
    (h : (xs.all fun a => decide (p a)) = true) : ∀ a ∈ xs, p a := fun a ha =>
  of_decide_eq_true (List.all_eq_true.mp h a ha)

/-- Unicode white space. -/
def isWhitespace (c : Char) : Bool :=
  let n := c.toNat
  (9 ≤ n ∧ n ≤ 13) ∨ n = 0x20 ∨ n = 0x85 ∨ n = 0xA0 ∨ n = 0x1680 ∨ (0x2000 ≤ n ∧ n ≤ 0x200A) ∨
    n = 0x2028 ∨ n = 0x2029 ∨ n = 0x202F ∨ n = 0x205F ∨ n = 0x3000

/-- The non-empty fields between white space. -/
def splitWhitespace (s : String) : List String :=
  ((s.toList.splitOnP isWhitespace).filter (· ≠ [])).map String.ofList

/-- Split at the first occurrence of a character. -/
def splitOnce (c : Char) : List Char → Option (List Char × List Char)
  | [] => none
  | d :: rest =>
      if d = c then some ([], rest)
      else (splitOnce c rest).map fun (before, after) => (d :: before, after)

/-- Remove one carriage return at the end of a line. -/
def stripCr (line : List Char) : List Char :=
  if line.getLast? = some '\r' then line.dropLast else line

/-- The lines of a text.  A line feed ends a line, and the last line may lack one. -/
def lines (cs : List Char) : List (List Char) :=
  let parts := cs.splitOn '\n'
  let last := parts.getLastD []
  parts.dropLast.map stripCr ++ (if last = [] then [] else [last])

/-- A text that is one field. -/
structure IsField (s : String) : Prop where
  nonempty : s.toList ≠ []
  unspaced : ∀ c ∈ s.toList, isWhitespace c = false

theorem isWhitespace_of_graphic {c : Char} (hlow : 33 ≤ c.toNat) (hhigh : c.toNat < 127) :
    isWhitespace c = false := by
  simp only [isWhitespace, decide_eq_false_iff_not]
  omega

theorem toNat_of_isDigit {c : Char} (h : c.isDigit = true) : 48 ≤ c.toNat ∧ c.toNat ≤ 57 := by
  rw [Char.isDigit, Bool.and_eq_true, decide_eq_true_eq, decide_eq_true_eq] at h
  exact ⟨UInt32.le_iff_toNat_le.mp h.1, UInt32.le_iff_toNat_le.mp h.2⟩

theorem isWhitespace_of_isDigit {c : Char} (h : c.isDigit = true) : isWhitespace c = false :=
  isWhitespace_of_graphic (by have := toNat_of_isDigit h; omega)
    (by have := toNat_of_isDigit h; omega)

theorem splitWhitespace_of_isField {s : String} (h : IsField s) : splitWhitespace s = [s] := by
  rw [splitWhitespace, List.splitOnP_eq_singleton h.unspaced]
  simp [h.nonempty]

/-- A field, a blank and a text give the field and those of the text. -/
theorem splitWhitespace_cons {s : String} (h : IsField s) (t : String) :
    splitWhitespace (s ++ " " ++ t) = s :: splitWhitespace t := by
  have hblank : isWhitespace ' ' = true := by decide
  have htext : (s ++ " " ++ t).toList = s.toList ++ ' ' :: t.toList := by
    simp [String.toList_append]
  rw [splitWhitespace, htext, List.splitOnP_append_cons_of_forall_mem h.unspaced ' ' hblank,
    splitWhitespace]
  simp [h.nonempty]

theorem splitOnce_append {c : Char} {w : List Char} (h : c ∉ w) (cs : List Char) :
    splitOnce c (w ++ cs) = (splitOnce c cs).map fun parts => (w ++ parts.1, parts.2) := by
  induction w with
  | nil => simp
  | cons d w ih =>
      rcases not_or.mp (mt List.mem_cons.mpr h) with ⟨hne, hw⟩
      rw [List.cons_append, splitOnce, if_neg (Ne.symm hne), ih hw, Option.map_map]
      rfl

theorem stripCr_append (w : List Char) {line : List Char} (h : w.getLast? ≠ some '\r') :
    stripCr (w ++ line) = w ++ stripCr line := by
  cases line with
  | nil => simp [stripCr, h]
  | cons c line =>
      simp only [stripCr, List.getLast?_append_of_ne_nil _ (List.cons_ne_nil c line)]
      split
      · rw [List.dropLast_append_of_ne_nil (List.cons_ne_nil c line)]
      · rfl

theorem splitOn_append {α : Type*} [BEq α] [LawfulBEq α] {c : α} {w : List α} (h : c ∉ w)
    (cs : List α) :
    (w ++ cs).splitOn c = (cs.splitOn c).modifyHead (w ++ ·) := by
  rcases List.exists_cons_of_ne_nil (List.splitOn_ne_nil c cs) with ⟨first, rest, hcs⟩
  induction w with
  | nil => rw [List.nil_append, hcs]; rfl
  | cons d w ih =>
      rcases not_or.mp (mt List.mem_cons.mpr h) with ⟨hne, hw⟩
      have hd : (d == c) = false := beq_false_of_ne (Ne.symm hne)
      have htail : (w ++ cs).splitOnP (· == c) = _ := ih hw
      rw [List.cons_append, List.splitOn, List.splitOnP_cons_eq_if_modifyHead, hd, htail, hcs]
      rfl

/-- A text before the first line end belongs to the first line. -/
theorem lines_append {w : List Char} (hlf : '\n' ∉ w) (hcr : w.getLast? ≠ some '\r')
    (hne : w ≠ []) (cs : List Char) :
    lines (w ++ cs) = (w ++ (lines cs).headD []) :: (lines cs).tail := by
  rcases List.exists_cons_of_ne_nil (List.splitOn_ne_nil '\n' cs) with ⟨first, rest, hcs⟩
  simp only [lines, splitOn_append hlf, hcs, List.modifyHead_cons]
  cases rest with
  | nil =>
      by_cases hfirst : first = []
      · simp [hfirst, hne]
      · simp [hfirst, hne]
  | cons second rest => simp [stripCr_append w hcr]

/-! ## First places -/

section FirstPlace

variable {ι : Type}

/-- A list is cut in one way only at the first place of an item. -/
theorem first_split_unique {b : ι} {p q u v : List ι} (hp : b ∉ p) (hq : b ∉ q)
    (h : p ++ b :: u = q ++ b :: v) : p = q ∧ u = v := by
  induction p generalizing q with
  | nil =>
      cases q with
      | nil => exact ⟨rfl, (List.cons.inj h).2⟩
      | cons c q => exact absurd (List.mem_cons.mpr (.inl (List.cons.inj h).1)) hq
  | cons c p ih =>
      cases q with
      | nil => exact absurd (List.mem_cons.mpr (.inl (List.cons.inj h).1.symm)) hp
      | cons d q =>
          obtain ⟨hcd, hrest⟩ := List.cons.inj h
          obtain ⟨hpq, huv⟩ := ih (fun hb => hp (List.mem_cons_of_mem _ hb))
            (fun hb => hq (List.mem_cons_of_mem _ hb)) hrest
          exact ⟨by rw [hcd, hpq], huv⟩

/-- An item is absent, or its first place cuts the list. -/
theorem exists_first_split [DecidableEq ι] (b : ι) (items : List ι) :
    (items.dropWhile (· ≠ b) = [] ∧ b ∉ items) ∨
      ∃ rest, items.dropWhile (· ≠ b) = b :: rest ∧
        items = items.takeWhile (· ≠ b) ++ b :: rest ∧ b ∉ items.takeWhile (· ≠ b) := by
  have hnot : b ∉ items.takeWhile (· ≠ b) := fun hb => by
    simpa using List.mem_takeWhile_imp hb
  have hjoin := List.takeWhile_append_dropWhile (p := (· ≠ b)) (l := items)
  cases hrest : items.dropWhile (· ≠ b) with
  | nil =>
      rw [hrest, List.append_nil] at hjoin
      exact .inl ⟨rfl, hjoin ▸ hnot⟩
  | cons c rest =>
      have hc : c = b := by
        have := List.head?_dropWhile_not (· ≠ b) items
        rw [hrest] at this
        simpa using this
      rw [hrest, hc] at hjoin
      exact .inr ⟨rest, by rw [hc], hjoin.symm, hnot⟩

end FirstPlace

/-! ## Maps -/

variable {α β : Type} [BEq α]

/-- Insert a value, replacing an earlier one under the same key. -/
def insertKey (key : α) (value : β) (entries : List (α × β)) : List (α × β) :=
  (key, value) :: entries.filter fun entry => entry.1 != key

variable [LawfulBEq α]

/-- A map returns only what it lists. -/
theorem mem_of_lookup {key : α} {value : β} {entries : List (α × β)}
    (h : entries.lookup key = some value) : (key, value) ∈ entries := by
  induction entries with
  | nil => cases h
  | cons entry entries ih =>
      rcases entry with ⟨found, listed⟩
      by_cases hkey : key = found
      · subst hkey
        rw [List.lookup_cons_self, Option.some.injEq] at h
        rw [h]
        exact List.mem_cons_self
      · have hne : (key == found) = false := beq_false_of_ne hkey
        rw [List.lookup_cons, hne] at h
        exact List.mem_cons_of_mem _ (ih h)

@[simp] theorem lookup_insertKey_self (key : α) (value : β) (entries : List (α × β)) :
    (insertKey key value entries).lookup key = some value := by
  simp [insertKey]

theorem lookup_filter_ne {key other : α} (h : other ≠ key) (entries : List (α × β)) :
    (entries.filter fun entry => entry.1 != key).lookup other = entries.lookup other := by
  induction entries with
  | nil => rfl
  | cons entry entries ih =>
      rcases entry with ⟨found, value⟩
      by_cases hkey : found = key
      · have hother : (other == found) = false := beq_false_of_ne (hkey ▸ h)
        simp [hkey, List.lookup_cons, beq_false_of_ne h, ih]
      · by_cases hfound : other = found
        · simp [hkey, hfound]
        · simp [hkey, List.lookup_cons, beq_false_of_ne hfound, ih]

theorem lookup_insertKey_ne {key other : α} (h : other ≠ key) (value : β)
    (entries : List (α × β)) :
    (insertKey key value entries).lookup other = entries.lookup other := by
  rw [insertKey, List.lookup_cons, beq_false_of_ne h]
  exact lookup_filter_ne h entries

theorem mem_insertKey {key : α} {value : β} {entries : List (α × β)} {entry : α × β}
    (h : entry ∈ insertKey key value entries) :
    entry = (key, value) ∨ (entry ∈ entries ∧ entry.1 ≠ key) := by
  rcases List.mem_cons.mp h with h | h
  · exact .inl h
  · rcases List.mem_filter.mp h with ⟨hmem, hne⟩
    exact .inr ⟨hmem, by simpa using hne⟩

/-! ## Maps built from lists -/

variable {ι : Type}

/-- Insert the value of an item that has a key. -/
def insertItem (key : ι → Option α) (value : ι → β) (entries : List (α × β)) (item : ι) :
    List (α × β) :=
  match key item with
  | some k => insertKey k (value item) entries
  | none => entries

variable {key : ι → Option α} {value : ι → β}

/-- What a map lists under a key is the value of an item with that key, or was there. -/
theorem lookup_insertItem {items : List ι} {entries : List (α × β)} {k : α} {v : β}
    (h : (items.foldl (insertItem key value) entries).lookup k = some v) :
    (∃ item ∈ items, key item = some k ∧ value item = v) ∨ entries.lookup k = some v := by
  induction items generalizing entries with
  | nil => exact .inr h
  | cons item items ih =>
      rcases ih h with ⟨other, hmem, hother⟩ | h
      · exact .inl ⟨other, List.mem_cons_of_mem _ hmem, hother⟩
      · unfold insertItem at h
        split at h
        · rename_i found hfound
          by_cases hk : k = found
          · subst hk
            rw [lookup_insertKey_self] at h
            exact .inl ⟨item, List.mem_cons_self, hfound, Option.some.inj h⟩
          · rw [lookup_insertKey_ne hk] at h
            exact .inr h
        · exact .inr h

/-- A key is listed once an item has it. -/
theorem isSome_lookup_insertItem {items : List ι} {entries : List (α × β)} {k : α}
    (h : (∃ item ∈ items, key item = some k) ∨ (entries.lookup k).isSome) :
    ((items.foldl (insertItem key value) entries).lookup k).isSome := by
  induction items generalizing entries with
  | nil =>
      rcases h with ⟨item, hmem, -⟩ | h
      · cases hmem
      · exact h
  | cons item items ih =>
      have hstep : (entries.lookup k).isSome ∨ key item = some k →
          ((insertItem key value entries item).lookup k).isSome := by
        intro hor
        unfold insertItem
        split
        · rename_i found hfound
          by_cases hk : k = found
          · simp [hk]
          · rw [lookup_insertKey_ne hk]
            refine hor.resolve_right fun hkey => hk ?_
            exact Option.some.inj (hkey.symm.trans hfound)
        · rename_i hnone
          exact hor.resolve_right fun hkey => by simp [hnone] at hkey
      rcases h with ⟨other, hmem, hother⟩ | h
      · rcases List.mem_cons.mp hmem with rfl | hmem
        · exact ih (.inr (hstep (.inr hother)))
        · exact ih (.inl ⟨other, hmem, hother⟩)
      · exact ih (.inr (hstep (.inl h)))

/-- Where all items with a key have one value, the map lists it. -/
theorem lookup_insertItem_of_mem {items : List ι} {item : ι} {k : α} (hmem : item ∈ items)
    (hkey : key item = some k)
    (hsame : ∀ other ∈ items, key other = some k → value other = value item) :
    (items.foldl (insertItem key value) []).lookup k = some (value item) := by
  have hlisted : ((items.foldl (insertItem key value) []).lookup k).isSome :=
    isSome_lookup_insertItem (.inl ⟨item, hmem, hkey⟩)
  rcases Option.isSome_iff_exists.mp hlisted with ⟨found, hfound⟩
  rcases lookup_insertItem hfound with ⟨other, hother, hokey, hovalue⟩ | h
  · rw [hfound, ← hovalue, hsame other hother hokey]
  · cases h

end Library
