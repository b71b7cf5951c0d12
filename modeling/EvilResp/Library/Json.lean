import EvilResp.Library.Fields
import EvilResp.Library.Text

/-!
# JSON texts

Compact JSON texts of values whose numbers are natural numbers, with the escapes a line-based
log needs: no control character stands for itself, so a value never spans a line.

Main results:

- Theorem {lit}`Json.readValue_render`: a reader takes a printed value off any text that does
  not go on with a digit.
- Theorem {lit}`Json.parse_render`: a printed value is read back.
- Theorem {lit}`Json.lf_not_mem_render`: a printed value is one line.
-/

namespace Library

/-- Values of the format. Numbers are natural. -/
inductive Json where
  | null
  | bool (value : Bool)
  | nat (value : Nat)
  | str (value : String)
  | arr (items : List Json)
  | obj (fields : List (String × Json))

namespace Json

/-! ## Printing -/

/-- The form of one character between quotes. -/
def escape (c : Char) : List Char :=
  if c = '"' then ['\\', '"']
  else if c = '\\' then ['\\', '\\']
  else if c.toNat = 8 then ['\\', 'b']
  else if c.toNat = 9 then ['\\', 't']
  else if c.toNat = 10 then ['\\', 'n']
  else if c.toNat = 12 then ['\\', 'f']
  else if c.toNat = 13 then ['\\', 'r']
  else if c.toNat < 32 then
    ['\\', 'u', '0', '0', Nat.digitChar (c.toNat / 16), Nat.digitChar (c.toNat % 16)]
  else [c]

/-- A text between quotes. -/
def quote (s : String) : List Char :=
  '"' :: (s.toList.flatMap escape ++ ['"'])

mutual

/-- A value as it is written, without white space. -/
def render : Json → List Char
  | null => ['n', 'u', 'l', 'l']
  | bool true => ['t', 'r', 'u', 'e']
  | bool false => ['f', 'a', 'l', 's', 'e']
  | nat value => value.repr.toList
  | str value => quote value
  | arr [] => ['[', ']']
  | arr (item :: items) => '[' :: (render item ++ renderItems items)
  | obj [] => ['{', '}']
  | obj ((name, value) :: fields) =>
      '{' :: (quote name ++ ':' :: (render value ++ renderFields fields))

/-- The items after the first, and the end of the array. -/
def renderItems : List Json → List Char
  | [] => [']']
  | item :: items => ',' :: (render item ++ renderItems items)

/-- The fields after the first, and the end of the object. -/
def renderFields : List (String × Json) → List Char
  | [] => ['}']
  | (name, value) :: fields =>
      ',' :: (quote name ++ ':' :: (render value ++ renderFields fields))

end

/-! ## Reading -/

/-- The value of a lower-case hexadecimal digit. -/
def hexDigit (c : Char) : Nat :=
  if c.isDigit then c.toNat - 48 else c.toNat - 87

/-- The character of a two-character escape. -/
def unescape (c : Char) : Option Char :=
  if c = '"' ∨ c = '\\' ∨ c = '/' then some c
  else if c = 'b' then some (Char.ofNat 8)
  else if c = 't' then some (Char.ofNat 9)
  else if c = 'n' then some (Char.ofNat 10)
  else if c = 'f' then some (Char.ofNat 12)
  else if c = 'r' then some (Char.ofNat 13)
  else none

/-- Read one escaped character. -/
def readChar : List Char → Option (Char × List Char)
  | [] => none
  | c :: cs =>
      if c ≠ '\\' then some (c, cs)
      else
        match cs with
        | 'u' :: a :: b :: c :: d :: rest =>
            some (Char.ofNat (16 * (16 * (16 * hexDigit a + hexDigit b) + hexDigit c) + hexDigit d),
              rest)
        | c :: rest => (unescape c).map fun c => (c, rest)
        | [] => none

/-- Read up to the closing quote. -/
def readText : Nat → List Char → Option (List Char × List Char)
  | 0, _ => none
  | fuel + 1, cs =>
      if cs.head? = some '"' then some ([], cs.tail)
      else (readChar cs).bind fun (c, rest) =>
        (readText fuel rest).map fun (text, rest) => (c :: text, rest)

/-- Read a text between quotes. -/
def readQuoted : List Char → Option (String × List Char)
  | '"' :: cs => (readText (cs.length + 1) cs).map fun (text, rest) => (String.ofList text, rest)
  | _ => none

/-- Take a word off a text. -/
def dropWord (word cs : List Char) : Option (List Char) :=
  if word <+: cs then some (cs.drop word.length) else none

/-- Read a natural number. -/
def readNat (cs : List Char) : Option (Json × List Char) :=
  let digits := cs.takeWhile Char.isDigit
  if digits = [] then none
  else some (nat (Nat.ofDigitChars 10 digits 0), cs.dropWhile Char.isDigit)

mutual

/-- Read a value. The fuel bounds the nesting and the number of items. -/
def readValue : Nat → List Char → Option (Json × List Char)
  | 0, _ => none
  | _ + 1, [] => none
  | fuel + 1, c :: cs =>
      if c = 'n' then (dropWord ['u', 'l', 'l'] cs).map fun rest => (null, rest)
      else if c = 't' then (dropWord ['r', 'u', 'e'] cs).map fun rest => (bool true, rest)
      else if c = 'f' then (dropWord ['a', 'l', 's', 'e'] cs).map fun rest => (bool false, rest)
      else if c = '"' then (readQuoted (c :: cs)).map fun (text, rest) => (str text, rest)
      else if c = '[' then
        if cs.head? = some ']' then some (arr [], cs.tail)
        else (readItems fuel cs).map fun (items, rest) => (arr items, rest)
      else if c = '{' then
        if cs.head? = some '}' then some (obj [], cs.tail)
        else (readFields fuel cs).map fun (fields, rest) => (obj fields, rest)
      else readNat (c :: cs)

/-- Read the items of a list, after its bracket. -/
def readItems : Nat → List Char → Option (List Json × List Char)
  | 0, _ => none
  | fuel + 1, cs =>
      (readValue fuel cs).bind fun (item, rest) =>
        match rest with
        | ']' :: rest => some ([item], rest)
        | ',' :: rest => (readItems fuel rest).map fun (items, rest) => (item :: items, rest)
        | _ => none

/-- Read the fields of an object, after its brace. -/
def readFields : Nat → List Char → Option (List (String × Json) × List Char)
  | 0, _ => none
  | fuel + 1, cs =>
      (readQuoted cs).bind fun (name, rest) =>
        (dropWord [':'] rest).bind fun rest =>
          (readValue fuel rest).bind fun (value, rest) =>
            match rest with
            | '}' :: rest => some ([(name, value)], rest)
            | ',' :: rest =>
                (readFields fuel rest).map fun (fields, rest) => ((name, value) :: fields, rest)
            | _ => none

end

/-- The value of a whole text. -/
def parse (cs : List Char) : Option Json :=
  match readValue cs.length cs with
  | some (value, []) => some value
  | _ => none

/-- The value of a field of an object. -/
def entry (name : String) : Json → Option Json
  | obj fields => (fields.find? fun field => field.1 = name).map Prod.snd
  | _ => none

/-! ## Schemas -/

/-- The number that a value is. -/
def asNat : Json → Option Nat
  | nat value => some value
  | _ => none

/-- The truth value that a value is. -/
def asBool : Json → Option Bool
  | bool value => some value
  | _ => none

/-- The text that a value is. -/
def asStr : Json → Option String
  | str value => some value
  | _ => none

/-- The list that a value is. -/
def asList {α : Type} (read : Json → Option α) : Json → Option (List α)
  | arr items => items.mapM read
  | _ => none

/-- A value that is null where there is none. -/
def nullable : Option Json → Json
  | none => null
  | some value => value

/-- The value, unless it is null. -/
def asNullable {α : Type} (read : Json → Option α) : Json → Option (Option α)
  | null => some none
  | value => (read value).map some

/-- A field that is left out where it has no value. -/
def optionalField (name : String) : Option Json → List (String × Json)
  | none => []
  | some value => [(name, value)]

/-- The value of a field that must be there. -/
def field {α : Type} (name : String) (read : Json → Option α) (value : Json) : Option α :=
  (entry name value).bind read

/-- The value of a field that may be left out. -/
def fieldIfAny {α : Type} (name : String) (read : Json → Option α) (value : Json) :
    Option (Option α) :=
  match entry name value with
  | none => some none
  | some value => (read value).map some

/-- A value of an enumeration by its name. -/
def named {α : Type} (name : α → String) (all : List α) : Json → Option α
  | str text => all.find? fun a => name a = text
  | _ => none

/-- A list is read back if each of its items is. -/
theorem mapM_map_eq_some {α β : Type} (write : α → β) (read : β → Option α)
    (h : ∀ a, read (write a) = some a) (items : List α) :
    (items.map write).mapM read = some items := by
  induction items with
  | nil => rfl
  | cons a items ih => simp [h, ih]

/-- A value that may be missing is read back. -/
theorem asNullable_nullable {α : Type} (write : α → Json) (read : Json → Option α)
    (h : ∀ a, read (write a) = some a) (hnull : ∀ a, write a ≠ null) (value : Option α) :
    asNullable read (nullable (value.map write)) = some value := by
  cases value with
  | none => rfl
  | some a =>
      have hwrite := hnull a
      rw [Option.map_some, nullable, asNullable, h a, Option.map_some]
      exact hwrite

/-! ## Texts -/

/-- A word in front is dropped. -/
theorem dropWord_append (word rest : List Char) : dropWord word (word ++ rest) = some rest := by
  simp [dropWord]

/-- A hexadecimal digit is read back. -/
theorem hexDigit_digitChar {n : Nat} (h : n < 16) : hexDigit n.digitChar = n := by
  interval_cases n <;> rfl

/-- A character is read back from its escape. -/
theorem readChar_escape (c : Char) (rest : List Char) :
    readChar (escape c ++ rest) = some (c, rest) := by
  unfold escape
  split_ifs with hquote hslash hb ht hn hf hr hcontrol
  · rw [hquote]
    rfl
  · rw [hslash]
    rfl
  · rw [← Char.ofNat_toNat c, hb]
    rfl
  · rw [← Char.ofNat_toNat c, ht]
    rfl
  · rw [← Char.ofNat_toNat c, hn]
    rfl
  · rw [← Char.ofNat_toNat c, hf]
    rfl
  · rw [← Char.ofNat_toNat c, hr]
    rfl
  · have hzero : hexDigit '0' = 0 := rfl
    have hhigh := hexDigit_digitChar (n := c.toNat / 16) (by omega)
    have hlow := hexDigit_digitChar (n := c.toNat % 16) (by omega)
    have hcode : 16 * (16 * (16 * 0 + 0) + c.toNat / 16) + c.toNat % 16 = c.toNat := by omega
    simp only [List.cons_append, List.nil_append, readChar, ne_eq, not_true_eq_false, if_false,
      hzero, hhigh, hlow, hcode, Char.ofNat_toNat]
  · simp [readChar, hslash]

/-- An escape does not start with the quote. -/
theorem head?_escape (c : Char) (rest : List Char) : (escape c ++ rest).head? ≠ some '"' := by
  unfold escape
  split_ifs with hquote
  all_goals simp [*]

/-- No character is written as nothing. -/
theorem escape_ne_nil (c : Char) : escape c ≠ [] := by
  unfold escape
  split_ifs <;> simp

/-- A text is read back from its escapes. -/
theorem readText_escape (text rest : List Char) :
    ∀ fuel, text.length < fuel →
      readText fuel (text.flatMap escape ++ '"' :: rest) = some (text, rest) := by
  induction text with
  | nil =>
      intro fuel hfuel
      obtain ⟨fuel, rfl⟩ := Nat.exists_eq_add_one_of_ne_zero (by omega : fuel ≠ 0)
      simp [readText]
  | cons c text ih =>
      intro fuel hfuel
      obtain ⟨fuel, rfl⟩ := Nat.exists_eq_add_one_of_ne_zero (by omega : fuel ≠ 0)
      have htext := ih fuel (by simpa using hfuel)
      rw [List.flatMap_cons, List.append_assoc, readText, if_neg (head?_escape c _),
        readChar_escape]
      simp [htext]

/-- A text is written in no fewer characters. -/
theorem length_le_flatMap_escape (text : List Char) :
    text.length ≤ (text.flatMap escape).length := by
  induction text with
  | nil => simp
  | cons c text ih =>
      have hpos := List.length_pos_iff.mpr (escape_ne_nil c)
      simp only [List.length_cons, List.flatMap_cons, List.length_append]
      omega

/-- A text is read back, whatever follows it. -/
theorem readQuoted_quote (s : String) (rest : List Char) :
    readQuoted (quote s ++ rest) = some (s, rest) := by
  have hlength := length_le_flatMap_escape s.toList
  have htext := readText_escape s.toList rest
    ((s.toList.flatMap escape ++ '"' :: rest).length + 1) (by rw [List.length_append]; omega)
  simp only [quote, List.cons_append, List.append_assoc, List.nil_append, readQuoted]
  rw [htext, Option.map_some, String.ofList_toList]

/-! ## Values -/

/-- The text does not go on with a digit. -/
def EndsNumber (rest : List Char) : Prop :=
  ∀ c ∈ rest.head?, c.isDigit = false

/-- Behind an item there is no digit. -/
theorem endsNumber_renderItems (items : List Json) (rest : List Char) :
    EndsNumber (renderItems items ++ rest) := by
  cases items <;> simp [EndsNumber, renderItems]

/-- Behind a field there is no digit. -/
theorem endsNumber_renderFields (fields : List (String × Json)) (rest : List Char) :
    EndsNumber (renderFields fields ++ rest) := by
  rcases fields with _ | ⟨⟨name, value⟩, fields⟩ <;> simp [EndsNumber, renderFields]

/-- A number is read back if no digit follows. -/
theorem readNat_repr (n : Nat) {rest : List Char} (h : EndsNumber rest) :
    readNat (n.repr.toList ++ rest) = some (nat n, rest) := by
  have hdigits : ∀ c ∈ n.repr.toList, c.isDigit = true := fun c => isDigit_of_mem_repr
  have htake : rest.takeWhile Char.isDigit = [] := by
    cases rest with
    | nil => rfl
    | cons c rest => simp [h c rfl]
  have hdrop : rest.dropWhile Char.isDigit = rest := by
    cases rest with
    | nil => rfl
    | cons c rest => simp [h c rfl]
  have hvalue : Nat.ofDigitChars 10 n.repr.toList 0 = n := by
    rw [Nat.toList_repr]
    exact Nat.ofDigitChars_toDigits (by decide) (by decide)
  have hne : n.repr.toList ≠ [] := by
    rw [Nat.toList_repr]
    exact Nat.toDigits_ne_nil
  rw [readNat, List.takeWhile_append_of_pos hdigits, List.dropWhile_append_of_pos hdigits, htake,
    hdrop, List.append_nil]
  simp only [if_neg hne, hvalue]

/-- A number starts with a digit. -/
theorem head_repr (n : Nat) : ∃ c cs, n.repr.toList = c :: cs ∧ c.isDigit = true := by
  have hne : n.repr.toList ≠ [] := by
    rw [Nat.toList_repr]
    exact Nat.toDigits_ne_nil
  obtain ⟨c, cs, hcs⟩ := List.exists_cons_of_ne_nil hne
  exact ⟨c, cs, hcs, isDigit_of_mem_repr (n := n) (by simp [hcs])⟩

theorem render_ne_nil (value : Json) : render value ≠ [] := by
  cases value with
  | bool b => cases b <;> simp [render]
  | nat n =>
      obtain ⟨c, cs, hcs, -⟩ := head_repr n
      simp [render, hcs]
  | arr items => cases items <;> simp [render]
  | obj fields => rcases fields with _ | ⟨⟨name, value⟩, fields⟩ <;> simp [render]
  | null => simp [render]
  | str s => simp [render, quote]

/-- A printed value does not start like the end of an array. -/
theorem head?_render (value : Json) (rest : List Char) :
    (render value ++ rest).head? ≠ some ']' := by
  cases value with
  | bool b => cases b <;> simp [render]
  | nat n =>
      obtain ⟨c, cs, hcs, hdigit⟩ := head_repr n
      rw [render, hcs]
      rintro h
      obtain rfl : c = ']' := by simpa using h
      exact absurd hdigit (by decide)
  | arr items => cases items <;> simp [render]
  | obj fields => rcases fields with _ | ⟨⟨name, value⟩, fields⟩ <;> simp [render]
  | null => simp [render]
  | str s => simp [render, quote]

mutual

/-- A printed value is read off any text that does not go on with a digit. -/
theorem readValue_render : ∀ (value : Json) (fuel : Nat) {rest : List Char}, EndsNumber rest →
    (render value).length ≤ fuel → readValue fuel (render value ++ rest) = some (value, rest)
  | value, 0, rest, _, hfuel => by
      have hpos := List.length_pos_iff.mpr (render_ne_nil value)
      omega
  | null, fuel + 1, rest, _, _ => by simp [render, readValue, dropWord]
  | bool true, fuel + 1, rest, _, _ => by simp [render, readValue, dropWord]
  | bool false, fuel + 1, rest, _, _ => by simp [render, readValue, dropWord]
  | nat n, fuel + 1, rest, hrest, _ => by
      obtain ⟨c, cs, hcs, hdigit⟩ := head_repr n
      have hne : ∀ d : Char, d.isDigit = false → c ≠ d := by
        rintro d hd rfl
        rw [hdigit] at hd
        cases hd
      have hread := readNat_repr n hrest
      rw [hcs, List.cons_append] at hread
      rw [render, hcs, List.cons_append, readValue, if_neg (hne _ rfl), if_neg (hne _ rfl),
        if_neg (hne _ rfl), if_neg (hne _ rfl), if_neg (hne _ rfl), if_neg (hne _ rfl), hread]
  | str s, fuel + 1, rest, _, _ => by
      have hread := readQuoted_quote s rest
      have hquote : quote s ++ rest = '"' :: (s.toList.flatMap escape ++ ['"'] ++ rest) := rfl
      rw [hquote] at hread
      rw [render, hquote, readValue]
      simp [-List.append_assoc, hread]
  | arr [], fuel + 1, rest, _, _ => by simp [render, readValue]
  | arr (item :: items), fuel + 1, rest, _, hfuel => by
      simp only [render, List.length_cons, List.length_append] at hfuel
      have hitems := @readItems_render item items fuel rest (by omega)
      have hhead := head?_render item (renderItems items ++ rest)
      simp only [render, List.cons_append, List.append_assoc, readValue]
      simp [-List.head?_append, hhead, hitems]
  | obj [], fuel + 1, rest, _, _ => by simp [render, readValue]
  | obj ((name, value) :: fields), fuel + 1, rest, _, hfuel => by
      simp only [render, List.length_cons, List.length_append] at hfuel
      have hfields := @readFields_render name value fields fuel rest (by omega)
      have hhead : (quote name ++ ':' :: (render value ++ (renderFields fields ++ rest))).head? ≠
          some '}' := by
        simp [quote]
      simp only [render, List.cons_append, List.append_assoc, readValue]
      simp [-List.head?_append, hhead, hfields]

theorem readItems_render : ∀ (item : Json) (items : List Json) (fuel : Nat) {rest : List Char},
    (render item).length + (renderItems items).length ≤ fuel →
    readItems fuel (render item ++ (renderItems items ++ rest)) = some (item :: items, rest)
  | item, items, 0, rest, hfuel => by
      have hpos := List.length_pos_iff.mpr (render_ne_nil item)
      omega
  | item, [], fuel + 1, rest, hfuel => by
      have hitem := readValue_render item fuel (endsNumber_renderItems [] rest)
        (by simpa [renderItems] using hfuel)
      rw [readItems, hitem]
      simp [renderItems]
  | item, next :: items, fuel + 1, rest, hfuel => by
      have hpos := List.length_pos_iff.mpr (render_ne_nil item)
      simp only [renderItems, List.length_cons, List.length_append] at hfuel
      have hitem := readValue_render item fuel (endsNumber_renderItems (next :: items) rest)
        (by omega)
      have hitems := @readItems_render next items fuel rest (by omega)
      rw [readItems, hitem]
      simp [renderItems, hitems]

theorem readFields_render : ∀ (name : String) (value : Json) (fields : List (String × Json))
    (fuel : Nat) {rest : List Char},
    (quote name).length + ((render value).length + (renderFields fields).length) < fuel →
    readFields fuel (quote name ++ ':' :: (render value ++ (renderFields fields ++ rest))) =
      some ((name, value) :: fields, rest)
  | name, value, fields, 0, rest, hfuel => by omega
  | name, value, [], fuel + 1, rest, hfuel => by
      have hvalue := readValue_render value fuel (endsNumber_renderFields [] rest) (by omega)
      have hcolon := dropWord_append [':'] (render value ++ (renderFields [] ++ rest))
      rw [readFields, readQuoted_quote]
      simp only [Option.bind_some, List.singleton_append] at hcolon ⊢
      rw [hcolon, Option.bind_some, hvalue]
      simp [renderFields]
  | name, value, (other, next) :: fields, fuel + 1, rest, hfuel => by
      simp only [renderFields, List.length_cons, List.length_append] at hfuel
      have hvalue := readValue_render value fuel
        (endsNumber_renderFields ((other, next) :: fields) rest) (by omega)
      have hfields := @readFields_render other next fields fuel rest (by omega)
      have hcolon := dropWord_append [':']
        (render value ++ (renderFields ((other, next) :: fields) ++ rest))
      rw [readFields, readQuoted_quote]
      simp only [Option.bind_some, List.singleton_append] at hcolon ⊢
      rw [hcolon, Option.bind_some, hvalue]
      simp [renderFields, hfields]

end

/-- A printed value is read back. -/
theorem parse_render (value : Json) : parse (render value) = some value := by
  have hend : EndsNumber [] := by simp [EndsNumber]
  have hread := readValue_render value (render value).length hend le_rfl
  rw [List.append_nil] at hread
  simp [parse, hread]

/-! ## Lines -/

theorem lf_not_mem_escape (c : Char) : '\n' ∉ escape c := by
  unfold escape
  split_ifs with hquote hslash hb ht hn
  all_goals simp [digitChar_ne_lf]
  rintro rfl
  exact hn rfl

theorem lf_not_mem_quote (s : String) : '\n' ∉ quote s := by
  simp [quote, lf_not_mem_escape]

mutual

/-- A printed value is one line. -/
theorem lf_not_mem_render : ∀ value : Json, '\n' ∉ render value
  | null => by decide
  | bool true => by decide
  | bool false => by decide
  | nat n => fun h => absurd (isDigit_of_mem_repr (n := n) h) (by decide)
  | str s => lf_not_mem_quote s
  | arr [] => by decide
  | arr (item :: items) => by
      simp [render, lf_not_mem_render item, lf_not_mem_renderItems items]
  | obj [] => by decide
  | obj ((name, value) :: fields) => by
      simp [render, lf_not_mem_quote, lf_not_mem_render value, lf_not_mem_renderFields fields]

theorem lf_not_mem_renderItems : ∀ items : List Json, '\n' ∉ renderItems items
  | [] => by decide
  | item :: items => by
      simp [renderItems, lf_not_mem_render item, lf_not_mem_renderItems items]

theorem lf_not_mem_renderFields : ∀ fields : List (String × Json), '\n' ∉ renderFields fields
  | [] => by decide
  | (name, value) :: fields => by
      simp [renderFields, lf_not_mem_quote, lf_not_mem_render value,
        lf_not_mem_renderFields fields]

end

end Json

end Library
