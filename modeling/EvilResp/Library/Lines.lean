import EvilResp.Library.Fields
import EvilResp.Library.Text

/-!
# Logs of one value a line

A codec writes values as bytes and reads them back.  If it puts each value on one line, a log that
is only appended to is read back as the values that were appended.

Main results:

- Theorem {lit}`Codec.Documented.readLines_lines`: a log is read back as its values, in order.
-/

namespace Library

/-- A way to write values, and to read back what was written. -/
structure Codec (α : Type) where
  toVec : α → Option Bytes
  fromSlice : Bytes → Option α

/-- Lines that all end are split at their ends. -/
theorem splitOn_lines {α : Type*} [BEq α] [LawfulBEq α] {sep : α} {lines : List (List α)}
    (h : ∀ line ∈ lines, sep ∉ line) :
    (lines.flatMap (· ++ [sep])).splitOn sep = lines ++ [[]] := by
  induction lines with
  | nil => rfl
  | cons line lines ih =>
      have hrest := ih fun other hother => h other (List.mem_cons_of_mem line hother)
      have hsep : (sep :: lines.flatMap (· ++ [sep])).splitOn sep =
          [] :: (lines.flatMap (· ++ [sep])).splitOn sep := by
        simp [List.splitOn, List.splitOnP_cons_eq_if_modifyHead]
      rw [List.flatMap_cons, List.append_assoc, List.singleton_append,
        splitOn_append (h line List.mem_cons_self), hsep, hrest, List.modifyHead_cons,
        List.append_nil, List.cons_append]

namespace Codec

variable {α : Type}

/-- What is documented of a codec: every value is written on one line and read back from it. -/
structure Documented (codec : Codec α) : Prop where
  line : ∀ a, ∃ line, codec.toVec a = some line ∧ (10 : UInt8) ∉ line ∧
    codec.fromSlice line = some a

/-- What is appended for a value: its line, or nothing if it cannot be written. -/
def line (codec : Codec α) (a : α) : Bytes :=
  match codec.toVec a with
  | some line => line ++ [10]
  | none => []

/-- The values of a log whose lines all end. -/
def readLines (codec : Codec α) (log : Bytes) : Option (List α) :=
  let parts := log.splitOn 10
  if parts.getLast? = some [] then parts.dropLast.mapM codec.fromSlice else none

variable {codec : Codec α}

/-- The lines that were written for some values. -/
theorem Documented.written (h : codec.Documented) (items : List α) :
    ∃ lines : List Bytes, items.flatMap codec.line = lines.flatMap (· ++ [10]) ∧
      (∀ line ∈ lines, (10 : UInt8) ∉ line) ∧ lines.mapM codec.fromSlice = some items := by
  induction items with
  | nil => exact ⟨[], rfl, by simp, rfl⟩
  | cons a items ih =>
      rcases h.line a with ⟨line, hline, hlf, hread⟩
      rcases ih with ⟨lines, hlines, hlfs, hreads⟩
      refine ⟨line :: lines, ?_, ?_, ?_⟩
      · rw [List.flatMap_cons, List.flatMap_cons, hlines, Codec.line, hline]
      · intro other hother
        rcases List.mem_cons.mp hother with rfl | hrest
        · exact hlf
        · exact hlfs other hrest
      · rw [List.mapM_cons, hread, hreads]
        rfl

/-- A log is read back as its values, in order. -/
theorem Documented.readLines_lines (h : codec.Documented) (items : List α) :
    codec.readLines (items.flatMap codec.line) = some items := by
  rcases h.written items with ⟨lines, hlines, hlf, hread⟩
  have hparts : (items.flatMap codec.line).splitOn 10 = lines ++ [[]] := by
    rw [hlines, splitOn_lines hlf]
  simp [readLines, hparts, hread]

end Codec

end Library
