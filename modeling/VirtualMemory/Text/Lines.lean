/-!
# The lines of a text

A line ends at a line feed. A carriage return right before the line feed belongs to the end of the
line; anywhere else it is part of the line, as a tabulator is.

* `intercalate_split`, `lineFeed_notMem_of_mem_split`: the parts of a text are what stands between
  its line feeds;
* `trimReturn_append_return`: at the end of a line one carriage return goes, whatever is before it.
-/

namespace VirtualMemory.Lines

def split : List Char → List (List Char)
  | [] => [[]]
  | c :: rest => if c = '\n' then [] :: split rest else (split rest).modifyHead (c :: ·)

/-- A line without the carriage return of its end. -/
def trimReturn (line : List Char) : List Char :=
  if line.getLast? = some '\r' then line.dropLast else line

/-- The lines that a text makes when a line feed is put after it. -/
def ofText (text : String) : List String :=
  (split text.toList).map fun line => String.ofList (trimReturn line)

theorem split_ne_nil (text : List Char) : split text ≠ [] := by
  induction text with
  | nil => simp [split]
  | cons c rest ih =>
    by_cases h : c = '\n'
    · simp [split, h]
    · simpa [split, h] using ih

theorem intercalate_split (text : List Char) : ['\n'].intercalate (split text) = text := by
  induction text with
  | nil => simp [split]
  | cons c rest ih =>
    cases hs : split rest with
    | nil => exact absurd hs (split_ne_nil rest)
    | cons line lines =>
      rw [hs] at ih
      by_cases h : c = '\n'
      · rw [split, if_pos h, hs, List.intercalate_cons_cons, ih, h]
        rfl
      · rw [split, if_neg h, hs, List.modifyHead_cons]
        cases lines with
        | nil => simpa using ih
        | cons next others =>
          rw [List.intercalate_cons_cons] at ih ⊢
          rw [← ih]
          rfl

theorem lineFeed_notMem_of_mem_split {text line : List Char} (h : line ∈ split text) :
    '\n' ∉ line := by
  induction text generalizing line with
  | nil => simp_all [split]
  | cons c rest ih =>
    cases hs : split rest with
    | nil => exact absurd hs (split_ne_nil rest)
    | cons first others =>
      rw [hs] at ih
      by_cases hc : c = '\n'
      · rw [split, if_pos hc, hs] at h
        rcases List.mem_cons.mp h with rfl | h
        · exact List.not_mem_nil
        · exact ih h
      · rw [split, if_neg hc, hs, List.modifyHead_cons] at h
        rcases List.mem_cons.mp h with rfl | h
        · have := ih List.mem_cons_self
          simp [this, Ne.symm hc]
        · exact ih (List.mem_cons_of_mem _ h)

theorem trimReturn_append_return (line : List Char) : trimReturn (line ++ ['\r']) = line := by
  simp [trimReturn]

theorem trimReturn_eq_self {line : List Char} (h : line.getLast? ≠ some '\r') :
    trimReturn line = line :=
  if_neg h

end VirtualMemory.Lines
