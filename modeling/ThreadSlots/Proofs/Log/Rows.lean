import Mathlib.Data.List.TakeWhile
import ThreadSlots.Proofs.Log.Lines

/-!
# Validating texts row by row

The rows of a text stand between its line feeds. What validation finds in a text it finds in the rows,
in each for itself and under the row's own number (`validateText_eq`), since what a line ending may
have besides the line feed is trimmed. So the findings of two texts with a line feed between them are
those of the first text and those of the second one further down (`validateText_append`).
-/

namespace ThreadSlots.Text

/-- What stands between the line feeds of a text. -/
def rows (cs : List Char) : List (List Char) := cs.splitOn '\n'

theorem rows_cons_feed (cs : List Char) : rows ('\n' :: cs) = [] :: rows cs := by
  simp [rows, List.splitOn_cons_eq_if_modifyHead]

theorem rows_cons {c : Char} (h : c ≠ '\n') (cs : List Char) :
    rows (c :: cs) = (rows cs).modifyHead (c :: ·) := by
  simp [rows, List.splitOn_cons_eq_if_modifyHead, h]

theorem rows_append (cs ds : List Char) : rows (cs ++ '\n' :: ds) = rows cs ++ rows ds :=
  List.splitOn_append_cons_self cs ds

theorem length_rows (cs : List Char) : (rows cs).length = cs.count '\n' + 1 := by
  induction cs with
  | nil => rfl
  | cons c cs ih =>
    by_cases h : c = '\n'
    · subst h
      rw [rows_cons_feed, List.length_cons, ih, List.count_cons_self]
    · rw [rows_cons h, List.length_modifyHead, ih, List.count_cons_of_ne h]

theorem mem_of_mem_rows {cs row : List Char} (h : row ∈ rows cs) {c : Char} (hc : c ∈ row) : c ∈ cs := by
  induction cs generalizing row with
  | nil =>
    rw [List.mem_singleton.1 h] at hc
    exact hc
  | cons d cs ih =>
    by_cases hd : d = '\n'
    · subst hd
      rw [rows_cons_feed] at h
      obtain rfl | hmem := List.mem_cons.1 h
      · cases hc
      · exact List.mem_cons_of_mem _ (ih hmem hc)
    · rw [rows_cons hd] at h
      cases hrows : rows cs with
      | nil =>
        rw [hrows] at h
        cases h
      | cons first rest =>
        rw [hrows, List.modifyHead_cons] at h
        obtain rfl | hmem := List.mem_cons.1 h
        · obtain rfl | hfirst := List.mem_cons.1 hc
          · exact List.mem_cons_self
          · exact List.mem_cons_of_mem _ (ih (hrows ▸ List.mem_cons_self) hfirst)
        · exact List.mem_cons_of_mem _ (ih (hrows ▸ List.mem_cons_of_mem _ hmem) hc)

theorem modifyHead_nil_append (ls : List (List Char)) : ls.modifyHead ([] ++ ·) = ls := by
  cases ls <;> rfl

/-! ## Trimming what ends a row -/

theorem trim_append_blank (cs : List Char) {blank : List Char} (h : ∀ c ∈ blank, isBlank c = true) :
    trim (cs ++ blank) = trim cs := by
  have hreverse : ∀ c ∈ blank.reverse, isBlank c = true := fun c hc => h c (List.mem_reverse.1 hc)
  unfold trim trimEnd
  rw [List.dropWhile_append]
  split
  · next hnil =>
    have hblank : blank.dropWhile isBlank = [] := List.dropWhile_eq_nil_iff.2 h
    rw [List.isEmpty_iff.1 hnil, hblank]
  · rw [List.reverse_append, List.dropWhile_append_of_pos hreverse]

theorem trim_blank {blank : List Char} (h : ∀ c ∈ blank, isBlank c = true) : trim blank = [] :=
  trim_append_blank [] h

theorem trim_endedLine (cs : List Char) : trim (endedLine cs) = trim cs.reverse := by
  unfold endedLine
  split
  · next cs =>
    rw [List.reverse_cons]
    have hreturn : isBlank '\r' = true := rfl
    exact (trim_append_blank cs.reverse (by simpa using hreturn)).symm
  · rfl

end ThreadSlots.Text

namespace ThreadSlots.Log

open Text (rows trim isBlank)

/-- The violation in a line that stands `k` lines further down. -/
def Violation.moved (k : Nat) (v : Violation) : Violation := { v with line := v.line + k }

/-- What is wrong with a row of the given number, which may be blank. -/
def rowComplaints (row : List Char) (number : Nat) : List Violation :=
  if trim row = [] then [] else complaints (String.ofList (trim row)) number

/-- The row is not blank. -/
def isWritten (row : List Char) : Bool := !(trim row).isEmpty

/-! ## Single rows -/

theorem line_of_mem_complaints {line : String} {number : Nat} {v : Violation}
    (h : v ∈ complaints line number) : v.line = number := by
  unfold complaints validateLine at h
  cases hr : Entry.ofLine line with
  | ok entry =>
    rw [hr] at h
    cases h
  | error found =>
    rw [hr] at h
    obtain ⟨fault, -, rfl⟩ := List.mem_map.1 h
    rfl

theorem complaints_moved (line : String) (number k : Nat) :
    complaints line (number + k) = (complaints line number).map (·.moved k) := by
  unfold complaints validateLine
  cases Entry.ofLine line with
  | ok entry => rfl
  | error found => simp [Except.mapError, Violation.moved]

theorem line_of_mem_rowComplaints {row : List Char} {number : Nat} {v : Violation}
    (h : v ∈ rowComplaints row number) : v.line = number := by
  unfold rowComplaints at h
  split at h
  · cases h
  · exact line_of_mem_complaints h

theorem rowComplaints_moved (row : List Char) (number k : Nat) :
    rowComplaints row (number + k) = (rowComplaints row number).map (·.moved k) := by
  unfold rowComplaints
  split
  · rfl
  · exact complaints_moved _ _ _

/-! ## Rows one after the other -/

theorem validateLines_cons (number : Nat) (row : List Char) (rest : List (List Char)) :
    validateLines number (row :: rest) =
      ⟨(validateLines (number + 1) rest).lines + if isWritten row then 1 else 0,
        rowComplaints row number ++ (validateLines (number + 1) rest).violations⟩ := by
  rw [validateLines, rowComplaints, isWritten]
  by_cases h : trim row = []
  · simp only [h, List.isEmpty_nil, if_true, Bool.not_true, Bool.false_eq_true, if_false,
      Nat.add_zero, List.nil_append]
  · simp only [List.isEmpty_eq_false_iff.2 h, h, Bool.false_eq_true, if_false, Bool.not_false, if_true]
    rfl

/-- Only what is left of a row after trimming matters. -/
theorem validateLines_cons_congr {row row' : List Char} (h : trim row = trim row') (number : Nat)
    (rest : List (List Char)) :
    validateLines number (row :: rest) = validateLines number (row' :: rest) := by
  rw [validateLines, validateLines, h]

theorem validateLines_eq (number : Nat) (ls : List (List Char)) :
    validateLines number ls =
      ⟨ls.countP isWritten, (ls.zipIdx number).flatMap fun row => rowComplaints row.1 row.2⟩ := by
  induction ls generalizing number with
  | nil => rfl
  | cons row rest ih =>
    rw [validateLines_cons, ih, List.countP_cons, List.zipIdx_cons, List.flatMap_cons]

/-- Lines are rows: a carriage return before a line feed is trimmed, and a row after the last line feed
that is empty is blank. -/
theorem validateLines_linesFrom (number : Nat) (current cs : List Char) :
    validateLines number (Text.linesFrom current cs) =
      validateLines number ((rows cs).modifyHead (current.reverse ++ ·)) := by
  induction cs generalizing number current with
  | nil =>
    have hrows : (rows []).modifyHead (current.reverse ++ ·) = [current.reverse] := by simp [rows]
    rw [hrows, Text.linesFrom]
    split
    · next hnil =>
      rw [List.isEmpty_iff.1 hnil]
      rfl
    · rfl
  | cons c cs ih =>
    by_cases hc : c = '\n'
    · subst hc
      have hrest := ih (number + 1) []
      rw [List.reverse_nil, Text.modifyHead_nil_append] at hrest
      rw [Text.linesFrom, Text.rows_cons_feed, List.modifyHead_cons, List.append_nil,
        validateLines_cons_congr (Text.trim_endedLine current), validateLines_cons, hrest,
        validateLines_cons]
    · rw [Text.linesFrom, ih, Text.rows_cons hc, List.modifyHead_modifyHead]
      · simp [Function.comp_def]
      · exact hc

/-! ## Texts -/

theorem validateText_eq_rows (text : String) :
    validateText text = validateLines 1 (rows text.toList) := by
  rw [validateText, Text.lines, validateLines_linesFrom, List.reverse_nil, Text.modifyHead_nil_append]

/-- What is found in a text is what is found in each of its rows. -/
theorem validateText_eq (text : String) :
    validateText text =
      ⟨(rows text.toList).countP isWritten,
        ((rows text.toList).zipIdx 1).flatMap fun row => rowComplaints row.1 row.2⟩ := by
  rw [validateText_eq_rows, validateLines_eq]

/-! ## Texts one after the other -/

/-- Rows further down have the same complaints, further down. -/
theorem flatMap_rowComplaints_moved (ls : List (List Char)) (number k : Nat) :
    (ls.zipIdx (number + k)).flatMap (fun row => rowComplaints row.1 row.2) =
      ((ls.zipIdx number).flatMap fun row => rowComplaints row.1 row.2).map (·.moved k) := by
  induction ls generalizing number with
  | nil => rfl
  | cons row ls ih =>
    rw [List.zipIdx_cons, List.zipIdx_cons, List.flatMap_cons, List.flatMap_cons, List.map_append,
      rowComplaints_moved, ← ih, Nat.add_right_comm]

theorem le_line_of_mem {ls : List (List Char)} {number : Nat} {v : Violation}
    (h : v ∈ (ls.zipIdx number).flatMap fun row => rowComplaints row.1 row.2) : number ≤ v.line := by
  obtain ⟨row, hrow, hv⟩ := List.mem_flatMap.1 h
  rw [line_of_mem_rowComplaints hv]
  exact List.le_snd_of_mem_zipIdx hrow

theorem pairwise_line (ls : List (List Char)) (number : Nat) :
    ((ls.zipIdx number).flatMap fun row => rowComplaints row.1 row.2).Pairwise (·.line ≤ ·.line) := by
  induction ls generalizing number with
  | nil => exact .nil
  | cons row ls ih =>
    rw [List.zipIdx_cons, List.flatMap_cons, List.pairwise_append]
    refine ⟨List.pairwise_of_forall_mem_list fun v hv w hw => ?_, ih _, fun v hv w hw => ?_⟩
    · exact Nat.le_of_eq ((line_of_mem_rowComplaints hv).trans (line_of_mem_rowComplaints hw).symm)
    · rw [line_of_mem_rowComplaints hv]
      exact Nat.le_of_succ_le (le_line_of_mem hw)

/-- The findings in a text and in another one that starts on its next line. -/
theorem validateText_feed (a b : String) :
    validateText (a ++ "\n" ++ b) =
      ⟨(validateText a).lines + (validateText b).lines,
        (validateText a).violations ++
          (validateText b).violations.map (·.moved (1 + a.toList.count '\n'))⟩ := by
  have htext : (a ++ "\n" ++ b).toList = a.toList ++ '\n' :: b.toList := by simp
  have hnumber : 1 + (rows a.toList).length = 1 + (1 + a.toList.count '\n') := by
    rw [Text.length_rows, Nat.add_comm 1 (List.count _ _)]
  rw [validateText_eq, validateText_eq, validateText_eq, htext, Text.rows_append, List.countP_append,
    List.zipIdx_append, List.flatMap_append, hnumber, flatMap_rowComplaints_moved]

/-- Nothing is found in blank rows. -/
theorem validateLines_blank {ls : List (List Char)} (h : ∀ row ∈ ls, ∀ c ∈ row, isBlank c = true)
    (number : Nat) : validateLines number ls = ⟨0, []⟩ := by
  induction ls generalizing number with
  | nil => rfl
  | cons row ls ih =>
    obtain ⟨hrow, hls⟩ := List.forall_mem_cons.1 h
    rw [validateLines, Text.trim_blank hrow, ih hls]
    rfl

theorem validateLines_append_blank (cs : List Char) {blank : List Char}
    (h : ∀ c ∈ blank, isBlank c = true) (start : List Char) (number : Nat) :
    validateLines number ((rows (cs ++ blank)).modifyHead (start ++ ·)) =
      validateLines number ((rows cs).modifyHead (start ++ ·)) := by
  induction cs generalizing start number with
  | nil =>
    have hrows : ∀ row ∈ rows blank, ∀ c ∈ row, isBlank c = true :=
      fun row hrow c hc => h c (Text.mem_of_mem_rows hrow hc)
    cases hsplit : rows blank with
    | nil => exact absurd (Text.length_rows blank) (by simp [hsplit])
    | cons row rest =>
      rw [hsplit] at hrows
      obtain ⟨hrow, hrest⟩ := List.forall_mem_cons.1 hrows
      rw [List.nil_append, hsplit, List.modifyHead_cons,
        validateLines_cons_congr (Text.trim_append_blank start hrow), validateLines_cons,
        validateLines_blank hrest]
      simp [rows, validateLines_cons, validateLines]
  | cons c cs ih =>
    by_cases hc : c = '\n'
    · subst hc
      have hrest := ih [] (number + 1)
      rw [Text.modifyHead_nil_append, Text.modifyHead_nil_append] at hrest
      rw [List.cons_append, Text.rows_cons_feed, Text.rows_cons_feed, List.modifyHead_cons,
        List.modifyHead_cons, validateLines_cons, validateLines_cons, hrest]
    · have hrest := ih (start ++ [c]) number
      rw [List.cons_append, Text.rows_cons hc, Text.rows_cons hc, List.modifyHead_modifyHead,
        List.modifyHead_modifyHead]
      simpa [Function.comp_def] using hrest

/-- Blank characters at the end, line feeds among them, change nothing. -/
theorem validateText_append_blank (a : String) {blank : String}
    (h : ∀ c ∈ blank.toList, isBlank c = true) : validateText (a ++ blank) = validateText a := by
  have hrows := validateLines_append_blank a.toList h [] 1
  rw [Text.modifyHead_nil_append, Text.modifyHead_nil_append] at hrows
  rw [validateText_eq_rows, validateText_eq_rows, String.toList_append, hrows]

/-- The findings in two texts with blank lines between them. -/
theorem validateText_feed_blank (a b : String) {blank : String}
    (h : ∀ c ∈ blank.toList, isBlank c = true) :
    validateText (a ++ "\n" ++ blank ++ "\n" ++ b) =
      ⟨(validateText a).lines + (validateText b).lines,
        (validateText a).violations ++ (validateText b).violations.map
          (·.moved (2 + a.toList.count '\n' + blank.toList.count '\n'))⟩ := by
  have hblank : ∀ c ∈ ("\n" ++ blank).toList, isBlank c = true := by
    simpa using ⟨by decide, h⟩
  have hcount : 1 + (a ++ ("\n" ++ blank)).toList.count '\n' =
      2 + a.toList.count '\n' + blank.toList.count '\n' := by
    simp
    omega
  rw [@String.append_assoc a, validateText_feed, validateText_append_blank a hblank, hcount]

/-- The findings in a text and in one that starts on its next line are those of the two, the second
ones as far down as the first text has lines. Blank lines and a final line feed have no findings of
their own, and a carriage return before the line feed makes no difference. -/
theorem validateText_append (a b : String) :
    (validateText (a ++ "\n" ++ b) =
        ⟨(validateText a).lines + (validateText b).lines,
          (validateText a).violations ++
            (validateText b).violations.map (·.moved (1 + a.toList.count '\n'))⟩) ∧
      (∀ blank : String, (∀ c ∈ blank.toList, isBlank c = true) →
        validateText (a ++ blank) = validateText a ∧
          validateText (a ++ "\n" ++ blank ++ "\n" ++ b) =
            ⟨(validateText a).lines + (validateText b).lines,
              (validateText a).violations ++ (validateText b).violations.map
                (·.moved (2 + a.toList.count '\n' + blank.toList.count '\n'))⟩) ∧
      validateText (a ++ "\r\n" ++ b) = validateText (a ++ "\n" ++ b) ∧
      (validateText a =
        ⟨(rows a.toList).countP isWritten,
          ((rows a.toList).zipIdx 1).flatMap fun row => rowComplaints row.1 row.2⟩) ∧
      (validateText a).violations.Pairwise (·.line ≤ ·.line) := by
  have hcarriage : validateText (a ++ "\r\n" ++ b) = validateText (a ++ "\n" ++ b) := by
    have hreturn : isBlank '\r' = true := rfl
    have hblank : ∀ c ∈ "\r".toList, isBlank c = true := by simpa using hreturn
    have htext : a ++ "\r\n" ++ b = a ++ "\r" ++ "\n" ++ b := by simp [← String.toList_inj]
    have hcount : (a ++ "\r").toList.count '\n' = a.toList.count '\n' := by simp
    rw [htext, validateText_feed, validateText_append_blank a hblank, hcount, validateText_feed]
  refine ⟨validateText_feed a b, fun blank h => ?_, hcarriage, validateText_eq a, ?_⟩
  · exact ⟨validateText_append_blank a h, validateText_feed_blank a b h⟩
  · rw [validateText_eq]
    exact pairwise_line _ 1

end ThreadSlots.Log
