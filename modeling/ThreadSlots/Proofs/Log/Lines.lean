import ThreadSlots.Proofs.Log.Contract

/-!
# Lines of a log

The line of an entry has no control characters and stands between braces (`Entry.plain_line`,
`Json.compact_obj_ends`), so a text of such lines is taken apart again where it was put together
(`lines_joined`). Validating it finds as many lines, and wrong with it what is wrong with each line in
its place (`validateText_joined`): nothing exactly if every entry is lawful (`validateText_join`).
-/

namespace ThreadSlots.Text

/-! ## Taking lines apart -/

theorem linesFrom_append {cs : List Char} (h : '\n' ∉ cs) (current rest : List Char) :
    linesFrom current (cs ++ '\n' :: rest) = endedLine (cs.reverse ++ current) :: linesFrom [] rest := by
  induction cs generalizing current with
  | nil => rfl
  | cons c cs ih =>
    obtain ⟨hc, hcs⟩ := not_or.1 (mt List.mem_cons.2 h)
    rw [List.cons_append, linesFrom, ih hcs, List.reverse_cons, List.append_assoc, List.singleton_append]
    exact fun he => hc he.symm

theorem endedLine_reverse {cs : List Char} (h : '\r' ∉ cs) : endedLine cs.reverse = cs := by
  unfold endedLine
  split
  · next he =>
    have hmem : '\r' ∈ cs.reverse := he ▸ List.mem_cons_self ..
    exact absurd (List.mem_reverse.1 hmem) h
  · exact List.reverse_reverse cs

/-- Lines that were ended one by one are the lines of the text. -/
theorem lines_flatMap {ls : List (List Char)} (h : ∀ l ∈ ls, '\n' ∉ l ∧ '\r' ∉ l) :
    lines (ls.flatMap (· ++ ['\n'])) = ls := by
  induction ls with
  | nil => rfl
  | cons l ls ih =>
    obtain ⟨⟨hfeed, hreturn⟩, hls⟩ := List.forall_mem_cons.1 h
    have ih := ih hls
    unfold lines at ih ⊢
    rw [List.flatMap_cons, List.append_assoc, List.singleton_append, linesFrom_append hfeed, ih,
      List.append_nil, endedLine_reverse hreturn]

theorem trim_eq_self {c d : Char} {cs ds : List Char} (hstart : cs = c :: ds)
    (hend : ∃ es, cs = es ++ [d]) (hc : isBlank c = false) (hd : isBlank d = false) : trim cs = cs := by
  obtain ⟨es, hes⟩ := hend
  unfold trim trimEnd
  rw [hstart, List.dropWhile_cons_of_neg (by simp [hc]), ← hstart, hes, List.reverse_append,
    List.reverse_singleton, List.singleton_append, List.dropWhile_cons_of_neg (by simp [hd])]
  simp

end ThreadSlots.Text

namespace ThreadSlots.Json

/-! ## The characters of a value -/

/-- No control characters. -/
def Plain (cs : List Char) : Prop := ∀ c ∈ cs, 32 ≤ c.toNat

theorem Plain.append {cs ds : List Char} (h : Plain cs) (h' : Plain ds) : Plain (cs ++ ds) :=
  List.forall_mem_append.2 ⟨h, h'⟩

theorem Plain.cons {c : Char} {cs : List Char} (hc : 32 ≤ c.toNat) (h : Plain cs) : Plain (c :: cs) :=
  List.forall_mem_cons.2 ⟨hc, h⟩

theorem plain_hexDigit : ∀ n < 16, 32 ≤ (hexDigit n).toNat := by decide

theorem plain_escapedChar (c : Char) : Plain (escapedChar c) := by
  have hshort {a b : Char} (ha : 32 ≤ a.toNat) (hb : 32 ≤ b.toNat) : Plain [a, b] :=
    .cons ha (.cons hb (List.forall_mem_nil _))
  unfold escapedChar
  repeat' split
  -- The seven characters with short escapes come first.
  iterate 7 exact hshort (by decide) (by decide)
  · next h =>
    have hdigits := hshort (plain_hexDigit (c.toNat / 16) (by omega))
      (plain_hexDigit (c.toNat % 16) (by omega))
    exact .append (hshort (by decide) (by decide)) (.append (hshort (by decide) (by decide)) hdigits)
  · next h => exact .cons (Nat.le_of_not_lt h) (List.forall_mem_nil _)

theorem plain_quoted (s : String) : Plain (quoted s) := by
  refine .cons (by decide) (.append ?_ (by simp [Plain]))
  intro c hc
  obtain ⟨d, -, hd⟩ := List.mem_flatMap.1 hc
  exact plain_escapedChar d c hd

theorem Plain.of_subset {cs ds : List Char} (h : Plain ds) (hsub : cs ⊆ ds) : Plain cs :=
  fun c hc => h c (hsub hc)

theorem plain_replicate_zero (n : Nat) : Plain (List.replicate n '0') := by
  intro c hc
  rw [List.eq_of_mem_replicate hc]
  decide

theorem plain_repr (n : Nat) : Plain n.repr.toList := by
  intro c hc
  rw [Nat.toList_repr] at hc
  have hle : '0'.toNat ≤ c.toNat := (range_of_isDigit (isDigit_of_mem_toDigits hc)).1
  exact Nat.le_trans (by decide) hle

theorem plain_intText (i : Int) : Plain (intText i) := by
  unfold intText
  split
  · exact .cons (by decide) (plain_repr _)
  · exact plain_repr _

theorem plain_shortest (x : Decimal.Magnitude) : Plain x.shortest.digits := by
  refine (plain_repr (x.shortestFrom x.decimalExponent 1 17).1).of_subset fun c hc => ?_
  have hmem := List.mem_reverse.1 hc
  exact List.mem_reverse.1 ((List.dropWhile_sublist _).subset hmem)

theorem plain_positional {d : Decimal.Digits} (h : Plain d.digits) : Plain (positional d) := by
  have hwhole (n : Nat) : Plain (d.digits.take n) := h.of_subset (List.take_subset n _)
  have hfraction (n : Nat) : Plain (d.digits.drop n) := h.of_subset (List.drop_subset n _)
  unfold positional
  split
  · exact .cons (by decide) (.cons (by decide) ((plain_replicate_zero _).append h))
  · refine ((hwhole _).append (plain_replicate_zero _)).append (.cons (by decide) ?_)
    split
    · exact .cons (by decide) (List.forall_mem_nil _)
    · exact hfraction _

theorem plain_scientific {d : Decimal.Digits} (h : Plain d.digits) : Plain (scientific d) := by
  have hsign : Plain ('e' :: (if d.exponent < 0 then '-' else '+') :: d.exponent.natAbs.repr.toList) := by
    refine .cons (by decide) (.cons ?_ (plain_repr _))
    split <;> decide
  refine Plain.append ?_ hsign
  split
  · next first second rest hdigits =>
    rw [hdigits] at h
    obtain ⟨hfirst, hrest⟩ := List.forall_mem_cons.1 h
    exact .cons hfirst (.cons (by decide) hrest)
  · exact h

theorem plain_floatText (negative : Bool) (x : Decimal.Magnitude) : Plain (floatText negative x) := by
  have hmagnitude : Plain (floatText false x) := by
    unfold floatText
    by_cases hzero : x.isZero
    · simp [hzero, Plain]
    · simp only [hzero, Bool.false_eq_true, if_false]
      split
      · exact plain_positional (plain_shortest x)
      · exact plain_scientific (plain_shortest x)
  cases negative with
  | false => exact hmagnitude
  | true => exact .cons (by decide) hmagnitude

theorem plain_field {k : String} {cs : List Char} (h : Plain cs) : Plain (quoted k ++ ':' :: cs) :=
  (plain_quoted k).append (.cons (by decide) h)

mutual

theorem plain_compact : ∀ v : Json, Plain (compact v)
  | .null => by simp [compact, Plain]
  | .bool true => by simp [compact, Plain]
  | .bool false => by simp [compact, Plain]
  | .int i => plain_intText i
  | .float negative x => plain_floatText negative x
  | .str s => plain_quoted s
  | .arr [] => by simp [compact, Plain]
  | .arr (v :: vs) => .cons (by decide) ((plain_compact v).append (plain_compactElements vs))
  | .obj [] => by simp [compact, Plain]
  | .obj ((_, v) :: fs) =>
    .cons (by decide) ((plain_field (plain_compact v)).append (plain_compactFields fs))

theorem plain_compactElements : ∀ vs : List Json, Plain (compactElements vs)
  | [] => by simp [compactElements, Plain]
  | v :: vs => .cons (by decide) ((plain_compact v).append (plain_compactElements vs))

theorem plain_compactFields : ∀ fs : List (String × Json), Plain (compactFields fs)
  | [] => by simp [compactFields, Plain]
  | (_, v) :: fs =>
    .cons (by decide) ((plain_field (plain_compact v)).append (plain_compactFields fs))

end

/-- An object stands between braces. -/
theorem compact_obj_ends (fs : List (String × Json)) :
    (∃ ds, compact (.obj fs) = '\x7b' :: ds) ∧ ∃ es, compact (.obj fs) = es ++ ['\x7d'] := by
  have hfields (fs : List (String × Json)) : ∃ es, compactFields fs = es ++ ['\x7d'] := by
    induction fs with
    | nil => exact ⟨[], rfl⟩
    | cons f fs ih =>
      obtain ⟨es, hes⟩ := ih
      exact ⟨',' :: quoted f.1 ++ ':' :: compact f.2 ++ es, by simp [compactFields, hes]⟩
  cases fs with
  | nil => exact ⟨⟨_, rfl⟩, ['\x7b'], rfl⟩
  | cons f fs =>
    obtain ⟨es, hes⟩ := hfields fs
    exact ⟨⟨_, rfl⟩, '\x7b' :: quoted f.1 ++ ':' :: compact f.2 ++ es, by simp [compact, hes]⟩

end ThreadSlots.Json

namespace ThreadSlots.Log

/-! ## The line of an entry -/

theorem Entry.plain_line (e : Entry) : Json.Plain e.line.toList := by
  rw [Entry.line, Json.render, String.toList_ofList]
  exact Json.plain_compact _

theorem Entry.trim_line (e : Entry) : Text.trim e.line.toList = e.line.toList := by
  rw [Entry.line, Json.render, String.toList_ofList]
  obtain ⟨⟨ds, hstart⟩, hend⟩ := Json.compact_obj_ends e.fields
  exact Text.trim_eq_self hstart hend (by decide) (by decide)

theorem Entry.line_toList_ne_nil (e : Entry) : e.line.toList.isEmpty = false := by
  rw [Entry.line, Json.render, String.toList_ofList]
  obtain ⟨⟨ds, hstart⟩, -⟩ := Json.compact_obj_ends e.fields
  rw [hstart]
  rfl

/-! ## Validating a log -/

/-- What is wrong with the line of the given number. -/
def complaints (line : String) (number : Nat) : List Violation :=
  match validateLine line number with
  | .ok _ => []
  | .error found => found

theorem validateLines_lines (es : List Entry) (number : Nat) :
    validateLines number (es.map (·.line.toList)) =
      ⟨es.length, (es.zipIdx number).flatMap fun e => complaints e.1.line e.2⟩ := by
  induction es generalizing number with
  | nil => rfl
  | cons e es ih =>
    simp only [List.map_cons, validateLines, Entry.trim_line, Entry.line_toList_ne_nil,
      Bool.false_eq_true, if_false, String.ofList_toList, ih, List.length_cons, List.zipIdx_cons,
      List.flatMap_cons]
    rfl

/-- The lines of a log are the lines of its entries. -/
theorem lines_joined (es : List Entry) :
    Text.lines (String.join (es.map (·.line ++ "\n"))).toList = es.map (·.line.toList) := by
  have htext : (String.join (es.map (·.line ++ "\n"))).toList =
      (es.map (·.line.toList)).flatMap (· ++ ['\n']) := by
    rw [String.toList_join, List.flatMap_map, List.flatMap_map]
    simp
  rw [htext]
  refine Text.lines_flatMap ?_
  rw [List.forall_mem_map]
  intro e _
  have hplain := e.plain_line
  exact ⟨fun h => absurd (hplain _ h) (by decide), fun h => absurd (hplain _ h) (by decide)⟩

/-- A log has as many lines as entries, and wrong with it is what is wrong with each line in its
place. -/
theorem validateText_joined (es : List Entry) :
    validateText (String.join (es.map (·.line ++ "\n"))) =
      ⟨es.length, (es.zipIdx 1).flatMap fun e => complaints e.1.line e.2⟩ := by
  unfold validateText
  rw [lines_joined, validateLines_lines]

end ThreadSlots.Log
