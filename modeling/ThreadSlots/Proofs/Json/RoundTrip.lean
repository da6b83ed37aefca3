import ThreadSlots.Json.Parser
import ThreadSlots.Json.Printer
import ThreadSlots.Proofs.Json.Values

/-!
# Reading back what was written

Reading the line that `Json.compact` writes gives the value back, whatever follows the line, if the
value has no floating-point numbers, fits 64 bits and nests no deeper than the reader goes
(`value_compact`). The object of a record whose fields are in an order of their own comes back with
its fields sorted (`parse?_obj`).

What follows a number must not go on with it (`Ends`); after a value inside a container that is a
comma or a closing bracket.
-/

namespace ThreadSlots.Json

/-! ## Strings -/

theorem stringRest_quote (rest : List Char) : stringRest ('"' :: rest) = some ([], rest) := by
  simp [stringRest]

theorem stringRest_plain {c : Char} (h : 32 ≤ c.toNat) (hquote : c ≠ '"') (hslash : c ≠ '\\')
    (rest : List Char) : stringRest (c :: rest) = push c (stringRest rest) := by
  rw [stringRest]
  · simp [Nat.not_lt.2 h, hslash]
  all_goals simp_all

theorem stringRest_short {c d : Char} (h : unescape? c = some d) (rest : List Char) :
    stringRest ('\\' :: c :: rest) = push d (stringRest rest) := by
  have hu : c ≠ 'u' := by
    rintro rfl
    simp [unescape?] at h
  rw [stringRest]
  · simp only [h]
  all_goals simp_all

theorem stringRest_unicode {a b c d : Char} {n : Nat} (h : hexQuad? a b c d = some n)
    (hhigh : isHighSurrogate n = false) (hlow : isLowSurrogate n = false) (rest : List Char) :
    stringRest ('\\' :: 'u' :: a :: b :: c :: d :: rest) =
      push (Char.ofNat n) (stringRest rest) := by
  by_cases hmore : ∃ e f g h more, rest = '\\' :: 'u' :: e :: f :: g :: h :: more
  · obtain ⟨e, f, g, h', more, rfl⟩ := hmore
    rw [stringRest]
    simp only [h, hhigh, hlow, Bool.false_eq_true, if_false]
  · rw [stringRest]
    · simp only [h, hhigh, hlow, Bool.or_self, Bool.false_eq_true, if_false]
    · intro e f g h' more he
      exact hmore ⟨e, f, g, h', more, he⟩

theorem hexValue?_hexDigit {n : Nat} (h : n < 16) : hexValue? (hexDigit n) = some n := by
  decide +revert

/-- Reading a character of a string undoes writing it. -/
theorem stringRest_escapedChar (c : Char) (rest : List Char) :
    stringRest (escapedChar c ++ rest) = push c (stringRest rest) := by
  unfold escapedChar
  split
  · next h =>
    subst h
    exact stringRest_short rfl rest
  split
  · next h =>
    subst h
    exact stringRest_short rfl rest
  split
  · next h =>
    have hc : c = Char.ofNat 8 := by rw [← h, Char.ofNat_toNat]
    exact hc ▸ stringRest_short rfl rest
  split
  · next h =>
    have hc : c = Char.ofNat 12 := by rw [← h, Char.ofNat_toNat]
    exact hc ▸ stringRest_short rfl rest
  split
  · next h =>
    subst h
    exact stringRest_short rfl rest
  split
  · next h =>
    subst h
    exact stringRest_short rfl rest
  split
  · next h =>
    subst h
    exact stringRest_short rfl rest
  split
  · next h =>
    have hquad : hexQuad? '0' '0' (hexDigit (c.toNat / 16)) (hexDigit (c.toNat % 16)) =
        some c.toNat := by
      have hdiv := hexValue?_hexDigit (n := c.toNat / 16) (by omega)
      have hmod := hexValue?_hexDigit (n := c.toNat % 16) (by omega)
      have hzero : hexValue? '0' = some 0 := rfl
      simp only [hexQuad?, hzero, hdiv, hmod, Option.bind_eq_bind, Option.bind_some,
        Option.pure_def, Option.some.injEq]
      omega
    have hhigh : isHighSurrogate c.toNat = false := by
      simp only [isHighSurrogate, Bool.and_eq_false_iff, decide_eq_false_iff_not]
      omega
    have hlow : isLowSurrogate c.toNat = false := by
      simp only [isLowSurrogate, Bool.and_eq_false_iff, decide_eq_false_iff_not]
      omega
    have := stringRest_unicode hquad hhigh hlow rest
    rwa [Char.ofNat_toNat] at this
  · next hquote hslash _ _ _ _ _ hlow =>
    exact stringRest_plain (Nat.not_lt.1 hlow) hquote hslash rest

theorem stringRest_flatMap (cs rest : List Char) :
    stringRest (cs.flatMap escapedChar ++ '"' :: rest) = some (cs, rest) := by
  induction cs with
  | nil => exact stringRest_quote rest
  | cons c cs ih =>
    rw [List.flatMap_cons, List.append_assoc, stringRest_escapedChar, ih]
    rfl

theorem quoted_append (s : String) (rest : List Char) :
    quoted s ++ rest = '"' :: (s.toList.flatMap escapedChar ++ '"' :: rest) := by
  simp [quoted]

theorem string_quoted (s : String) (rest : List Char) :
    string (s.toList.flatMap escapedChar ++ '"' :: rest) = some (s, rest) := by
  rw [string, stringRest_flatMap]
  simp

/-! ## Numbers -/

/-- No number goes on with the text. -/
def Ends (rest : List Char) : Prop := ∀ c ∈ rest.head?, isDigit c = false ∧ isFloatMark c = false

theorem ends_cons {c : Char} (h : isDigit c = false ∧ isFloatMark c = false) (cs : List Char) :
    Ends (c :: cs) := by
  simpa [Ends] using h

theorem range_of_isDigit {c : Char} (h : c.isDigit = true) : '0' ≤ c ∧ c ≤ '9' := by
  simpa [Char.isDigit, Char.le_def] using h

theorem digitValue?_of_isDigit {c : Char} (h : c.isDigit = true) :
    digitValue? c = some (c.toNat - '0'.toNat) := by
  simp only [digitValue?, range_of_isDigit h, and_self, if_true]

theorem le_ofDigitChars (n : Nat) (ds : List Char) : n ≤ Nat.ofDigitChars 10 ds n := by
  induction ds generalizing n with
  | nil => simp
  | cons c ds ih =>
    rw [Nat.ofDigitChars_cons]
    have := ih (10 * n + (c.toNat - '0'.toNat))
    omega

/-- Digits that fit are gathered up to what follows them. -/
theorem gather_append {ds rest : List Char} (hds : ∀ c ∈ ds, c.isDigit = true) (hrest : Ends rest)
    {n : Nat} (hfit : Nat.ofDigitChars 10 ds n ≤ maxInteger) (count : Nat) :
    gather n count (ds ++ rest) = (Nat.ofDigitChars 10 ds n, count + ds.length, rest) := by
  induction ds generalizing n count with
  | nil =>
    cases rest with
    | nil => simp [gather]
    | cons c rest =>
      have hnot : digitValue? c = none := by
        have := (hrest c rfl).1
        simpa [isDigit] using this
      simp [gather, hnot]
  | cons c ds ih =>
    obtain ⟨hc, hds⟩ := List.forall_mem_cons.1 hds
    rw [Nat.ofDigitChars_cons, Nat.mul_comm 10 n] at hfit
    have hle := Nat.le_trans (le_ofDigitChars _ ds) hfit
    rw [List.cons_append, gather, digitValue?_of_isDigit hc]
    simp only [hle, if_true]
    rw [ih hds hfit, Nat.ofDigitChars_cons, Nat.mul_comm 10 n, List.length_cons]
    simp only [Prod.mk.injEq, and_true, true_and]
    omega

theorem head_toDigits_ne_zero {n : Nat} (h : n ≠ 0) : (Nat.toDigits 10 n).head? ≠ some '0' := by
  induction n using Nat.strongRecOn with
  | _ n ih =>
    rw [Nat.toDigits_eq_if (by decide)]
    split
    · next hlt =>
      simp only [List.head?_cons, ne_eq, Option.some.injEq, Nat.digitChar_eq_zero]
      exact h
    · next hge =>
      have := ih (n / 10) (by omega) (by omega)
      rw [List.head?_append]
      cases hd : (Nat.toDigits 10 (n / 10)).head? with
      | none => simp [Nat.toDigits_ne_nil] at hd
      | some c => simpa [hd] using this

theorem skipDigits_of_ends {rest : List Char} (h : Ends rest) : skipDigits rest = rest := by
  cases rest with
  | nil => rfl
  | cons c rest =>
    have := (h c rfl).1
    simp [skipDigits, this]

theorem isDigit_of_mem_toDigits {n : Nat} {c : Char} (h : c ∈ Nat.toDigits 10 n) :
    c.isDigit = true :=
  Nat.isDigit_of_mem_toDigits (by decide) (by decide) h

theorem exists_toDigits_cons (n : Nat) : ∃ c ds, Nat.toDigits 10 n = c :: ds ∧ c.isDigit = true := by
  cases hds : Nat.toDigits 10 n with
  | nil => exact absurd hds Nat.toDigits_ne_nil
  | cons c ds =>
    have hmem : c ∈ Nat.toDigits 10 n := hds ▸ List.mem_cons_self ..
    exact ⟨c, ds, rfl, isDigit_of_mem_toDigits hmem⟩

theorem intText_eq (i : Int) :
    intText i = if i < 0 then '-' :: Nat.toDigits 10 i.natAbs else Nat.toDigits 10 i.natAbs := by
  unfold intText
  rw [Nat.toList_repr]

/-- A number other than zero begins with a digit other than zero. -/
theorem exists_toDigits_eq_cons {n : Nat} (h : n ≠ 0) :
    ∃ c ds d, Nat.toDigits 10 n = c :: ds ∧ (∀ c ∈ ds, c.isDigit = true) ∧
      digitValue? c = some (d + 1) ∧ Nat.ofDigitChars 10 ds (d + 1) = n := by
  cases hds : Nat.toDigits 10 n with
  | nil => exact absurd hds Nat.toDigits_ne_nil
  | cons c ds =>
    have hhead := head_toDigits_ne_zero h
    have hall : ∀ c ∈ Nat.toDigits 10 n, c.isDigit = true := fun _ => isDigit_of_mem_toDigits
    have hvalue : Nat.ofDigitChars 10 (Nat.toDigits 10 n) 0 = n := Nat.ofDigitChars_ten_toDigits
    rw [hds] at hhead hall hvalue
    obtain ⟨hc, hall⟩ := List.forall_mem_cons.1 hall
    rw [Nat.ofDigitChars_cons, Nat.mul_zero, Nat.zero_add] at hvalue
    have hpos : c.toNat - '0'.toNat ≠ 0 := by
      intro he
      have hnat : '0'.toNat ≤ c.toNat := (range_of_isDigit hc).1
      have hzero : c = '0' := by
        rw [← Char.ofNat_toNat c, show c.toNat = '0'.toNat by omega]
        rfl
      exact hhead (by rw [hzero]; rfl)
    obtain ⟨d, hd⟩ := Nat.exists_eq_succ_of_ne_zero hpos
    have hfirst := digitValue?_of_isDigit hc
    rw [hd] at hvalue hfirst
    exact ⟨c, ds, d, rfl, hall, hfirst, hvalue⟩

theorem unsigned_toDigits (negative : Bool) {n : Nat} (hn : n ≤ maxInteger) {rest : List Char}
    (hrest : Ends rest) :
    unsigned negative (Nat.toDigits 10 n ++ rest) = (integer negative n).map (·, rest) := by
  have hdigit : rest.head?.any isDigit = false := by
    cases rest with
    | nil => rfl
    | cons c rest => exact (hrest c rfl).1
  have hmark : rest.head?.any isFloatMark = false := by
    cases rest with
    | nil => rfl
    | cons c rest => exact (hrest c rfl).2
  by_cases h0 : n = 0
  · subst h0
    have hzero : digitValue? '0' = some 0 := rfl
    simp [unsigned, hzero, hdigit, hmark]
  · obtain ⟨c, ds, d, hds, hall, hfirst, hvalue⟩ := exists_toDigits_eq_cons h0
    have hgather := gather_append hall hrest (by rw [hvalue]; exact hn) 1
    rw [hvalue] at hgather
    simp only [hds, List.cons_append, unsigned, hfirst, hgather, skipDigits_of_ends hrest, hmark,
      Nat.sub_self, ne_eq, not_true_eq_false, Bool.false_eq_true, or_self, if_false]

theorem number_intText {i : Int} (hlow : -9223372036854775808 ≤ i) (hhigh : i ≤ maxInteger)
    {rest : List Char} (hrest : Ends rest) : number (intText i ++ rest) = some (.int i, rest) := by
  rw [intText_eq]
  split
  · next hneg =>
    have hfit : i.natAbs ≤ maxInteger := by
      simp only [maxInteger]
      omega
    have hinteger : integer true i.natAbs = some (.int i) := by
      have hrange : 0 < i.natAbs ∧ i.natAbs ≤ 9223372036854775808 := by omega
      have hi : -(i.natAbs : Int) = i := by omega
      unfold integer
      rw [if_neg (by decide), if_pos hrange, hi]
    rw [List.cons_append, number, unsigned_toDigits true hfit hrest, hinteger]
    rfl
  · next hneg =>
    have hfit : i.natAbs ≤ maxInteger := by omega
    have hinteger : integer false i.natAbs = some (.int i) := by
      have hi : (i.natAbs : Int) = i := by omega
      simp [integer, hi]
    have hnumber : number (Nat.toDigits 10 i.natAbs ++ rest) =
        unsigned false (Nat.toDigits 10 i.natAbs ++ rest) := by
      obtain ⟨c, ds, hds, hc⟩ := exists_toDigits_cons i.natAbs
      rw [hds, List.cons_append, number]
      intro after he
      cases he
      exact absurd hc (by decide)
    rw [hnumber, unsigned_toDigits false hfit hrest, hinteger]
    rfl

/-! ## Values -/

/-- The character is no blank and closes no array: an element can begin with it. -/
def opens (c : Char) : Bool := c != ' ' && c != '\n' && c != '\t' && c != '\r' && c != ']'

theorem opens_of_isDigit {c : Char} (h : c.isDigit = true) : opens c = true := by
  simp only [opens, Bool.and_eq_true, bne_iff_ne, ne_eq]
  refine ⟨⟨⟨⟨?_, ?_⟩, ?_⟩, ?_⟩, ?_⟩
  all_goals
    rintro rfl
    exact absurd h (by decide)

theorem skipBlanks_cons {c : Char} (h : opens c = true) (cs : List Char) :
    skipBlanks (c :: cs) = c :: cs := by
  simp only [opens, Bool.and_eq_true, bne_iff_ne, ne_eq] at h
  simp [skipBlanks, h]

theorem exists_intText_eq_cons (i : Int) :
    ∃ c cs, intText i = c :: cs ∧ (c = '-' ∨ c.isDigit = true) := by
  rw [intText_eq]
  split
  · exact ⟨_, _, rfl, .inl rfl⟩
  · obtain ⟨c, ds, hds, hc⟩ := exists_toDigits_cons i.natAbs
    exact ⟨c, ds, hds, .inr hc⟩

theorem exists_compact_eq_cons {v : Json} (h : FloatFree v) :
    ∃ c cs, compact v = c :: cs ∧ opens c = true := by
  cases h with
  | null => exact ⟨_, _, rfl, rfl⟩
  | bool b => cases b <;> exact ⟨_, _, rfl, rfl⟩
  | int i =>
    obtain ⟨c, cs, hi, hc⟩ := exists_intText_eq_cons i
    refine ⟨c, cs, hi, ?_⟩
    rcases hc with rfl | hc
    · rfl
    · exact opens_of_isDigit hc
  | str s => exact ⟨_, _, rfl, rfl⟩
  | @arr vs h =>
    cases vs with
    | nil => exact ⟨_, _, rfl, rfl⟩
    | cons v vs => exact ⟨_, _, rfl, rfl⟩
  | @obj fs h =>
    cases fs with
    | nil => exact ⟨_, _, rfl, rfl⟩
    | cons f fs => exact ⟨_, _, rfl, rfl⟩

/-- What is no container is read as such at every depth. -/
theorem value_eq_scalar {c : Char} (h : opens c = true) (harr : c ≠ '[') (hobj : c ≠ '\x7b')
    (d : Nat) (cs : List Char) : value d (c :: cs) = scalar (c :: cs) := by
  cases d with
  | zero => rw [value, skipBlanks_cons h]
  | succ d =>
    rw [value, skipBlanks_cons h]
    split
    · next he => exact absurd (List.cons.inj he).1 harr
    · next he => exact absurd (List.cons.inj he).1 hobj
    · rfl

theorem value_int {i : Int} (hlow : -9223372036854775808 ≤ i) (hhigh : i ≤ maxInteger) (d : Nat)
    {rest : List Char} (hrest : Ends rest) :
    value d (intText i ++ rest) = some (.int i, rest) := by
  have hnumber := number_intText hlow hhigh hrest
  obtain ⟨c, cs, hi, hc⟩ := exists_intText_eq_cons i
  rw [hi, List.cons_append] at hnumber ⊢
  have hopens : opens c = true := by
    rcases hc with rfl | hc
    · rfl
    · exact opens_of_isDigit hc
  have hne : ∀ a : Char, a.isDigit = false → a ≠ '-' → c ≠ a := by
    rintro a hdigit hminus rfl
    rcases hc with rfl | hc
    · exact hminus rfl
    · rw [hdigit] at hc
      cases hc
  rw [value_eq_scalar hopens (hne _ rfl (by decide)) (hne _ rfl (by decide)), scalar]
  · exact hnumber
  all_goals
    intro after he
    exact absurd (List.cons.inj he).1 (hne _ rfl (by decide))

/-! ## Containers -/

section

variable {item : List Char → Reading Json}

theorem elements_compact {v : Json} {vs : List Json}
    (hitem : ∀ u ∈ v :: vs, ∀ rest, Ends rest → item (compact u ++ rest) = some (u, rest))
    {fuel : Nat} (hfuel : vs.length < fuel) (rest : List Char) :
    elements item fuel (compact v ++ (compactElements vs ++ rest)) = some (v :: vs, rest) := by
  obtain ⟨hv, hvs⟩ := List.forall_mem_cons.1 hitem
  induction vs generalizing v fuel with
  | nil =>
    obtain ⟨fuel, rfl⟩ := Nat.exists_eq_succ_of_ne_zero (Nat.ne_of_gt hfuel)
    simp only [compactElements, List.cons_append, List.nil_append]
    rw [elements, hv _ (ends_cons (by decide) rest)]
    simp [skipBlanks]
  | cons u vs ih =>
    obtain ⟨fuel, rfl⟩ := Nat.exists_eq_succ_of_ne_zero (Nat.ne_of_gt (Nat.zero_lt_of_lt hfuel))
    obtain ⟨hu, hvs'⟩ := List.forall_mem_cons.1 hvs
    simp only [compactElements, List.cons_append, List.append_assoc]
    rw [elements, hv _ (ends_cons (by decide) _)]
    have hrest := ih hvs (Nat.lt_of_succ_lt_succ hfuel) hu hvs'
    simp [skipBlanks, hrest]

theorem fields_compact {f : String × Json} {fs : List (String × Json)}
    (hitem : ∀ g ∈ f :: fs, ∀ rest, Ends rest → item (compact g.2 ++ rest) = some (g.2, rest))
    {fuel : Nat} (hfuel : fs.length < fuel) (rest : List Char) :
    fields item fuel (quoted f.1 ++ (':' :: (compact f.2 ++ (compactFields fs ++ rest)))) =
      some (f :: fs, rest) := by
  obtain ⟨hf, hfs⟩ := List.forall_mem_cons.1 hitem
  induction fs generalizing f fuel with
  | nil =>
    obtain ⟨fuel, rfl⟩ := Nat.exists_eq_succ_of_ne_zero (Nat.ne_of_gt hfuel)
    simp only [compactFields, List.cons_append, List.nil_append]
    rw [quoted_append, fields, skipBlanks_cons (by decide)]
    simp only [string_quoted]
    rw [skipBlanks_cons (by decide)]
    simp only [hf _ (ends_cons (c := '\x7d') (by decide) rest)]
    simp [skipBlanks]
  | cons g fs ih =>
    obtain ⟨fuel, rfl⟩ := Nat.exists_eq_succ_of_ne_zero (Nat.ne_of_gt (Nat.zero_lt_of_lt hfuel))
    obtain ⟨hg, hfs'⟩ := List.forall_mem_cons.1 hfs
    have hrest := ih hfs (Nat.lt_of_succ_lt_succ hfuel) hg hfs'
    obtain ⟨k, w⟩ := g
    simp only [compactFields, List.cons_append, List.append_assoc]
    rw [quoted_append, fields, skipBlanks_cons (by decide)]
    simp only [string_quoted]
    rw [skipBlanks_cons (by decide)]
    simp only [hf _ (ends_cons (c := ',') (by decide) _)]
    rw [skipBlanks_cons (by decide)]
    simp [hrest]

end

theorem length_compactElements (vs : List Json) : vs.length < (compactElements vs).length := by
  induction vs with
  | nil => simp [compactElements]
  | cons v vs ih =>
    simp only [compactElements, List.length_cons, List.length_append]
    omega

theorem length_compactFields (fs : List (String × Json)) :
    fs.length < (compactFields fs).length := by
  induction fs with
  | nil => simp [compactFields]
  | cons f fs ih =>
    obtain ⟨k, v⟩ := f
    simp only [compactFields, List.length_cons, List.length_append]
    omega

theorem value_arr {d : Nat} {vs : List Json} (hfree : ∀ v ∈ vs, FloatFree v)
    (h : ∀ v ∈ vs, ∀ rest, Ends rest → value d (compact v ++ rest) = some (v, rest))
    (rest : List Char) : value (d + 1) (compact (.arr vs) ++ rest) = some (.arr vs, rest) := by
  cases vs with
  | nil => simp [compact, value, array, skipBlanks]
  | cons v vs =>
    obtain ⟨c, cs, hc, hopens⟩ := exists_compact_eq_cons (hfree v (List.mem_cons_self ..))
    have hfuel : vs.length < (compact v ++ (compactElements vs ++ rest)).length := by
      have := length_compactElements vs
      simp only [List.length_append]
      omega
    have helements := elements_compact h hfuel rest
    have hclose : c ≠ ']' := by
      rintro rfl
      cases hopens
    simp only [compact, List.cons_append, List.append_assoc]
    rw [value, skipBlanks_cons (by decide)]
    simp only [array]
    rw [hc, List.cons_append] at helements ⊢
    rw [skipBlanks_cons hopens]
    split
    · next he => exact absurd (List.cons.inj he).1 hclose
    · rw [helements]
      rfl

/-- An object comes back with its fields sorted. -/
theorem value_obj {d : Nat} {fs : List (String × Json)}
    (h : ∀ f ∈ fs, ∀ rest, Ends rest → value d (compact f.2 ++ rest) = some (f.2, rest))
    (rest : List Char) : value (d + 1) (compact (.obj fs) ++ rest) = some (record fs, rest) := by
  cases fs with
  | nil =>
    simp [compact, value, object, skipBlanks]
    rfl
  | cons f fs =>
    obtain ⟨k, v⟩ := f
    have hfuel :
        fs.length < (quoted k ++ (':' :: (compact v ++ (compactFields fs ++ rest)))).length := by
      have := length_compactFields fs
      simp only [List.length_append, List.length_cons]
      omega
    have hfields := fields_compact h hfuel rest
    simp only [compact, List.cons_append, List.append_assoc]
    rw [value, skipBlanks_cons (by decide)]
    simp only [object]
    rw [quoted_append] at hfields ⊢
    rw [skipBlanks_cons (by decide)]
    split
    · next he => exact absurd (List.cons.inj he).1 (by decide)
    · rw [hfields]
      rfl

/-- Reading undoes writing, whatever follows. -/
theorem value_compact {d : Nat} {v : Json} (hfits : Fits d v) (hfree : FloatFree v)
    {rest : List Char} (hrest : Ends rest) : value d (compact v ++ rest) = some (v, rest) := by
  induction hfits generalizing rest with
  | null d => exact value_eq_scalar (by decide) (by decide) (by decide) d _
  | bool d b =>
    cases b with
    | true => exact value_eq_scalar (by decide) (by decide) (by decide) d _
    | false => exact value_eq_scalar (by decide) (by decide) (by decide) d _
  | int d hlow hhigh => exact value_int hlow hhigh d hrest
  | float => cases hfree
  | str d s =>
    rw [compact, quoted_append, value_eq_scalar (by decide) (by decide) (by decide)]
    simp [scalar, string_quoted]
  | arr h ih =>
    cases hfree with
    | arr hfree => exact value_arr hfree (fun v hv rest hrest => ih v hv (hfree v hv) hrest) rest
  | obj hs h ih =>
    cases hfree with
    | obj hfree =>
      rw [value_obj (fun f hf rest hrest => ih f hf (hfree f hf) hrest) rest, record,
        sortFields_eq_self hs]

theorem parse?_obj {fs : List (String × Json)}
    (h : ∀ f ∈ fs, Fits (nestingLimit - 1) f.2 ∧ FloatFree f.2) :
    parse? (Json.obj fs).render = some (record fs) := by
  have hvalue := value_obj (d := nestingLimit - 1)
    (fun f hf rest hrest => value_compact (h f hf).1 (h f hf).2 hrest) []
  rw [List.append_nil] at hvalue
  have hlimit : nestingLimit - 1 + 1 = nestingLimit := rfl
  rw [hlimit] at hvalue
  simp [parse?, render, ofChars?, hvalue, skipBlanks]

end ThreadSlots.Json
