import ThreadSlots.Proofs.Calendar.Days

/-!
# Timestamps as text

A timestamp is made of seven numbers of fixed width with fixed characters between them
(`Printable.toList_timestamp`). Numbers of one width compare as the bytes of their digits do
(`Text.digits_order`), a later day has the later date (`Date.ofEpochDay_before_iff`) and a later second of
the day the later time. So timestamps sort as text, and an instant can be read back from its timestamp
(`timestamp_sorts`).
-/

namespace ThreadSlots

namespace Text

/-- The bytes of a text. -/
def bytes (s : String) : List UInt8 := s.toUTF8.data.toList

/-- The bytes of characters. -/
def encode (cs : List Char) : List UInt8 := cs.flatMap String.utf8EncodeChar

theorem bytes_eq (s : String) : bytes s = encode s.toList := by
  change s.toByteArray.data.toList = _
  rw [← String.utf8Encode_toList, List.utf8Encode, List.data_toByteArray, List.toList_toArray, encode]

/-! ## Numbers of fixed width -/

/-- The last `width` decimal digits of `n`, with leading zeros. -/
def digits : Nat → Nat → List Char
  | 0, _ => []
  | width + 1, n => digits width (n / 10) ++ [(n % 10).digitChar]

theorem digits_zero (width : Nat) : digits width 0 = List.replicate width '0' := by
  induction width with
  | zero => rfl
  | succ width ih =>
    rw [digits, Nat.zero_div, ih, List.replicate_succ']
    rfl

theorem digits_eq_append {width n : Nat} (hwidth : 0 < width) (h : n < 10 ^ width) :
    digits width n = List.replicate (width - (Nat.toDigits 10 n).length) '0' ++ Nat.toDigits 10 n := by
  induction width generalizing n with
  | zero => exact absurd hwidth (Nat.lt_irrefl 0)
  | succ width ih =>
    rw [digits]
    by_cases hn : n < 10
    · rw [Nat.div_eq_of_lt hn, digits_zero, Nat.toDigits_of_lt_base hn, Nat.mod_eq_of_lt hn]
      rfl
    · have hpos : 0 < width := by
        by_contra hzero
        rw [Nat.eq_zero_of_not_pos hzero] at h
        omega
      rw [Nat.pow_succ] at h
      rw [ih hpos (by omega), Nat.toDigits_of_base_le (by decide) (Nat.le_of_not_lt hn : 10 ≤ n),
        List.append_assoc, List.length_append, List.length_singleton, Nat.add_sub_add_right]

theorem toList_zeroPadded {width n : Nat} (hwidth : 0 < width) (h : n < 10 ^ width) :
    (zeroPadded width n).toList = digits width n := by
  have hrepr : (toString n).toList = Nat.toDigits 10 n := Nat.toList_repr
  rw [digits_eq_append hwidth h, zeroPadded, padStart, String.toList_append, String.toList_ofList,
    hrepr, ← String.length_toList, hrepr]

theorem length_digits (width n : Nat) : (digits width n).length = width := by
  induction width generalizing n with
  | zero => rfl
  | succ width ih => rw [digits, List.length_append, ih, List.length_singleton]

/-- The number that decimal digits stand for. -/
def number (cs : List Char) : Nat := cs.foldl (fun n c => 10 * n + (c.toNat - '0'.toNat)) 0

theorem number_digits {width n : Nat} (h : n < 10 ^ width) : number (digits width n) = n := by
  induction width generalizing n with
  | zero => exact (Nat.lt_one_iff.1 h).symm
  | succ width ih =>
    rw [Nat.pow_succ] at h
    have hdigit := Nat.toNat_digitChar_of_lt_ten (Nat.mod_lt n (show 10 > 0 by decide))
    have hrest := ih (n := n / 10) (by omega)
    rw [number] at hrest ⊢
    rw [digits, List.foldl_append, List.foldl_cons, List.foldl_nil, hrest, hdigit,
      show '0'.toNat = 48 from rfl]
    omega

/-! ## Bytes in order -/

/-- Texts compare by their first parts when these have the same length, and by what follows when they
are the same. -/
theorem append_lt_append_iff {α : Type} [LT α] {as bs as' bs' : List α}
    (h : as.length = as'.length) : as ++ bs < as' ++ bs' ↔ as < as' ∨ as = as' ∧ bs < bs' := by
  induction as generalizing as' with
  | nil =>
    obtain rfl := List.eq_nil_of_length_eq_zero h.symm
    simp
  | cons a as ih =>
    cases as' with
    | nil => exact absurd h (by simp)
    | cons a' as' =>
      rw [List.cons_append, List.cons_append, List.cons_lt_cons_iff, List.cons_lt_cons_iff,
        ih (by simpa using h), List.cons.injEq]
      tauto

theorem encode_append (cs ds : List Char) : encode (cs ++ ds) = encode cs ++ encode ds :=
  List.flatMap_append

theorem encode_cons (c : Char) (cs : List Char) :
    encode (c :: cs) = String.utf8EncodeChar c ++ encode cs :=
  List.flatMap_cons

theorem encode_digit {d : Nat} (h : d < 10) : encode [d.digitChar] = [UInt8.ofNat (48 + d)] := by
  interval_cases d <;> rfl

theorem length_encode_digits (width n : Nat) : (encode (digits width n)).length = width := by
  induction width generalizing n with
  | zero => rfl
  | succ width ih =>
    rw [digits, encode_append, List.length_append, ih, encode_digit (Nat.mod_lt n (by decide)),
      List.length_singleton]

/-- Numbers compare as the bytes of their digits do, since the digits come in the order of their weight. -/
theorem digits_order {width m n : Nat} (hm : m < 10 ^ width) (hn : n < 10 ^ width) :
    (encode (digits width m) = encode (digits width n) ↔ m = n) ∧
      (encode (digits width m) < encode (digits width n) ↔ m < n) := by
  induction width generalizing m n with
  | zero =>
    rw [Nat.lt_one_iff.1 hm, Nat.lt_one_iff.1 hn]
    simp
  | succ width ih =>
    rw [Nat.pow_succ] at hm hn
    obtain ⟨heq, hlt⟩ := ih (m := m / 10) (n := n / 10) (by omega) (by omega)
    have hlength := (length_encode_digits width (m / 10)).trans (length_encode_digits width (n / 10)).symm
    have hm' := Nat.mod_lt m (show 10 > 0 by decide)
    have hn' := Nat.mod_lt n (show 10 > 0 by decide)
    have hsame {ds es : List UInt8} : encode (digits width (m / 10)) ++ ds =
        encode (digits width (n / 10)) ++ es ↔
          encode (digits width (m / 10)) = encode (digits width (n / 10)) ∧ ds = es :=
      ⟨fun h => List.append_inj h hlength, fun h => by rw [h.1, h.2]⟩
    rw [digits, digits, encode_append, encode_append, append_lt_append_iff hlength, hsame, hlt, heq,
      encode_digit hm', encode_digit hn']
    simp only [List.cons.injEq, List.cons_lt_cons_iff, List.not_lt_nil, and_false, or_false, and_true,
      UInt8.lt_iff_toNat_lt, ← UInt8.toNat_inj, UInt8.toNat_ofNat']
    omega

/-- Texts that start with numbers of one width compare as these do, or else as what follows. -/
theorem digits_append_lt_iff {width m n : Nat} (hm : m < 10 ^ width) (hn : n < 10 ^ width)
    {cs ds : List Char} :
    encode (digits width m ++ cs) < encode (digits width n ++ ds) ↔
      m < n ∨ m = n ∧ encode cs < encode ds := by
  obtain ⟨heq, hlt⟩ := digits_order hm hn
  rw [encode_append, encode_append,
    append_lt_append_iff ((length_encode_digits _ _).trans (length_encode_digits _ _).symm), hlt, heq]

theorem cons_lt_cons_iff {c : Char} {cs ds : List Char} :
    encode (c :: cs) < encode (c :: ds) ↔ encode cs < encode ds := by
  rw [encode_cons, encode_cons c ds, append_lt_append_iff rfl]
  simp [List.lt_irrefl]

end Text

/-! ## Dates in order -/

namespace Date

/-- The one date comes before the other. -/
def Before (a b : Date) : Prop :=
  a.year < b.year ∨ a.year = b.year ∧ (a.month < b.month ∨ a.month = b.month ∧ a.day < b.day)

theorem Before.trans {a b c : Date} (h : a.Before b) (h' : b.Before c) : a.Before c := by
  unfold Before at *
  omega

theorem before_next (date : Date) : date.Before date.next := by
  unfold Before next
  split
  · exact .inr ⟨rfl, .inr ⟨rfl, Nat.lt_add_one _⟩⟩
  · split
    · exact .inr ⟨rfl, .inl (Nat.lt_add_one _)⟩
    · exact .inl (Nat.lt_add_one _)

theorem ofEpochDay_before {days days' : Nat} (h : days < days') :
    (ofEpochDay days).Before (ofEpochDay days') := by
  induction h with
  | refl =>
    rw [Nat.succ_eq_add_one, ofEpochDay_succ]
    exact before_next _
  | step _ ih =>
    rw [ofEpochDay_succ]
    exact ih.trans (before_next _)

theorem ofEpochDay_inj {days days' : Nat} :
    ((ofEpochDay days).year = (ofEpochDay days').year ∧ (ofEpochDay days).month = (ofEpochDay days').month ∧
      (ofEpochDay days).day = (ofEpochDay days').day) ↔ days = days' := by
  rw [← mk.injEq]
  refine ⟨fun h => ?_, fun h => by rw [h]⟩
  rw [← epochDay_ofEpochDay days, ← epochDay_ofEpochDay days']
  exact congrArg epochDay h

theorem ofEpochDay_lt (days : Nat) :
    (ofEpochDay days).month < 10 ^ 2 ∧ (ofEpochDay days).day < 10 ^ 2 := by
  obtain ⟨-, hmonth, -, hday⟩ := valid_ofEpochDay days
  refine ⟨hmonth.trans_lt (by decide), hday.trans_lt ?_⟩
  unfold daysInMonth
  split_ifs <;> decide

/-- A later day has the later date. -/
theorem ofEpochDay_before_iff {days days' : Nat} :
    (ofEpochDay days).Before (ofEpochDay days') ↔ days < days' := by
  refine ⟨fun h => ?_, ofEpochDay_before⟩
  rcases Nat.lt_trichotomy days days' with hlt | rfl | hgt
  · exact hlt
  · unfold Before at h
    omega
  · have hback := h.trans (ofEpochDay_before hgt)
    unfold Before at hback
    omega

end Date

/-! ## Timestamps -/

/-- The instant's numbers fit the widths that a timestamp has for them. -/
structure Printable (seconds millis : Nat) : Prop where
  year : (Date.ofEpochDay (seconds / 86400)).year < 10 ^ 4
  month : (Date.ofEpochDay (seconds / 86400)).month < 10 ^ 2
  day : (Date.ofEpochDay (seconds / 86400)).day < 10 ^ 2
  hours : seconds % 86400 / 3600 < 10 ^ 2
  minutes : seconds % 3600 / 60 < 10 ^ 2
  seconds : seconds % 60 < 10 ^ 2
  millis : millis < 10 ^ 3

theorem printable {seconds millis : Nat} (hmillis : millis < 1000)
    (hyear : (Date.ofEpochDay (seconds / 86400)).year ≤ 9999) : Printable seconds millis := by
  obtain ⟨hmonth, hday⟩ := Date.ofEpochDay_lt (seconds / 86400)
  exact ⟨Nat.lt_succ_of_le hyear, hmonth, hday, by omega, by omega, by omega, hmillis⟩

namespace Printable

variable {seconds millis seconds' millis' : Nat}

open Text in
theorem toList_timestamp (h : Printable seconds millis) :
    (timestamp seconds millis).toList =
      digits 4 (Date.ofEpochDay (seconds / 86400)).year ++
      '-' :: (digits 2 (Date.ofEpochDay (seconds / 86400)).month ++
      '-' :: (digits 2 (Date.ofEpochDay (seconds / 86400)).day ++
      'T' :: (digits 2 (seconds % 86400 / 3600) ++
      ':' :: (digits 2 (seconds % 3600 / 60) ++
      ':' :: (digits 2 (seconds % 60) ++
      '.' :: (digits 3 millis ++ ['Z'])))))) := by
  simp only [timestamp, String.toList_append, toString]
  rw [toList_zeroPadded (by decide) h.year, toList_zeroPadded (by decide) h.month,
    toList_zeroPadded (by decide) h.day, toList_zeroPadded (by decide) h.hours,
    toList_zeroPadded (by decide) h.minutes, toList_zeroPadded (by decide) h.seconds,
    toList_zeroPadded (by decide) h.millis]
  simp

theorem length_bytes (h : Printable seconds millis) : (Text.bytes (timestamp seconds millis)).length = 24 := by
  rw [Text.bytes_eq, h.toList_timestamp]
  simp only [Text.encode_append, Text.encode_cons, List.length_append, Text.length_encode_digits]
  rfl

end Printable

/-- The number at the start of a timestamp and what follows the character after it. -/
def readField (width : Nat) (cs : List Char) : Nat × List Char :=
  (Text.number (cs.take width), cs.drop (width + 1))

/-- The seconds and milliseconds that the fields of a timestamp stand for. -/
def readTimestamp (text : String) : Nat × Nat :=
  let (year, cs) := readField 4 text.toList
  let (month, cs) := readField 2 cs
  let (day, cs) := readField 2 cs
  let (hours, cs) := readField 2 cs
  let (minutes, cs) := readField 2 cs
  let (seconds, cs) := readField 2 cs
  let (millis, _) := readField 3 cs
  let date : Date := { year := year, month := month, day := day }
  (date.epochDay * 86400 + hours * 3600 + minutes * 60 + seconds, millis)

theorem readField_digits {width n : Nat} (h : n < 10 ^ width) (c : Char) (cs : List Char) :
    readField width (Text.digits width n ++ c :: cs) = (n, cs) := by
  unfold readField
  rw [List.take_left' (Text.length_digits ..), Text.number_digits h, ← List.drop_drop,
    List.drop_left' (Text.length_digits ..), List.drop_one, List.tail_cons]

/-- The order of instants is that of their days, hours, minutes, seconds and milliseconds. -/
theorem instant_lt_iff {seconds millis seconds' millis' : Nat} :
    (seconds < seconds' ∨ seconds = seconds' ∧ millis < millis') ↔
      seconds / 86400 < seconds' / 86400 ∨ seconds / 86400 = seconds' / 86400 ∧
        (seconds % 86400 / 3600 < seconds' % 86400 / 3600 ∨
          seconds % 86400 / 3600 = seconds' % 86400 / 3600 ∧
            (seconds % 3600 / 60 < seconds' % 3600 / 60 ∨ seconds % 3600 / 60 = seconds' % 3600 / 60 ∧
              (seconds % 60 < seconds' % 60 ∨ seconds % 60 = seconds' % 60 ∧ millis < millis'))) := by
  omega

namespace Printable

variable {seconds millis seconds' millis' : Nat}

theorem readTimestamp_timestamp (h : Printable seconds millis) :
    readTimestamp (timestamp seconds millis) = (seconds, millis) := by
  have hdate := Date.epochDay_ofEpochDay (seconds / 86400)
  simp only [readTimestamp, h.toList_timestamp, readField_digits h.year, readField_digits h.month,
    readField_digits h.day, readField_digits h.hours, readField_digits h.minutes,
    readField_digits h.seconds, readField_digits h.millis, hdate, Prod.mk.injEq, and_true]
  omega

/-- The bytes compare field by field, and the fields of the date come first. -/
theorem bytes_lt_iff (h : Printable seconds millis) (h' : Printable seconds' millis') :
    Text.bytes (timestamp seconds millis) < Text.bytes (timestamp seconds' millis') ↔
      seconds < seconds' ∨ seconds = seconds' ∧ millis < millis' := by
  have hend : ¬ Text.encode ['Z'] < Text.encode ['Z'] := List.lt_irrefl _
  rw [Text.bytes_eq, Text.bytes_eq, h.toList_timestamp, h'.toList_timestamp, instant_lt_iff,
    ← Date.ofEpochDay_before_iff, ← Date.ofEpochDay_inj]
  simp only [Text.digits_append_lt_iff h.year h'.year, Text.digits_append_lt_iff h.month h'.month,
    Text.digits_append_lt_iff h.day h'.day, Text.digits_append_lt_iff h.hours h'.hours,
    Text.digits_append_lt_iff h.minutes h'.minutes, Text.digits_append_lt_iff h.seconds h'.seconds,
    Text.digits_append_lt_iff h.millis h'.millis, Text.cons_lt_cons_iff, hend, and_false, or_false,
    Date.Before, and_or_left, or_assoc, and_assoc]

end Printable

/-- **Timestamps sort as text.** Of instants in years of at most four digits, each has a timestamp of 24
bytes, and the bytes of two timestamps compare as the instants do. A timestamp is that of one instant only:
the date and the time of day in it give the seconds and milliseconds back. -/
theorem timestamp_sorts {seconds millis seconds' millis' : Nat} (hmillis : millis < 1000)
    (hmillis' : millis' < 1000) (hyear : (Date.ofEpochDay (seconds / 86400)).year ≤ 9999)
    (hyear' : (Date.ofEpochDay (seconds' / 86400)).year ≤ 9999) :
    (Text.bytes (timestamp seconds millis)).length = 24 ∧
      (Text.bytes (timestamp seconds millis) < Text.bytes (timestamp seconds' millis') ↔
        seconds < seconds' ∨ seconds = seconds' ∧ millis < millis') ∧
      (timestamp seconds millis = timestamp seconds' millis' ↔ seconds = seconds' ∧ millis = millis') ∧
      readTimestamp (timestamp seconds millis) = (seconds, millis) := by
  have hprint := printable hmillis hyear
  have hprint' := printable hmillis' hyear'
  refine ⟨hprint.length_bytes, hprint.bytes_lt_iff hprint', ⟨fun h => ?_, fun ⟨hs, hm⟩ => by rw [hs, hm]⟩,
    hprint.readTimestamp_timestamp⟩
  have hread := hprint.readTimestamp_timestamp
  rw [h, hprint'.readTimestamp_timestamp] at hread
  exact Prod.mk.inj hread.symm

/-- The last millisecond of February in a leap year comes before the first of March. -/
theorem timestamp_sorts_leapDay :
    timestamp 951868799 999 = "2000-02-29T23:59:59.999Z" ∧
      timestamp 951868800 0 = "2000-03-01T00:00:00.000Z" ∧
      Text.bytes (timestamp 951868799 999) < Text.bytes (timestamp 951868800 0) := by
  have hmillis : 999 < 1000 := by decide
  have hyear : (Date.ofEpochDay (951868799 / 86400)).year ≤ 9999 := by decide +kernel
  have hyear' : (Date.ofEpochDay (951868800 / 86400)).year ≤ 9999 := by decide +kernel
  obtain ⟨-, hlt, -, -⟩ := timestamp_sorts hmillis (show 0 < 1000 by decide) hyear hyear'
  exact ⟨by decide +kernel, by decide +kernel, hlt.2 (.inl (by decide))⟩

end ThreadSlots
