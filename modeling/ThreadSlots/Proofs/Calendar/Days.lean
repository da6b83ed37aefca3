import ThreadSlots.Calendar
import ThreadSlots.Proofs.Words
import Mathlib.Logic.Function.Iterate
import Mathlib.Tactic.IntervalCases

/-!
# Day numbers and the Gregorian calendar

`Date.ofEpochDay` is one closed formula. The calendar itself is given by the lengths of its months,
with the leap years (`isLeapYear`, `daysInMonth`), and by the date that follows a date (`Date.next`).
The formula walks this calendar: the date of the day after is the next date
(`Date.ofEpochDay_succ`), and the day number can be had back from the date
(`Date.epochDay_ofEpochDay`). Evaluated with 64-bit words it neither overflows nor goes below zero
(`Date.checkedOfEpochDay_eq`).

All three come from a count of the days in years that start in March: a day number splits into the
start of such a year (`marchYear`), the start of a month in it (`marchMonth`) and the days since,
and it splits in one way only.
-/

namespace ThreadSlots

/-! ## The calendar -/

/-- Whether a year has a 29th of February: every fourth year, of the full centuries every fourth. -/
def isLeapYear (year : Nat) : Prop := 4 ∣ year ∧ (100 ∣ year → 400 ∣ year)

instance (year : Nat) : Decidable (isLeapYear year) := inferInstanceAs (Decidable (_ ∧ _))

/-- The length of a month, counted from 1 for January. -/
def daysInMonth (year month : Nat) : Nat :=
  if month = 2 then if isLeapYear year then 29 else 28
  else if month = 4 ∨ month = 6 ∨ month = 9 ∨ month = 11 then 30
  else 31

namespace Date

/-- The first day of 1970. -/
def epoch : Date := { year := 1970, month := 1, day := 1 }

/-- The month and the day exist in the calendar. -/
structure Valid (date : Date) : Prop where
  one_le_month : 1 ≤ date.month
  month_le : date.month ≤ 12
  one_le_day : 1 ≤ date.day
  day_le : date.day ≤ daysInMonth date.year date.month

/-- The date of the day after. -/
def next (date : Date) : Date :=
  if date.day < daysInMonth date.year date.month then { date with day := date.day + 1 }
  else if date.month < 12 then { date with month := date.month + 1, day := 1 }
  else { year := date.year + 1, month := 1, day := 1 }

/-- The number of days from the first of January 1970 to the date, which is not before it. -/
def epochDay (date : Date) : Nat :=
  let year := if date.month ≤ 2 then date.year - 1 else date.year
  let shifted := if date.month ≤ 2 then date.month + 9 else date.month - 3
  let dayOfYear := (153 * shifted + 2) / 5 + date.day - 1
  let yearOfEra := year % 400
  let dayOfEra := yearOfEra * 365 + yearOfEra / 4 - yearOfEra / 100 + dayOfYear
  year / 400 * 146097 + dayOfEra - 719468

end Date

/-! ## Years and months from March -/

/-- The number of days from the first of March of the year 0 to the first of March of a year. -/
def marchYear (year : Nat) : Nat := 365 * year + year / 4 - year / 100 + year / 400

/-- The number of days from the first of March to the first of a month, counted from 0 for March. -/
def marchMonth (month : Nat) : Nat := (153 * month + 2) / 5

theorem marchYear_succ (year : Nat) :
    marchYear (year + 1) = marchYear year + if isLeapYear (year + 1) then 366 else 365 := by
  have hle : year / 100 ≤ year / 4 := by omega
  have h4 : 100 ∣ year + 1 → 4 ∣ year + 1 := Nat.dvd_trans (by decide)
  have h100 : 400 ∣ year + 1 → 100 ∣ year + 1 := Nat.dvd_trans (by decide)
  simp only [marchYear, isLeapYear, Nat.succ_div]
  split_ifs <;> grind

theorem marchYear_strictMono : StrictMono marchYear :=
  strictMono_nat_of_lt_succ fun year => by
    rw [marchYear_succ]
    split <;> omega

theorem marchYear_eq (year : Nat) :
    marchYear year = year / 400 * 146097 +
      (year % 400 * 365 + year % 400 / 4 - year % 400 / 100) := by
  unfold marchYear
  omega

/-- The year within an era of 400 years, of a day within the era. -/
def yearOfEra (day : Nat) : Nat := (day - day / 1460 + day / 36524 - day / 146096) / 365

/-- A day of an era lies `t` days into the `q`-th four years of a century `c`. The four years at the end
of a century are one day short: the last day of the era, the only one there is, is left out. -/
theorem yearOfEra_split {c q t : Nat} (hc : c < 4) (hq : q < 25) (ht : t < 1461)
    (hlast : q = 24 → t < 1460) :
    yearOfEra (36524 * c + 1461 * q + t) = 100 * c + 4 * q + min 3 (t / 365) := by
  have hfour : (36524 * c + 1461 * q + t) / 1460 = 25 * c + q + (24 * c + q + t) / 1460 := by omega
  have hcentury : (36524 * c + 1461 * q + t) / 36524 = c := by omega
  have hera : (36524 * c + 1461 * q + t) / 146096 = 0 := by omega
  -- The quotient by 1460 is one too many only late in the last of the four years.
  have hcarry : (t - (24 * c + q + t) / 1460) / 365 = min 3 (t / 365) := by
    have hlow : t < 1364 → (24 * c + q + t) / 1460 = 0 := by omega
    have hle : (24 * c + q + t) / 1460 ≤ 1 := by omega
    generalize (24 * c + q + t) / 1460 = e at *
    omega
  unfold yearOfEra
  rw [hfour, hcentury, hera, ← hcarry]
  have hle : (24 * c + q + t) / 1460 ≤ t := by omega
  generalize (24 * c + q + t) / 1460 = e at *
  omega

theorem marchYear_split {c q s : Nat} (hc : c < 4) (hq : q < 25) (hs : s < 4) :
    marchYear (100 * c + 4 * q + s) = 36524 * c + 1461 * q + 365 * s := by
  have h4 : (100 * c + 4 * q + s) / 4 = 25 * c + q := by omega
  have h100 : (100 * c + 4 * q + s) / 100 = c := by omega
  have h400 : (100 * c + 4 * q + s) / 400 = 0 := by omega
  unfold marchYear
  omega

/-- The quotients in the formula find the year that a day of an era lies in. -/
theorem yearOfEra_spec {day : Nat} (h : day < 146097) :
    marchYear (yearOfEra day) ≤ day ∧ day < marchYear (yearOfEra day + 1) := by
  by_cases hlast : day = 146096
  · subst hlast
    decide
  obtain ⟨c, q, t, hc, hq, ht, hshort, rfl⟩ : ∃ c q t, c < 4 ∧ q < 25 ∧ t < 1461 ∧
      (q = 24 → t < 1460) ∧ day = 36524 * c + 1461 * q + t :=
    ⟨day / 36524, day % 36524 / 1461, day % 36524 % 1461, by omega⟩
  have hmin : min 3 (t / 365) < 4 := by omega
  rw [yearOfEra_split hc hq ht hshort, marchYear_succ, marchYear_split hc hq hmin]
  refine ⟨by omega, ?_⟩
  split
  · omega
  · next h =>
    have h3 : min 3 (t / 365) = 3 → q = 24 := by
      intro h3
      rw [h3] at h
      by_contra hne
      exact h ⟨by omega, by omega⟩
    omega

theorem marchYear_add_eras (year eras : Nat) :
    marchYear (year + eras * 400) = marchYear year + eras * 146097 := by
  unfold marchYear
  omega

theorem yearOfEra_lt {day : Nat} (h : day < 146097) : yearOfEra day < 400 := by
  rw [← marchYear_strictMono.lt_iff_lt]
  exact (yearOfEra_spec h).1.trans_lt h

theorem marchYear_yearOfEra {day : Nat} (h : day < 146097) :
    marchYear (yearOfEra day) = 365 * yearOfEra day + yearOfEra day / 4 - yearOfEra day / 100 := by
  have hlt := yearOfEra_lt h
  unfold marchYear
  omega

/-! ## Dates counted from March -/

namespace Date

/-- The date `day` days after the first of a month, where years and months are counted from March. -/
def ofMarch (year month day : Nat) : Date where
  year := if month < 10 then year else year + 1
  month := if month < 10 then month + 3 else month - 9
  day := day + 1

/-- The month has the day: the next month starts later, and so does the next year. -/
structure InMarch (year month day : Nat) : Prop where
  month_lt : month < 12
  day_lt : marchMonth month + day < marchMonth (month + 1)
  year_lt : marchYear year + marchMonth month + day < marchYear (year + 1)

/-- February is the last month of its year: how long it is tells where the year ends. -/
theorem inMarch_iff {year month day : Nat} (h : month < 12) :
    InMarch year month day ↔
      day < daysInMonth (ofMarch year month day).year (ofMarch year month day).month := by
  constructor
  · rintro ⟨-, hday, hyear⟩
    rw [marchYear_succ] at hyear
    simp only [ofMarch, daysInMonth]
    interval_cases month <;> simp [marchMonth] at hday hyear ⊢ <;> grind
  · intro hday
    simp only [ofMarch, daysInMonth] at hday
    refine ⟨h, ?_, ?_⟩
    · unfold marchMonth
      interval_cases month <;> simp at hday ⊢ <;> grind
    · rw [marchYear_succ]
      unfold marchMonth
      interval_cases month <;> simp at hday ⊢ <;> grind

/-- The formula splits a day number, counted from the first of March of the year 0, into the start of a
year, the start of a month in it and the days since. -/
theorem ofEpochDay_eq (days : Nat) :
    ∃ year month day, InMarch year month day ∧
      days + 719468 = marchYear year + marchMonth month + day ∧
      ofEpochDay days = ofMarch year month day := by
  obtain ⟨era, hera⟩ : ∃ era, era = (days + 719468) / 146097 := ⟨_, rfl⟩
  obtain ⟨dayOfEra, hdayOfEra⟩ : ∃ e, e = (days + 719468) % 146097 := ⟨_, rfl⟩
  have hday : dayOfEra < 146097 := by omega
  obtain ⟨hle, hlt⟩ := yearOfEra_spec hday
  have hstart := marchYear_yearOfEra hday
  obtain ⟨dayOfYear, hdayOfYear⟩ : ∃ day, day = dayOfEra - marchYear (yearOfEra dayOfEra) :=
    ⟨_, rfl⟩
  have hshort : dayOfYear < 366 := by
    rw [marchYear_succ] at hlt
    split at hlt <;> omega
  refine ⟨yearOfEra dayOfEra + era * 400, (5 * dayOfYear + 2) / 153,
    dayOfYear - marchMonth ((5 * dayOfYear + 2) / 153), ⟨by omega, ?_, ?_⟩, ?_, ?_⟩
  · unfold marchMonth
    omega
  · rw [Nat.add_right_comm (yearOfEra dayOfEra), marchYear_add_eras, marchYear_add_eras]
    unfold marchMonth
    omega
  · rw [marchYear_add_eras]
    unfold marchMonth
    omega
  · have hmonth : (5 * dayOfYear + 2) / 153 < 12 := by omega
    simp only [ofEpochDay, ofMarch, ← hera, ← hdayOfEra, ← yearOfEra.eq_1, ← hstart, ← hdayOfYear,
      ← marchMonth.eq_1]
    split_ifs <;> simp <;> omega

/-- A day number splits in one way only. -/
theorem inMarch_unique {year month day year' month' day' : Nat} (h : InMarch year month day)
    (h' : InMarch year' month' day')
    (heq : marchYear year + marchMonth month + day = marchYear year' + marchMonth month' + day') :
    year = year' ∧ month = month' ∧ day = day' := by
  have hyear : year = year' := by
    have hle := h.year_lt
    have hle' := h'.year_lt
    refine Nat.le_antisymm ?_ ?_ <;> rw [← Nat.lt_add_one_iff, ← marchYear_strictMono.lt_iff_lt] <;>
      omega
  subst hyear
  have hmonth : month = month' := by
    have hday := h.day_lt
    have hday' := h'.day_lt
    unfold marchMonth at hday hday' heq
    omega
  subst hmonth
  exact ⟨rfl, rfl, by omega⟩

/-- The day after is the next day of the month, the first day of the next month or, after February, the
first of March. -/
theorem InMarch.next {year month day : Nat} (h : InMarch year month day) :
    ∃ year' month' day', InMarch year' month' day' ∧
      marchYear year' + marchMonth month' + day' = marchYear year + marchMonth month + day + 1 ∧
      (ofMarch year month day).next = ofMarch year' month' day' := by
  obtain ⟨hmonth, hday, hyear⟩ := h
  have hend : InMarch year month (day + 1) ↔
      (ofMarch year month day).day < daysInMonth (ofMarch year month day).year
        (ofMarch year month day).month := inMarch_iff hmonth
  by_cases hnext : InMarch year month (day + 1)
  · refine ⟨year, month, day + 1, hnext, rfl, ?_⟩
    rw [Date.next, if_pos (hend.1 hnext)]
    rfl
  have hyears := marchYear_succ year
  rw [Date.next, if_neg (mt hend.2 hnext)]
  by_cases hfebruary : month = 11
  · subst hfebruary
    have hover : ¬ marchYear year + marchMonth 11 + (day + 1) < marchYear (year + 1) := by
      refine fun hlt => hnext ⟨hmonth, ?_, hlt⟩
      unfold marchMonth at hlt ⊢
      split at hyears <;> omega
    refine ⟨year + 1, 0, 0, ⟨by decide, by decide, marchYear_strictMono (Nat.lt_add_one _)⟩, ?_, rfl⟩
    change marchYear (year + 1) = _
    omega
  · have hover : ¬ marchMonth month + (day + 1) < marchMonth (month + 1) := by
      refine fun hlt => hnext ⟨hmonth, hlt, ?_⟩
      unfold marchMonth at hlt ⊢
      split at hyears <;> omega
    refine ⟨year, month + 1, 0, ⟨by omega, ?_, ?_⟩, by omega, ?_⟩
    · unfold marchMonth
      omega
    · unfold marchMonth
      split at hyears <;> omega
    · unfold ofMarch
      split_ifs <;> simp at * <;> omega

theorem ofEpochDay_of_march {days year month day : Nat} (h : InMarch year month day)
    (hdays : days + 719468 = marchYear year + marchMonth month + day) :
    ofEpochDay days = ofMarch year month day := by
  obtain ⟨year', month', day', h', hdays', heq⟩ := ofEpochDay_eq days
  obtain ⟨rfl, rfl, rfl⟩ := inMarch_unique h h' (hdays.symm.trans hdays')
  exact heq

theorem InMarch.valid {year month day : Nat} (h : InMarch year month day) :
    (ofMarch year month day).Valid := by
  have hmonth := h.month_lt
  refine ⟨?_, ?_, Nat.le_add_left 1 day, (inMarch_iff hmonth).1 h⟩ <;>
    simp only [ofMarch] <;> split <;> omega

theorem epochDay_ofMarch {month : Nat} (h : month < 12) (year day : Nat) :
    (ofMarch year month day).epochDay = marchYear year + marchMonth month + day - 719468 := by
  rw [marchYear_eq]
  unfold epochDay ofMarch marchMonth
  dsimp only
  split_ifs <;> simp <;> grind

theorem valid_ofEpochDay (days : Nat) : (ofEpochDay days).Valid := by
  obtain ⟨year, month, day, h, -, heq⟩ := ofEpochDay_eq days
  exact heq ▸ h.valid

theorem ofEpochDay_succ (days : Nat) : ofEpochDay (days + 1) = (ofEpochDay days).next := by
  obtain ⟨year, month, day, h, hdays, heq⟩ := ofEpochDay_eq days
  obtain ⟨year', month', day', h', hdays', hnext⟩ := h.next
  rw [heq, hnext]
  exact ofEpochDay_of_march h' (by omega)

theorem epochDay_ofEpochDay (days : Nat) : (ofEpochDay days).epochDay = days := by
  obtain ⟨year, month, day, h, hdays, heq⟩ := ofEpochDay_eq days
  rw [heq, epochDay_ofMarch h.month_lt]
  omega

theorem ofEpochDay_zero : ofEpochDay 0 = epoch := by decide

theorem ofEpochDay_eq_iterate (days : Nat) : ofEpochDay days = next^[days] epoch := by
  induction days with
  | zero => exact ofEpochDay_zero
  | succ days ih => rw [ofEpochDay_succ, ih, Function.iterate_succ_apply']

end Date

/-! ## The formula on 64-bit words -/

namespace Date

/-- The year within an era, of a day within the era, on words. -/
def checkedYearOfEra (day : Nat) : Option Nat := do
  let a ← Word.sub day (day / 1460)
  let b ← Word.add a (day / 36524)
  let c ← Word.sub b (day / 146096)
  return c / 365

/-- The day within the year, of a day within an era that lies in that year of the era, on words. -/
def checkedDayOfYear (day year : Nat) : Option Nat := do
  let a ← Word.mul 365 year
  let b ← Word.add a (year / 4)
  let c ← Word.sub b (year / 100)
  Word.sub day c

/-- The month, counted from 0 for March, and the day of the month, of a day within the year, on words. -/
def checkedMonth (day : Nat) : Option (Nat × Nat) := do
  let a ← Word.mul 5 day
  let b ← Word.add a 2
  let c ← Word.mul 153 (b / 153)
  let d ← Word.add c 2
  let e ← Word.sub day (d / 5)
  let f ← Word.add e 1
  return (b / 153, f)

/-- `ofEpochDay` with each step of the formula on 64-bit words, or nothing as soon as one of them
overflows or goes below zero. Quotients and remainders of words are words. -/
def checkedOfEpochDay (days : Nat) : Option Date := do
  let z ← Word.add days 719468
  let yearOfEra ← checkedYearOfEra (z % 146097)
  let dayOfYear ← checkedDayOfYear (z % 146097) yearOfEra
  let (shifted, day) ← checkedMonth dayOfYear
  let month ← (if shifted < 10 then Word.add shifted 3 else Word.sub shifted 9)
  let years ← Word.mul (z / 146097) 400
  let a ← Word.add yearOfEra years
  let year ← Word.add a (if month ≤ 2 then 1 else 0)
  return { year := year, month := month, day := day }

theorem checkedYearOfEra_eq {day : Nat} (h : day < 146097) :
    checkedYearOfEra day = some (yearOfEra day) := by
  have hadd : day - day / 1460 + day / 36524 < Word.bound := by
    unfold Word.bound
    omega
  simp only [checkedYearOfEra, Option.bind_eq_bind]
  rw [Word.sub_eq (Nat.div_le_self ..), Option.bind_some, Word.add_eq hadd, Option.bind_some,
    Word.sub_eq (by omega)]
  rfl

theorem checkedDayOfYear_eq {day year : Nat} (hyear : year < 400)
    (hstart : 365 * year + year / 4 - year / 100 ≤ day) :
    checkedDayOfYear day year = some (day - (365 * year + year / 4 - year / 100)) := by
  have hadd : 365 * year + year / 4 < Word.bound := by
    unfold Word.bound
    omega
  simp only [checkedDayOfYear, Option.bind_eq_bind]
  rw [Word.mul_eq (by omega), Option.bind_some, Word.add_eq hadd, Option.bind_some,
    Word.sub_eq (by omega), Option.bind_some, Word.sub_eq hstart]

theorem checkedMonth_eq {day : Nat} (h : day < 366) :
    checkedMonth day =
      some ((5 * day + 2) / 153, day - marchMonth ((5 * day + 2) / 153) + 1) := by
  have hadd : 5 * day + 4 < Word.bound := by
    unfold Word.bound
    omega
  simp only [checkedMonth, Option.bind_eq_bind]
  rw [Word.mul_eq (by omega), Option.bind_some, Word.add_eq (by omega), Option.bind_some,
    Word.mul_eq (by omega), Option.bind_some, Word.add_eq (by omega), Option.bind_some,
    Word.sub_eq (by omega), Option.bind_some, Word.add_eq (by omega)]
  rfl

theorem checkedOfEpochDay_eq {days : Nat} (h : days + 719468 < Word.bound) :
    checkedOfEpochDay days = some (ofEpochDay days) := by
  obtain ⟨dayOfEra, hdayOfEra⟩ : ∃ e, e = (days + 719468) % 146097 := ⟨_, rfl⟩
  have hday : dayOfEra < 146097 := by omega
  have hyear := yearOfEra_lt hday
  obtain ⟨hle, hlt⟩ := yearOfEra_spec hday
  rw [marchYear_succ] at hlt
  rw [marchYear_yearOfEra hday] at hle hlt
  obtain ⟨dayOfYear, hdayOfYear⟩ : ∃ d, d = dayOfEra -
      (365 * yearOfEra dayOfEra + yearOfEra dayOfEra / 4 - yearOfEra dayOfEra / 100) := ⟨_, rfl⟩
  have hshort : dayOfYear < 366 := by split at hlt <;> omega
  obtain ⟨shifted, hshifted⟩ : ∃ m, m = (5 * dayOfYear + 2) / 153 := ⟨_, rfl⟩
  have hmonth : (if shifted < 10 then Word.add shifted 3 else Word.sub shifted 9) =
      some (if shifted < 10 then shifted + 3 else shifted - 9) := by
    split
    · exact Word.add_eq (by unfold Word.bound; omega)
    · exact Word.sub_eq (by omega)
  have hera : yearOfEra dayOfEra + (days + 719468) / 146097 * 400 + 1 < Word.bound := by
    unfold Word.bound at h ⊢
    omega
  have hjanuary (month : Nat) : (if month ≤ 2 then 1 else 0) ≤ 1 := by split <;> decide
  simp only [checkedOfEpochDay, Option.bind_eq_bind]
  rw [Word.add_eq h, Option.bind_some, ← hdayOfEra, checkedYearOfEra_eq hday, Option.bind_some,
    checkedDayOfYear_eq hyear hle, Option.bind_some, ← hdayOfYear, checkedMonth_eq hshort,
    Option.bind_some, ← hshifted]
  dsimp only
  rw [hmonth, Option.bind_some, Word.mul_eq (by omega), Option.bind_some, Word.add_eq (by omega),
    Option.bind_some, Word.add_eq ((Nat.add_le_add_left (hjanuary _) _).trans_lt hera)]
  simp only [ofEpochDay, ← hdayOfEra, ← yearOfEra.eq_1, ← hdayOfYear, ← hshifted, ← marchMonth.eq_1,
    Option.pure_def, Option.bind_some]

/-- **Day numbers are dates.** Whatever number of seconds a word holds, the day it lies in has the date
that is reached from the first of January 1970 by stepping to the next date once for each day. That date
exists in the calendar, the day after has the next date, the day number can be had back from the date,
and no step of the formula overflows a word or goes below zero. -/
theorem ofEpochDay_gregorian {seconds : Nat} (h : seconds < Word.bound) :
    (ofEpochDay (seconds / 86400)).Valid ∧
      ofEpochDay (seconds / 86400) = next^[seconds / 86400] epoch ∧
      ofEpochDay (seconds / 86400 + 1) = (ofEpochDay (seconds / 86400)).next ∧
      (ofEpochDay (seconds / 86400)).epochDay = seconds / 86400 ∧
      checkedOfEpochDay (seconds / 86400) = some (ofEpochDay (seconds / 86400)) := by
  refine ⟨valid_ofEpochDay _, ofEpochDay_eq_iterate _, ofEpochDay_succ _, epochDay_ofEpochDay _,
    checkedOfEpochDay_eq ?_⟩
  unfold Word.bound at h ⊢
  omega

/-- The day after the 28th of February 2400, in a year divisible by 400, is the 29th. -/
theorem ofEpochDay_gregorian_leapCentury :
    13574476800 < Word.bound ∧
      ofEpochDay (13574476800 / 86400) = { year := 2400, month := 2, day := 28 } ∧
      ofEpochDay (13574476800 / 86400 + 1) = { year := 2400, month := 2, day := 29 } := by
  have hlt : 13574476800 < Word.bound := by decide
  obtain ⟨-, -, hnext, -, -⟩ := ofEpochDay_gregorian hlt
  have hdate : ofEpochDay (13574476800 / 86400) = { year := 2400, month := 2, day := 28 } := by
    decide +kernel
  rw [hdate] at hnext
  exact ⟨hlt, hdate, hnext.trans (by decide +kernel)⟩

end Date

end ThreadSlots
