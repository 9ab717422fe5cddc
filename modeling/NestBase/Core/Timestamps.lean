import NestBase.Core.Examples
import NestBase.Lib.NumberText

/-!
# The date of a timestamp

The first ten characters of `toISOString` are the date of the day as long as its year
has four digits; later they are the year and the month only.  A date stands for one day
(`dayOfCivil_civilDate`), so two days have the same text when they are the same day, or
days of one month from the year 10000 on (`dateText_eq_iff`).
-/

namespace NestBase
namespace Timestamps

open Lib
open Examples (civilDate padZeros toISOString)

/-! ## Days and their dates -/

def ONE_DAY_MS : Nat := 86400000

/-- The greatest time of a `Date`. -/
def MAX_TIME : Nat := 8640000000000000

/-- A valid `Date`. -/
structure Date where
  getTime : Int
  isValid : getTime.natAbs ≤ MAX_TIME
deriving DecidableEq

/-- The day of a time, counted from 1970-01-01. -/
def dayOf (time : Int) : Int :=
  time / ONE_DAY_MS

/-- The milliseconds since the beginning of the day. -/
def timeOfDay (time : Int) : Int :=
  time % ONE_DAY_MS

/-- The day of a date, counted from 1970-01-01. -/
def dayOfCivil (date : Int × Nat × Nat) : Int :=
  let (year, month, day) := date
  let marchYear := if month ≤ 2 then year - 1 else year
  let march := if month ≤ 2 then month + 9 else month - 3
  let yearOfEra := marchYear % 400
  marchYear / 400 * 146097 + (365 * yearOfEra + yearOfEra / 4 - yearOfEra / 100) +
    ((153 * march + 2) / 5 + day - 1) - 719468

/-- The year of the era that a day of the era is in. -/
def yearOfEra (dayOfEra : Nat) : Nat :=
  (dayOfEra - dayOfEra / 1460 + dayOfEra / 36524 - dayOfEra / 146096) / 365

/-- The day of the year, counted from the first of March. -/
def dayOfYear (dayOfEra : Nat) : Nat :=
  dayOfEra - (365 * yearOfEra dayOfEra + yearOfEra dayOfEra / 4 - yearOfEra dayOfEra / 100)

/-- The year begins on a day before, and a year at most before the day. -/
theorem yearOfEra_spec {dayOfEra : Nat} (h : dayOfEra < 146097) :
    yearOfEra dayOfEra ≤ 399 ∧
      365 * yearOfEra dayOfEra + yearOfEra dayOfEra / 4 - yearOfEra dayOfEra / 100 ≤ dayOfEra ∧
      dayOfYear dayOfEra ≤ 365 := by
  unfold dayOfYear
  have hyears : yearOfEra dayOfEra ≤ 399 := by
    unfold yearOfEra
    omega
  refine ⟨hyears, ?_⟩
  by_cases hlast : dayOfEra = 146096
  · subst hlast
    decide
  · generalize hyear : yearOfEra dayOfEra = year
    unfold yearOfEra at hyear
    obtain ⟨century, hcentury⟩ : ∃ century, dayOfEra / 36524 = century := ⟨_, rfl⟩
    obtain ⟨cycle, rest, hcycle, hrest⟩ :
        ∃ cycle rest, dayOfEra = 1460 * cycle + rest ∧ rest < 1460 :=
      ⟨dayOfEra / 1460, dayOfEra % 1460, by omega, by omega⟩
    have hcycles : dayOfEra / 1460 = cycle := by omega
    have hera : dayOfEra / 146096 = 0 := by omega
    rw [hcentury, hcycles, hera] at hyear
    -- Of the leap years of a century only the last may be left out.
    have hsame : year / 100 = century := by
      have hcases : century ≤ 3 := by omega
      interval_cases century <;> omega
    rw [hsame]
    have hcases : century ≤ 3 := by omega
    interval_cases century <;> omega

/-- What a date is made of. -/
theorem civilDate_eq (day : Int) :
    civilDate day =
      (let dayOfEra := ((day + 719468) % 146097).toNat
      let march := (5 * dayOfYear dayOfEra + 2) / 153
      let month := if march < 10 then march + 3 else march - 9
      (yearOfEra dayOfEra + (day + 719468) / 146097 * 400 + (if month ≤ 2 then 1 else 0), month,
        dayOfYear dayOfEra - (153 * march + 2) / 5 + 1)) :=
  rfl

/-- The date of a day is that of no other day. -/
theorem dayOfCivil_civilDate (day : Int) : dayOfCivil (civilDate day) = day := by
  rw [civilDate_eq]
  dsimp only
  have hlt : ((day + 719468) % 146097).toNat < 146097 := by omega
  have hday : (((day + 719468) % 146097).toNat : Int) = (day + 719468) % 146097 := by omega
  obtain ⟨hyears, hbegin, hyear⟩ := yearOfEra_spec hlt
  generalize hdays : ((day + 719468) % 146097).toNat = dayOfEra at *
  have hdayOfYear :
      (dayOfYear dayOfEra : Int) =
        dayOfEra - (365 * (yearOfEra dayOfEra : Int) + yearOfEra dayOfEra / 4 -
          yearOfEra dayOfEra / 100) := by
    unfold dayOfYear at hyear ⊢
    omega
  generalize yearOfEra dayOfEra = year at *
  generalize dayOfYear dayOfEra = dayInYear at *
  obtain ⟨march, hmarch⟩ : ∃ march, (5 * dayInYear + 2) / 153 = march := ⟨_, rfl⟩
  have hmonths : march ≤ 11 := by omega
  have hfirst : (153 * march + 2) / 5 ≤ dayInYear := by omega
  have hera : ((year : Int) + (day + 719468) / 146097 * 400) / 400 = (day + 719468) / 146097 := by
    omega
  have hofEra : ((year : Int) + (day + 719468) / 146097 * 400) % 400 = year := by
    omega
  have hparts := Int.mul_ediv_add_emod (day + 719468) 146097
  rw [hmarch]
  by_cases hspring : march < 10
  · have hmonth : ¬ march + 3 ≤ 2 := by omega
    simp only [dayOfCivil, if_pos hspring, if_neg hmonth]
    rw [add_zero, hera, hofEra]
    omega
  · have hmonth : march - 9 ≤ 2 := by omega
    simp only [dayOfCivil, if_neg hspring, if_pos hmonth]
    rw [add_sub_cancel_right, hera, hofEra]
    omega

theorem civilDate_injective {a b : Int} (h : civilDate a = civilDate b) : a = b := by
  rw [← dayOfCivil_civilDate a, h, dayOfCivil_civilDate]

/-- The parts of a date from 1970 on, up to the last day of a `Date`. -/
theorem civilDate_bounds {day : Int} (hlow : 0 ≤ day) (hhigh : day ≤ 100000000) :
    (1970 ≤ (civilDate day).1 ∧ (civilDate day).1 < 1000000) ∧ (civilDate day).2.1 < 100 ∧
      (civilDate day).2.2 < 100 := by
  rw [civilDate_eq]
  dsimp only
  have hlt : ((day + 719468) % 146097).toNat < 146097 := by omega
  have hday : (((day + 719468) % 146097).toNat : Int) = (day + 719468) % 146097 := by omega
  obtain ⟨hyears, hbegin, hyear⟩ := yearOfEra_spec hlt
  generalize ((day + 719468) % 146097).toNat = dayOfEra at *
  have hdayOfYear :
      dayOfYear dayOfEra +
        (365 * yearOfEra dayOfEra + yearOfEra dayOfEra / 4 - yearOfEra dayOfEra / 100) =
          dayOfEra := by
    unfold dayOfYear at hyear ⊢
    omega
  generalize yearOfEra dayOfEra = year at *
  generalize dayOfYear dayOfEra = dayInYear at *
  obtain ⟨march, hmarch⟩ : ∃ march, (5 * dayInYear + 2) / 153 = march := ⟨_, rfl⟩
  have hmonths : march ≤ 11 := by omega
  have hera : 4 ≤ (day + 719468) / 146097 ∧ (day + 719468) / 146097 ≤ 689 := by omega
  -- 1970 is the year that begins in the month 10 of the year 369 of the era 4.
  have hbegin : (day + 719468) / 146097 = 4 → 135080 ≤ dayOfEra := by omega
  have hfirst : (day + 719468) / 146097 = 4 → year ≤ 369 → 10 ≤ march ∧ year = 369 := by
    omega
  rw [hmarch]
  refine ⟨⟨?_, ?_⟩, ?_, ?_⟩
  · split <;> split <;> omega
  · split <;> split <;> omega
  · split <;> omega
  · omega

/-! ## Texts of dates -/

/-- `new Date(time).toISOString().slice(0, 10)` -/
def dateText (time : Int) : String :=
  String.ofList ((toISOString time).toList.take 10)

theorem toList_padZeros (width n : Nat) :
    (padZeros width n).toList =
      List.replicate (width - (toString n).toList.length) '0' ++ (toString n).toList := by
  unfold padZeros
  rw [String.toList_append, String.toList_ofList]
  rfl

variable {width n : Nat}

theorem length_padZeros (hwidth : 1 ≤ width) (h : n < 10 ^ width) :
    (padZeros width n).toList.length = width := by
  have hdigits := Number.length_toString_le hwidth h
  rw [toList_padZeros, List.length_append, List.length_replicate]
  omega

theorem padZeros_inj {n' : Nat}
    (h : (padZeros width n).toList = (padZeros width n').toList) : n = n' := by
  have hvalue := congrArg (fun digits => Nat.ofDigitChars 10 digits 0) h
  simpa only [toList_padZeros, Nat.ofDigitChars_append, Nat.ofDigitChars_replicate_zero,
    Nat.mul_zero, Text.ofDigitChars_toString] using hvalue

theorem isDigit_of_mem_padZeros {c : Char} (h : c ∈ (padZeros width n).toList) :
    c.isDigit = true := by
  rw [toList_padZeros, List.mem_append] at h
  rcases h with hzero | hdigit
  · rw [(List.mem_replicate.mp hzero).2]
    rfl
  · exact Text.isDigit_of_mem_toString hdigit

variable {time : Int}

/-- The date comes first. -/
theorem toISOString_date (hyear : 0 ≤ (civilDate (dayOf time)).1) :
    ∃ clock,
      (toISOString time).toList =
        (if (civilDate (dayOf time)).1 ≤ 9999
          then (padZeros 4 (civilDate (dayOf time)).1.toNat).toList
          else '+' :: (padZeros 6 (civilDate (dayOf time)).1.toNat).toList) ++
        '-' :: ((padZeros 2 (civilDate (dayOf time)).2.1).toList ++
          '-' :: ((padZeros 2 (civilDate (dayOf time)).2.2).toList ++ clock)) := by
  have hday : time / 86400000 = dayOf time := rfl
  have hjoined :
      ∀ year month day clock : List Char,
        year ++ (['-'] ++ (month ++ (['-'] ++ (day ++ clock)))) =
          year ++ '-' :: (month ++ '-' :: (day ++ clock)) :=
    fun _ _ _ _ => rfl
  have hdash : "-".toList = ['-'] := rfl
  have hplus : "+".toList = ['+'] := rfl
  have hnat : (civilDate (dayOf time)).1.natAbs = (civilDate (dayOf time)).1.toNat := by omega
  unfold toISOString
  simp only [String.toList_append, List.append_assoc]
  rw [hday]
  generalize civilDate (dayOf time) = date at *
  by_cases hfour : date.1 ≤ 9999
  · rw [if_pos ⟨hyear, hfour⟩, if_pos hfour, hdash]
    exact ⟨_, hjoined _ _ _ _⟩
  · rw [if_neg (fun h => hfour h.2), if_neg hfour, if_neg (by omega), hnat, String.toList_append,
      hdash, hplus, List.singleton_append]
    exact ⟨_, hjoined _ _ _ _⟩

/-- Up to the year 9999 the text is the whole date. -/
theorem dateText_of_le
    (hlow : 0 ≤ dayOf time) (hhigh : dayOf time ≤ 100000000)
    (hyear : (civilDate (dayOf time)).1 ≤ 9999) :
    (dateText time).toList =
      (padZeros 4 (civilDate (dayOf time)).1.toNat).toList ++
        '-' :: ((padZeros 2 (civilDate (dayOf time)).2.1).toList ++
          '-' :: (padZeros 2 (civilDate (dayOf time)).2.2).toList) := by
  obtain ⟨⟨hfirst, -⟩, hmonth, hday⟩ := civilDate_bounds hlow hhigh
  have hdate : 0 ≤ (civilDate (dayOf time)).1 := by omega
  obtain ⟨clock, hclock⟩ := toISOString_date hdate
  have hyearLength : (padZeros 4 (civilDate (dayOf time)).1.toNat).toList.length = 4 :=
    length_padZeros (by omega) (by omega)
  have hmonthLength : (padZeros 2 (civilDate (dayOf time)).2.1).toList.length = 2 :=
    length_padZeros (by omega) hmonth
  have hdayLength : (padZeros 2 (civilDate (dayOf time)).2.2).toList.length = 2 :=
    length_padZeros (by omega) hday
  unfold dateText
  rw [String.toList_ofList, hclock, if_pos hyear]
  have hsplit :
      ∀ {year month day : List Char},
        year.length = 4 → month.length = 2 → day.length = 2 →
        (year ++ '-' :: (month ++ '-' :: (day ++ clock))).take 10 =
          year ++ '-' :: (month ++ '-' :: day) := by
    intro year month day hy hm hd
    have hwhole :
        year ++ '-' :: (month ++ '-' :: (day ++ clock)) =
          (year ++ '-' :: (month ++ '-' :: day)) ++ clock := by
      simp only [List.append_assoc, List.cons_append]
    rw [hwhole, List.take_left']
    simp only [List.length_append, List.length_cons, hy, hm, hd]
  exact hsplit hyearLength hmonthLength hdayLength

/-- Later it ends with the month. -/
theorem dateText_of_lt
    (hlow : 0 ≤ dayOf time) (hhigh : dayOf time ≤ 100000000)
    (hyear : 9999 < (civilDate (dayOf time)).1) :
    (dateText time).toList =
      '+' :: ((padZeros 6 (civilDate (dayOf time)).1.toNat).toList ++
        '-' :: (padZeros 2 (civilDate (dayOf time)).2.1).toList) := by
  obtain ⟨⟨hfirst, hlast⟩, hmonth, -⟩ := civilDate_bounds hlow hhigh
  have hdate : 0 ≤ (civilDate (dayOf time)).1 := by omega
  obtain ⟨clock, hclock⟩ := toISOString_date hdate
  have hyearLength : (padZeros 6 (civilDate (dayOf time)).1.toNat).toList.length = 6 :=
    length_padZeros (by omega) (by omega)
  have hmonthLength : (padZeros 2 (civilDate (dayOf time)).2.1).toList.length = 2 :=
    length_padZeros (by omega) hmonth
  unfold dateText
  rw [String.toList_ofList, hclock, if_neg (by omega)]
  have hsplit :
      ∀ {year month rest : List Char},
        year.length = 6 → month.length = 2 →
        (('+' :: year) ++ '-' :: (month ++ rest)).take 10 = '+' :: (year ++ '-' :: month) := by
    intro year month rest hy hm
    have hwhole :
        ('+' :: year) ++ '-' :: (month ++ rest) = ('+' :: (year ++ '-' :: month)) ++ rest := by
      simp only [List.append_assoc, List.cons_append]
    rw [hwhole, List.take_left']
    simp only [List.length_append, List.length_cons, hy, hm]
  exact hsplit hyearLength hmonthLength

/-- Two days have the same text: the same day, or days of a month from the year 10000 on. -/
def SameDateText (a b : Int) : Prop :=
  a = b ∨
    9999 < (civilDate a).1 ∧ (civilDate a).1 = (civilDate b).1 ∧
      (civilDate a).2.1 = (civilDate b).2.1

instance (a b : Int) : Decidable (SameDateText a b) :=
  inferInstanceAs (Decidable (a = b ∨
    9999 < (civilDate a).1 ∧ (civilDate a).1 = (civilDate b).1 ∧
      (civilDate a).2.1 = (civilDate b).2.1))

theorem sameDateText_comm {a b : Int} : SameDateText a b ↔ SameDateText b a := by
  unfold SameDateText
  constructor
  · rintro (hsame | ⟨hlater, hyears, hmonths⟩)
    · exact .inl hsame.symm
    · exact .inr ⟨hyears ▸ hlater, hyears.symm, hmonths.symm⟩
  · rintro (hsame | ⟨hlater, hyears, hmonths⟩)
    · exact .inl hsame.symm
    · exact .inr ⟨hyears ▸ hlater, hyears.symm, hmonths.symm⟩

/-- A number does not begin with a sign. -/
theorem padZeros_ne_plus {rest rest' : List Char} :
    (padZeros width n).toList ++ rest ≠ '+' :: rest' := by
  intro h
  cases hchars : (padZeros width n).toList with
  | nil =>
      rw [toList_padZeros, List.append_eq_nil_iff] at hchars
      exact Text.toString_ne_nil n hchars.2
  | cons c digits =>
      rw [hchars, List.cons_append, List.cons.injEq] at h
      have hplus : c.isDigit = true :=
        isDigit_of_mem_padZeros (by rw [hchars]; exact List.mem_cons_self)
      rw [h.1] at hplus
      exact absurd hplus (by decide)

/-- Numbers of a width are told apart, whatever follows them. -/
theorem padZeros_append_inj {n' : Nat} {rest rest' : List Char}
    (hwidth : 1 ≤ width) (h : n < 10 ^ width) (h' : n' < 10 ^ width)
    (heq : (padZeros width n).toList ++ rest = (padZeros width n').toList ++ rest') :
    n = n' ∧ rest = rest' := by
  have hlength := (length_padZeros hwidth h).trans (length_padZeros hwidth h').symm
  obtain ⟨hnumber, hrest⟩ := List.append_inj heq hlength
  exact ⟨padZeros_inj hnumber, hrest⟩

theorem dateText_eq_iff {time' : Int}
    (hlow : 0 ≤ dayOf time) (hhigh : dayOf time ≤ 100000000)
    (hlow' : 0 ≤ dayOf time') (hhigh' : dayOf time' ≤ 100000000) :
    dateText time = dateText time' ↔ SameDateText (dayOf time) (dayOf time') := by
  obtain ⟨⟨hfirst, hlast⟩, hmonth, hday⟩ := civilDate_bounds hlow hhigh
  obtain ⟨⟨hfirst', hlast'⟩, hmonth', hday'⟩ := civilDate_bounds hlow' hhigh'
  rw [← String.toList_inj]
  by_cases hfour : (civilDate (dayOf time)).1 ≤ 9999 <;>
    by_cases hfour' : (civilDate (dayOf time')).1 ≤ 9999
  · rw [dateText_of_le hlow hhigh hfour, dateText_of_le hlow' hhigh' hfour']
    constructor
    · intro h
      obtain ⟨hyears, hmonths⟩ := padZeros_append_inj (by omega) (by omega) (by omega) h
      obtain ⟨hmonths, hdays⟩ :=
        padZeros_append_inj (by omega) hmonth hmonth' (List.cons.inj hmonths).2
      have hdays := padZeros_inj (List.cons.inj hdays).2
      refine .inl (civilDate_injective (Prod.ext ?_ (Prod.ext hmonths hdays)))
      omega
    · rintro (hsame | ⟨hlater, -⟩)
      · rw [hsame]
      · omega
  · rw [dateText_of_le hlow hhigh hfour, dateText_of_lt hlow' hhigh' (by omega)]
    constructor
    · exact fun h => absurd h padZeros_ne_plus
    · rintro (hsame | ⟨hlater, -⟩)
      · rw [hsame] at hfour
        exact absurd hfour hfour'
      · omega
  · rw [dateText_of_lt hlow hhigh (by omega), dateText_of_le hlow' hhigh' hfour']
    constructor
    · exact fun h => absurd h.symm padZeros_ne_plus
    · rintro (hsame | ⟨hlater, hyears, -⟩)
      · rw [← hsame] at hfour'
        exact absurd hfour' hfour
      · omega
  · rw [dateText_of_lt hlow hhigh (by omega), dateText_of_lt hlow' hhigh' (by omega)]
    constructor
    · intro h
      obtain ⟨hyears, hmonths⟩ :=
        padZeros_append_inj (by omega) (by omega) (by omega) (List.cons.inj h).2
      exact .inr ⟨by omega, by omega, padZeros_inj (List.cons.inj hmonths).2⟩
    · rintro (hsame | ⟨-, hyears, hmonths⟩)
      · rw [hsame]
      · rw [hyears, hmonths]

end Timestamps
end NestBase
