import NestBase.Lib.Cron
import NestBase.Lib.NumberText

/-!
# The interval of a cron expression

Without Redis a repeated job runs on a timer, and `parseCronToIntervalMs` gives its
period: an hour for `0 * * * *`, a day for a number in the two first fields and stars
in the others, and nothing for the rest.

The numbers are read with `parseInt`, which reads the digits at the head of a text and
ignores what follows: a list, a range or a number out of its range passes for a number.
`keepsFrequency_iff` says that the period is the one of the expression exactly when these
two fields name one value each.
-/

namespace NestBase
namespace Core
namespace CronInterval

open Lib
open Lib.Cron

/-- `trim().split(/\s+/)`; a text without words is one empty part. -/
def splitWords (text : List Char) : List (List Char) :=
  match (text.splitOnP Text.isWhiteSpace).filter fun part => part ≠ [] with
  | [] => [[]]
  | words => words

/-- `!Number.isNaN(Number.parseInt(part, 10))` -/
def startsNumeric (part : List Char) : Bool :=
  Number.parseInt (String.ofList part) != .nan

def parseCronToIntervalMs (cron : List Char) : Option Nat :=
  match splitWords cron with
  | minutePart :: hourPart :: dayPart :: monthPart :: weekPart :: _ =>
      if minutePart = ['0'] ∧ hourPart = ['*'] ∧ dayPart = ['*'] ∧ monthPart = ['*'] ∧
          weekPart = ['*'] then
        some (60 * 60 * 1000)
      else if startsNumeric hourPart = true ∧ startsNumeric minutePart = true ∧ dayPart = ['*'] ∧
          monthPart = ['*'] ∧ weekPart = ['*'] then
        some (24 * 60 * 60 * 1000)
      else none
  | _ => none

/-! ## The frequency -/

/-- The period is the one at which the expression fires, once an hour or once a day, and an
expression with another schedule has none. -/
def KeepsFrequency (cron : List Char) (expression : Expression) : Prop :=
  ∀ calendar : Nat → Date,
    (∀ period, parseCronToIntervalMs cron = some period →
      Periodic period (expression.FiresAt calendar)) ∧
    (¬Periodic HOUR (expression.FiresAt calendar) →
      ¬Periodic DAY (expression.FiresAt calendar) → parseCronToIntervalMs cron = none)

/-- The minute and the hour begin with a digit, and the other fields are stars. -/
def looksDaily (cron : List Char) : Bool :=
  match splitWords cron with
  | [minutePart, hourPart, dayPart, monthPart, weekPart] =>
      minutePart.head?.any Char.isDigit && hourPart.head?.any Char.isDigit &&
        dayPart == ['*'] && monthPart == ['*'] && weekPart == ['*']
  | _ => false

/-! ## The two periods -/

section Periods

variable {cron : List Char} {expression : Expression}

theorem startsNumeric_iff {part : List Char} {field : Field} (h : readField part = some field) :
    startsNumeric part = part.head?.any Char.isDigit := by
  obtain ⟨c, rest, rfl, rfl | hdigit⟩ := readField_head h
  · have hblank : ('*' :: rest).dropWhile Text.isWhiteSpace = '*' :: rest :=
      List.dropWhile_cons_of_neg (by decide)
    unfold startsNumeric Number.parseInt
    rw [String.toList_ofList, hblank]
    rfl
  · have htake : (c :: rest).takeWhile Char.isDigit ≠ [] := by
      rw [List.takeWhile_cons_of_pos hdigit]
      exact List.cons_ne_nil _ _
    have hread := Number.parseInt_digits List.all_takeWhile htake
      (fun d hd => by
        have hstop := List.head?_dropWhile_not Char.isDigit (c :: rest)
        rw [hd] at hstop
        simpa using hstop)
    rw [List.takeWhile_append_dropWhile] at hread
    rw [startsNumeric, hread, List.head?_cons, Option.any_some, hdigit, bne_iff_ne]
    unfold Number.round
    split <;> exact Number.noConfusion

/-- The fields of an expression that can be read. -/
theorem exists_fields (h : readExpression (splitWords cron) = some expression) :
    ∃ minute hour day month week,
      splitWords cron = [minute, hour, day, month, week] ∧
        readField minute = some expression.minute ∧ readField hour = some expression.hour ∧
          readField day = some expression.dayOfMonth ∧ readField month = some expression.month ∧
            readField week = some expression.dayOfWeek := by
  unfold readExpression at h
  split at h
  · next minute hour day month week hwords =>
      obtain ⟨m, hm, h⟩ := Option.bind_eq_some_iff.mp h
      obtain ⟨o, ho, h⟩ := Option.bind_eq_some_iff.mp h
      obtain ⟨d, hd, h⟩ := Option.bind_eq_some_iff.mp h
      obtain ⟨n, hn, h⟩ := Option.bind_eq_some_iff.mp h
      obtain ⟨w, hw, h⟩ := Option.bind_eq_some_iff.mp h
      obtain rfl := Option.some.inj h
      exact ⟨minute, hour, day, month, week, hwords, hm, ho, hd, hn, hw⟩
  · cases h

/-- An interval of a day is given exactly to expressions that look daily. -/
theorem parseCronToIntervalMs_cases (h : readExpression (splitWords cron) = some expression) :
    (looksDaily cron = true ∧ parseCronToIntervalMs cron = some DAY ∧
        ∀ date, expression.onDay date = true) ∨
      (looksDaily cron = false ∧
        (parseCronToIntervalMs cron = none ∨
          parseCronToIntervalMs cron = some HOUR ∧
            ∀ calendar, Periodic HOUR (expression.FiresAt calendar))) := by
  obtain ⟨minute, hour, day, month, week, hwords, hm, ho, hd, hn, hw⟩ := exists_fields h
  have hstar {field : Field} {part : List Char} (hread : readField part = some field)
      (hpart : part = ['*']) : field = [.every 1] := by
    rw [hpart, readField_star] at hread
    exact (Option.some.inj hread).symm
  have hevery (hdays : day = ['*'] ∧ month = ['*'] ∧ week = ['*']) (date : Date) :
      expression.onDay date = true :=
    onDay_of_stars (hstar hd hdays.1) (hstar hn hdays.2.1) (hstar hw hdays.2.2)
  unfold parseCronToIntervalMs looksDaily
  rw [hwords]
  dsimp only
  rw [startsNumeric_iff hm, startsNumeric_iff ho]
  by_cases hhourly : minute = ['0'] ∧ hour = ['*'] ∧ day = ['*'] ∧ month = ['*'] ∧ week = ['*']
  · right
    rw [if_pos hhourly]
    obtain ⟨hminute, hhour, hdays⟩ := hhourly
    have hstars := hstar ho hhour
    have hzero : expression.minute = [.one 0] := by
      rw [hminute] at hm
      exact (Option.some.inj hm).symm
    refine ⟨by rw [hhour]; simp, .inr ⟨rfl, fun calendar => ?_⟩⟩
    refine periodic_hour (fun _ => hevery hdays _) (fun value => ?_) fun value hvalue => ?_
    · rw [hzero, Field.names]
      simp [Item.names]
      omega
    · rw [hstars]
      exact Field.names_star (Nat.zero_le _) hvalue
  · rw [if_neg hhourly]
    by_cases hdaily : hour.head?.any Char.isDigit = true ∧ minute.head?.any Char.isDigit = true ∧
        day = ['*'] ∧ month = ['*'] ∧ week = ['*']
    · left
      rw [if_pos hdaily]
      obtain ⟨hhour, hminute, hdays⟩ := hdaily
      refine ⟨?_, rfl, hevery hdays⟩
      obtain ⟨rfl, rfl, rfl⟩ := hdays
      rw [hhour, hminute]
      rfl
    · right
      rw [if_neg hdaily]
      refine ⟨?_, .inl rfl⟩
      rw [← Bool.not_eq_true]
      intro hlooks
      simp only [Bool.and_eq_true, beq_iff_eq] at hlooks
      exact hdaily ⟨hlooks.1.1.1.2, hlooks.1.1.1.1, hlooks.1.1.2, hlooks.1.2, hlooks.2⟩

/-- The period is right exactly when an expression that looks daily names one minute and one
hour. -/
theorem keepsFrequency_iff (h : readExpression (splitWords cron) = some expression) :
    KeepsFrequency cron expression ↔
      (looksDaily cron = true →
        expression.minute.NamesOne 0 59 ∧ expression.hour.NamesOne 0 23) := by
  unfold KeepsFrequency
  obtain ⟨hlooks, hparse, hday⟩ | ⟨hlooks, hparse⟩ := parseCronToIntervalMs_cases h
  · rw [hparse, hlooks]
    constructor
    · intro hkeeps _
      have hdate : Date := ⟨1, 1, 0, by decide, by decide, by decide⟩
      exact (periodic_day_iff fun _ => hday _).mp ((hkeeps fun _ => hdate).1 DAY rfl)
    · intro hone calendar
      have hperiodic := (periodic_day_iff fun day => hday (calendar day)).mpr (hone rfl)
      refine ⟨fun period hperiod => ?_, fun _ hnot => absurd hperiodic hnot⟩
      obtain rfl := Option.some.inj hperiod
      exact hperiodic
  · rw [hlooks]
    refine iff_of_true (fun calendar => ?_) fun hfalse => Bool.noConfusion hfalse
    obtain hnone | ⟨hhour, hperiodic⟩ := hparse
    · rw [hnone]
      exact ⟨fun period hperiod => absurd hperiod (by simp), fun _ _ => rfl⟩
    · rw [hhour]
      refine ⟨fun period hperiod => ?_, fun hnot => absurd (hperiodic calendar) hnot⟩
      obtain rfl := Option.some.inj hperiod
      exact hperiodic calendar

theorem keepsFrequency_daily :
    KeepsFrequency "0 8 * * *".toList
        ⟨[.one 0], [.one 8], [.every 1], [.every 1], [.every 1]⟩ ↔
      (looksDaily "0 8 * * *".toList = true →
        Field.NamesOne 0 59 [.one 0] ∧ Field.NamesOne 0 23 [.one 8]) :=
  keepsFrequency_iff (by rfl)

/-- A job for midnight and noon runs once a day. -/
theorem not_keepsFrequency_twice :
    readExpression (splitWords "0 0,12 * * *".toList) =
        some ⟨[.one 0], [.one 0, .one 12], [.every 1], [.every 1], [.every 1]⟩ ∧
      ¬KeepsFrequency "0 0,12 * * *".toList
        ⟨[.one 0], [.one 0, .one 12], [.every 1], [.every 1], [.every 1]⟩ := by
  refine ⟨by rfl, fun hkeeps => ?_⟩
  have hperiodic :=
    (hkeeps fun _ => ⟨1, 1, 0, by decide, by decide, by decide⟩).1 DAY (by decide +kernel)
  obtain ⟨first, hfirst, htimes⟩ := hperiodic
  obtain ⟨k, hk⟩ := (htimes 0).mp (by decide)
  obtain ⟨k', hk'⟩ := (htimes (12 * HOUR)).mp (by decide)
  unfold DAY HOUR at *
  omega

end Periods

end CronInterval
end Core
end NestBase
