import NestBase.Lib.Text
import Mathlib.Tactic

/-!
# Cron expressions

An expression has five fields.  A field is a list of items: a star or a range, both with a
step, or a number.  It names the values of its range that one of its items names; a
number out of the range names none.

The times at which an expression fires are milliseconds, counted from the midnight at
which the day 0 of a calendar starts.  They are a day apart exactly when the expression
takes every day and its fields for the minute and the hour name one value each
(`periodic_day_iff`).
-/

namespace NestBase
namespace Lib
namespace Cron

/-! ## Fields -/

inductive Item where
  | every (step : Nat)
  | one (value : Nat)
  | range (first last step : Nat)
deriving DecidableEq, Repr

abbrev Field : Type := List Item

def Item.names (low : Nat) (item : Item) (value : Nat) : Bool :=
  match item with
  | every step => (value - low) % step == 0
  | one named => value == named
  | range first last step =>
      decide (first ≤ value ∧ value ≤ last) && (value - first) % step == 0

def Field.names (low high : Nat) (field : Field) (value : Nat) : Bool :=
  decide (low ≤ value ∧ value ≤ high) && field.any fun item => item.names low value

/-- The field names one value of its range. -/
def Field.NamesOne (low high : Nat) (field : Field) : Prop :=
  ∃ value, ∀ other, field.names low high other = true ↔ other = value

def Field.isStar (field : Field) : Bool :=
  match field.head? with
  | some (.every _) => true
  | _ => false

theorem Field.bounds_of_names
    {low high value : Nat} {field : Field}
    (h : field.names low high value = true) :
    low ≤ value ∧ value ≤ high := by
  rw [Field.names, Bool.and_eq_true, decide_eq_true_eq] at h
  exact h.1

theorem Field.names_star {low high value : Nat} (hlow : low ≤ value) (hhigh : value ≤ high) :
    Field.names low high [.every 1] value = true := by
  rw [Field.names, decide_eq_true ⟨hlow, hhigh⟩]
  simp [Item.names, Nat.mod_one]

/-! ## Expressions -/

structure Expression where
  minute : Field
  hour : Field
  dayOfMonth : Field
  month : Field
  dayOfWeek : Field
deriving DecidableEq, Repr

/-- A day of a calendar; the days of the week count from Sunday, 0. -/
structure Date where
  dayOfMonth : Nat
  month : Nat
  dayOfWeek : Nat
  dayOfMonth_mem : 1 ≤ dayOfMonth ∧ dayOfMonth ≤ 31
  month_mem : 1 ≤ month ∧ month ≤ 12
  dayOfWeek_lt : dayOfWeek < 7

/-- Sunday is named by 0 and by 7. -/
def onWeekday (field : Field) (day : Nat) : Bool :=
  field.names 0 7 day || (day == 0 && field.names 0 7 7)

/-- Two fields name days.  When neither begins with a star, either may name the day. -/
def Expression.onDay (expression : Expression) (date : Date) : Bool :=
  let inMonth := expression.dayOfMonth.names 1 31 date.dayOfMonth
  let inWeek := onWeekday expression.dayOfWeek date.dayOfWeek
  expression.month.names 1 12 date.month &&
    if expression.dayOfMonth.isStar || expression.dayOfWeek.isStar then inMonth && inWeek
    else inMonth || inWeek

def MINUTE : Nat := 60000

def HOUR : Nat := 3600000

def DAY : Nat := 86400000

def Expression.FiresAt (calendar : Nat → Date) (expression : Expression) (time : Nat) : Prop :=
  time % MINUTE = 0 ∧ expression.minute.names 0 59 (time / MINUTE % 60) = true ∧
    expression.hour.names 0 23 (time / HOUR % 24) = true ∧
      expression.onDay (calendar (time / DAY)) = true

instance (calendar : Nat → Date) (expression : Expression) (time : Nat) :
    Decidable (expression.FiresAt calendar time) :=
  inferInstanceAs (Decidable (_ ∧ _ ∧ _ ∧ _))

/-- The times are exactly one period apart. -/
def Periodic (period : Nat) (times : Nat → Prop) : Prop :=
  ∃ first < period, ∀ time, times time ↔ ∃ k, time = first + k * period

/-- Of two times less than a period apart, only one is in a periodic set. -/
theorem Periodic.eq_of_lt
    {period : Nat} {times : Nat → Prop}
    (h : Periodic period times)
    {time time' : Nat}
    (htime : times time) (htime' : times time')
    (hlt : time < period) (hlt' : time' < period) :
    time = time' := by
  obtain ⟨first, hfirst, hall⟩ := h
  have hbelow : ∀ {t : Nat}, times t → t < period → t = first := by
    intro t ht hsmall
    obtain ⟨k, rfl⟩ := (hall t).mp ht
    cases k with
    | zero => omega
    | succ k =>
        rw [Nat.succ_mul] at hsmall
        omega
  rw [hbelow htime hlt, hbelow htime' hlt']

theorem Periodic.exists_lt {period : Nat} {times : Nat → Prop} (h : Periodic period times) :
    ∃ time < period, times time := by
  obtain ⟨first, hfirst, hall⟩ := h
  exact ⟨first, hfirst, (hall first).mpr ⟨0, by omega⟩⟩

section EveryDay

variable {calendar : Nat → Date} {expression : Expression}

/-- The times of an expression that takes every day. -/
theorem firesAt_iff (hday : ∀ day, expression.onDay (calendar day) = true) (time : Nat) :
    expression.FiresAt calendar time ↔
      time % MINUTE = 0 ∧ expression.minute.names 0 59 (time / MINUTE % 60) = true ∧
        expression.hour.names 0 23 (time / HOUR % 24) = true := by
  unfold Expression.FiresAt
  rw [hday, eq_self, and_true]

theorem periodic_hour
    (hday : ∀ day, expression.onDay (calendar day) = true)
    (hminute : ∀ minute, expression.minute.names 0 59 minute = true ↔ minute = 0)
    (hhour : ∀ hour ≤ 23, expression.hour.names 0 23 hour = true) :
    Periodic HOUR (expression.FiresAt calendar) := by
  refine ⟨0, by decide, fun time => ?_⟩
  rw [firesAt_iff hday, hminute]
  unfold MINUTE HOUR
  constructor
  · rintro ⟨hsecond, hzero, -⟩
    exact ⟨time / 3600000, by omega⟩
  · rintro ⟨k, rfl⟩
    refine ⟨by omega, by omega, hhour _ ?_⟩
    omega

theorem periodic_day_iff (hday : ∀ day, expression.onDay (calendar day) = true) :
    Periodic DAY (expression.FiresAt calendar) ↔
      expression.minute.NamesOne 0 59 ∧ expression.hour.NamesOne 0 23 := by
  constructor
  · intro hperiodic
    obtain ⟨first, hfirst, hfires⟩ := hperiodic.exists_lt
    have hat := (firesAt_iff hday first).mp hfires
    obtain ⟨hsecond, hminute, hhour⟩ := hat
    -- any named minute and hour make a time of the first day
    have hsame : ∀ {minute hour : Nat}, expression.minute.names 0 59 minute = true →
        expression.hour.names 0 23 hour = true →
          hour * HOUR + minute * MINUTE = first := by
      intro minute hour hm hh
      have hmBound := (Field.bounds_of_names hm).2
      have hhBound := (Field.bounds_of_names hh).2
      refine hperiodic.eq_of_lt ((firesAt_iff hday _).mpr ?_) hfires ?_ hfirst
      · unfold MINUTE HOUR
        have hsplit : (hour * 3600000 + minute * 60000) / 60000 % 60 = minute := by omega
        have hsplit' : (hour * 3600000 + minute * 60000) / 3600000 % 24 = hour := by omega
        rw [hsplit, hsplit']
        exact ⟨by omega, hm, hh⟩
      · unfold MINUTE HOUR DAY
        omega
    have hown := hsame hminute hhour
    refine ⟨⟨_, fun minute => ⟨fun hm => ?_, fun heq => heq ▸ hminute⟩⟩,
      ⟨_, fun hour => ⟨fun hh => ?_, fun heq => heq ▸ hhour⟩⟩⟩
    · have hother := hsame hm hhour
      unfold MINUTE HOUR at *
      omega
    · have hother := hsame hminute hh
      unfold MINUTE HOUR at *
      omega
  · rintro ⟨⟨minute, hminute⟩, ⟨hour, hhour⟩⟩
    have hmBound := (Field.bounds_of_names ((hminute minute).mpr rfl)).2
    have hhBound := (Field.bounds_of_names ((hhour hour).mpr rfl)).2
    refine ⟨hour * HOUR + minute * MINUTE, ?_, fun time => ?_⟩
    · unfold MINUTE HOUR DAY
      omega
    · rw [firesAt_iff hday, hminute, hhour]
      unfold MINUTE HOUR DAY
      constructor
      · rintro ⟨hsecond, hm, hh⟩
        exact ⟨time / 86400000, by omega⟩
      · rintro ⟨k, rfl⟩
        omega

end EveryDay

theorem onDay_of_stars
    {expression : Expression} {date : Date}
    (hdayOfMonth : expression.dayOfMonth = [.every 1])
    (hmonth : expression.month = [.every 1])
    (hdayOfWeek : expression.dayOfWeek = [.every 1]) :
    expression.onDay date = true := by
  unfold Expression.onDay onWeekday
  rw [hdayOfMonth, hmonth, hdayOfWeek,
    Field.names_star date.dayOfMonth_mem.1 date.dayOfMonth_mem.2,
    Field.names_star date.month_mem.1 date.month_mem.2,
    Field.names_star (Nat.zero_le _) date.dayOfWeek_lt.le]
  rfl

/-! ## Reading an expression -/

section Reading

def readNumber (digits : List Char) : Option Nat :=
  if digits ≠ [] ∧ digits.all Char.isDigit = true then some (Nat.ofDigitChars 10 digits 0) else none

/-- A step is not 0. -/
def readStep (digits : List Char) : Option Nat :=
  (readNumber digits).filter fun step => step ≠ 0

def readRange (first last : List Char) (step : Nat) : Option Item :=
  (readNumber first).bind fun first => (readNumber last).map fun last => .range first last step

/-- A step stands behind a star or a range. -/
def readStepped (base : List Char) (step : Nat) : Option Item :=
  if base = ['*'] then some (.every step)
  else
    match base.splitOn '-' with
    | [first, last] => readRange first last step
    | _ => none

def readItem (text : List Char) : Option Item :=
  match text.splitOn '/' with
  | [base] =>
      match base.splitOn '-' with
      | [value] => if value = ['*'] then some (.every 1) else (readNumber value).map .one
      | [first, last] => readRange first last 1
      | _ => none
  | [base, step] => (readStep step).bind (readStepped base)
  | _ => none

def readField (text : List Char) : Option Field :=
  (text.splitOn ',').mapM readItem

/-- The expression of five fields. -/
def readExpression (fields : List (List Char)) : Option Expression :=
  match fields with
  | [minute, hour, dayOfMonth, month, dayOfWeek] => do
      let minute ← readField minute
      let hour ← readField hour
      let dayOfMonth ← readField dayOfMonth
      let month ← readField month
      let dayOfWeek ← readField dayOfWeek
      return { minute, hour, dayOfMonth, month, dayOfWeek }
  | _ => none

theorem readField_star : readField ['*'] = some [.every 1] := by
  decide

variable {c : Char}
variable {rest : List Char}

/-- The first part begins as the text does. -/
theorem head_of_splitOn
    {sep : Char} {part : List Char} {parts : List (List Char)}
    (h : (c :: rest).splitOn sep = part :: parts) :
    part = [] ∨ ∃ tail, part = c :: tail := by
  rw [List.splitOn_cons_eq_if_modifyHead] at h
  split at h
  · exact .inl (List.cons.inj h).1.symm
  · obtain ⟨first, others, hparts⟩ := List.exists_cons_of_ne_nil (List.splitOn_ne_nil sep rest)
    rw [hparts, List.modifyHead_cons] at h
    exact .inr ⟨first, (List.cons.inj h).1.symm⟩

theorem head_of_readNumber {n : Nat} (h : readNumber (c :: rest) = some n) :
    c.isDigit = true := by
  unfold readNumber at h
  split at h
  · next hdigits =>
      rw [List.all_cons, Bool.and_eq_true] at hdigits
      exact hdigits.2.1
  · cases h

variable {item : Item}

theorem readRange_head
    {first last : List Char} {parts : List (List Char)} {step : Nat}
    (hsplit : (c :: rest).splitOn '-' = first :: parts)
    (h : readRange first last step = some item) :
    c.isDigit = true := by
  obtain ⟨n, hn, -⟩ := Option.bind_eq_some_iff.mp h
  obtain rfl | ⟨tail, rfl⟩ := head_of_splitOn hsplit
  · cases hn
  · exact head_of_readNumber hn

theorem readStepped_head {step : Nat} (h : readStepped (c :: rest) step = some item) :
    c = '*' ∨ c.isDigit = true := by
  unfold readStepped at h
  split at h
  · next hstar => exact .inl (List.cons.inj hstar).1
  · split at h
    · next hsplit => exact .inr (readRange_head hsplit h)
    · cases h

/-- An item begins with a star or a digit. -/
theorem readItem_head (h : readItem (c :: rest) = some item) :
    c = '*' ∨ c.isDigit = true := by
  unfold readItem at h
  split at h
  · next base hbase =>
      obtain rfl | ⟨tail, rfl⟩ := head_of_splitOn hbase
      · cases h
      · split at h
        · next value hvalue =>
            obtain rfl | ⟨behind, rfl⟩ := head_of_splitOn hvalue
            · cases h
            · split at h
              · next hstar => exact .inl (List.cons.inj hstar).1
              · obtain ⟨n, hn, -⟩ := Option.map_eq_some_iff.mp h
                exact .inr (head_of_readNumber hn)
        · next hsplit => exact .inr (readRange_head hsplit h)
        · cases h
  · next base step hbase =>
      obtain ⟨n, -, hstepped⟩ := Option.bind_eq_some_iff.mp h
      obtain rfl | ⟨tail, rfl⟩ := head_of_splitOn hbase
      · cases hstepped
      · exact readStepped_head hstepped
  · cases h

/-- A field begins with a star or a digit. -/
theorem readField_head {text : List Char} {field : Field} (h : readField text = some field) :
    ∃ c rest, text = c :: rest ∧ (c = '*' ∨ c.isDigit = true) := by
  cases text with
  | nil => cases h
  | cons c rest =>
      obtain ⟨part, parts, hparts⟩ :=
        List.exists_cons_of_ne_nil (List.splitOn_ne_nil ',' (c :: rest))
      rw [readField, hparts, List.mapM_cons] at h
      obtain ⟨item, hitem, -⟩ := Option.bind_eq_some_iff.mp h
      obtain rfl | ⟨tail, rfl⟩ := head_of_splitOn hparts
      · cases hitem
      · exact ⟨c, rest, rfl, readItem_head hitem⟩

end Reading

end Cron
end Lib
end NestBase
