import NestBase.Lib.Json
import Mathlib.Tactic

/-!
# Queries over fields

A query has a value for each of its fields.  A value with an operator among
its entries stands for all of them; every other value stands for equality.
A parser refuses a query in which an operator is unknown or has an operand of
the wrong kind; a query that is not refused matches an item that passes every
test.

What an operator tests is the parameter `test` of the matcher.
-/

namespace NestBase
namespace Lib

universe u

/-- Operators, the operands they accept, and the test of an operator on a field of an item. -/
structure QueryMatcher (Item : Type u) where
  operators : List String
  accepts : String → Json → Bool
  test : String → String → Json → Item → Bool

namespace QueryMatcher

section QueryMatcher

variable {Item : Type u}
variable (m : QueryMatcher Item)

def hasOperators : Json → Bool
  | .obj entries => entries.any fun entry => m.operators.contains entry.1
  | _ => false

/-- The operators a value stands for. -/
def operatorsOf (value : Json) : List (String × Json) :=
  match value with
  | .obj entries => if m.hasOperators value then entries else [("$eq", value)]
  | _ => [("$eq", value)]

/-- The parser knows the operator and takes its operand. -/
def takes (condition : String × Json) : Bool :=
  m.operators.contains condition.1 && m.accepts condition.1 condition.2

def accepted (query : List (String × Json)) : Bool :=
  query.all fun clause => (m.operatorsOf clause.2).all m.takes

def holds (query : List (String × Json)) (item : Item) : Bool :=
  query.all fun clause =>
    (m.operatorsOf clause.2).all fun condition => m.test condition.1 clause.1 condition.2 item

/-- Whether the query matches; `none` when the parser throws. -/
def run (query : List (String × Json)) (item : Item) : Option Bool :=
  if m.accepted query then some (m.holds query item) else none

/-- The value of a field is taken by the parser and passed by the item. -/
def passes (field : String) (value : Json) (item : Item) : Prop :=
  ∀ condition ∈ m.operatorsOf value,
    m.takes condition = true ∧ m.test condition.1 field condition.2 item = true

/-- The parser refuses the operator on the field, or some item fails it. -/
def Excludes (field : String) (condition : String × Json) : Prop :=
  m.takes condition = false ∨ ∃ item, m.test condition.1 field condition.2 item = false

/-- One of the operators of the value excludes an item. -/
def ValueExcludes (field : String) (value : Json) : Prop :=
  ∃ condition ∈ m.operatorsOf value, m.Excludes field condition

variable {m}

/-- A query matches when each of its fields passes. -/
theorem run_eq_some_true_iff {query : List (String × Json)} {item : Item} :
    m.run query item = some true ↔ ∀ clause ∈ query, m.passes clause.1 clause.2 item := by
  have hrun :
      m.run query item = some true ↔ m.accepted query = true ∧ m.holds query item = true := by
    unfold run
    split
    · next haccepted => simp [haccepted]
    · next hrefused => simp [hrefused]
  rw [hrun]
  simp only [accepted, holds, passes, List.all_eq_true]
  constructor
  · rintro ⟨haccepted, hholds⟩ clause hclause condition hcondition
    exact ⟨haccepted clause hclause condition hcondition,
      hholds clause hclause condition hcondition⟩
  · intro hpasses
    constructor
    · intro clause hclause condition hcondition
      exact (hpasses clause hclause condition hcondition).1
    · intro clause hclause condition hcondition
      exact (hpasses clause hclause condition hcondition).2

/-- An object without an operator is compared as a whole. -/
theorem operatorsOf_plain {value : Json} (hplain : m.hasOperators value = false) :
    m.operatorsOf value = [("$eq", value)] := by
  cases value with
  | obj entries => simp [operatorsOf, hplain]
  | _ => rfl

theorem operatorsOf_map
    {entries : List (String × Json)}
    (hoperators : m.hasOperators (.obj entries) = true) :
    m.operatorsOf (.obj entries) = entries := by
  simp [operatorsOf, hoperators]

theorem passes_plain_iff
    {field : String} {value : Json} {item : Item}
    (hplain : m.hasOperators value = false) :
    m.passes field value item ↔
      m.takes ("$eq", value) = true ∧ m.test "$eq" field value item = true := by
  simp [passes, operatorsOf_plain hplain]

/-- A query that does not match every item has a field that excludes one. -/
theorem exists_run_ne_iff [Inhabited Item] {query : List (String × Json)} :
    (∃ item, m.run query item ≠ some true) ↔
      ∃ clause ∈ query, m.ValueExcludes clause.1 clause.2 := by
  constructor
  · rintro ⟨item, hitem⟩
    rw [Ne, run_eq_some_true_iff] at hitem
    push Not at hitem
    obtain ⟨clause, hclause, hfails⟩ := hitem
    unfold passes at hfails
    push Not at hfails
    obtain ⟨condition, hcondition, hfailed⟩ := hfails
    refine ⟨clause, hclause, condition, hcondition, ?_⟩
    cases htakes : m.takes condition with
    | false => exact Or.inl htakes
    | true => exact Or.inr ⟨item, eq_false_of_ne_true (hfailed htakes)⟩
  · rintro ⟨clause, hclause, condition, hcondition, hrefused | ⟨item, hfails⟩⟩
    · refine ⟨default, fun hmatches => ?_⟩
      have hpasses := run_eq_some_true_iff.mp hmatches clause hclause condition hcondition
      rw [hrefused] at hpasses
      cases hpasses.1
    · refine ⟨item, fun hmatches => ?_⟩
      have hpasses := run_eq_some_true_iff.mp hmatches clause hclause condition hcondition
      rw [hfails] at hpasses
      cases hpasses.2

end QueryMatcher

end QueryMatcher

end Lib
end NestBase
