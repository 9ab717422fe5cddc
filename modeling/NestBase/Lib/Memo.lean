import Mathlib.Data.List.Induction

/-!
# Memo tables

A table keeps results under names, and inputs of one name share a result.  An
input whose name holds something leaves it, and any other enters what is made
of it.  So a name holds what the first of its inputs made of which anything was
(`held_foldl`).
-/

namespace NestBase
namespace Lib
namespace Memo

section Tables

variable {α κ β : Type} [DecidableEq κ] (name : α → κ) (made : α → Option β)

/-- What an input enters under a name. -/
def entered (k : κ) (x : α) : Option β :=
  if name x = k then made x else none

/-- The first result of a name. -/
def first (inputs : List α) (k : κ) : Option β :=
  inputs.findSome? (entered name made k)

variable {name made}

theorem first_append_singleton (inputs : List α) (k : κ) (x : α) :
    first name made (inputs ++ [x]) k =
      (first name made inputs k).or (entered name made k x) := by
  unfold first
  rw [List.findSome?_append]
  cases hentered : entered name made k x <;> simp [hentered]

/-- Names that agree on which inputs share them have the same first result. -/
theorem first_congr
    {κ' : Type} [DecidableEq κ'] {name' : α → κ'} {inputs : List α} {k : κ} {k' : κ'}
    (h : ∀ x ∈ inputs, name x = k ↔ name' x = k') :
    first name made inputs k = first name' made inputs k' := by
  induction inputs with
  | nil => rfl
  | cons x inputs ih =>
      have hhead : entered name made k x = entered name' made k' x := by
        unfold entered
        simp only [h x List.mem_cons_self]
      have htail := ih fun y hy => h y (List.mem_cons_of_mem x hy)
      unfold first at htail ⊢
      rw [List.findSome?_cons, List.findSome?_cons, hhead, htail]

/-- A run whose steps enter what their inputs make, where nothing is held. -/
theorem held_foldl
    {σ : Type} {next : σ → α → σ} (held : σ → Option β) {s : σ} {k : κ} {inputs : List α}
    (hempty : held s = none)
    (hstep : ∀ passed x, passed ++ [x] <+: inputs →
      held (next (passed.foldl next s) x) =
        (held (passed.foldl next s)).or (entered name made k x)) :
    held (inputs.foldl next s) = first name made inputs k := by
  induction inputs using List.reverseRecOn with
  | nil => exact hempty
  | append_singleton inputs x ih =>
      have hpassed := ih fun passed y hpassed =>
        hstep passed y (hpassed.trans (List.prefix_append inputs [x]))
      rw [List.foldl_append, List.foldl_cons, List.foldl_nil,
        hstep inputs x (List.prefix_refl _), hpassed, first_append_singleton]

end Tables

end Memo
end Lib
end NestBase
