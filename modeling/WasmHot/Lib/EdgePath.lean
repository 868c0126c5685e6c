import Mathlib.Data.List.Basic

/-!
# Connected sequences of edges

`EdgePath a edges b` says that the edges, taken in order, lead from `a` to `b`: the first one starts
at `a` and each later one starts where the one before it ended. Paths compose
(`EdgePath.append`).
-/

/-- The edges lead from the first vertex to the last, each starting where the previous one ended. -/
inductive EdgePath {α : Type*} : α → List (α × α) → α → Prop
  /-- No edge leads anywhere else. -/
  | nil (a : α) : EdgePath a [] a
  /-- An edge out of the first vertex, followed by a path from its end. -/
  | cons {a b c : α} {edges : List (α × α)} (h : EdgePath b edges c) :
      EdgePath a ((a, b) :: edges) c

namespace EdgePath

variable {α : Type*} {a b c : α} {l₁ l₂ : List (α × α)}

/-- A path followed by a path from its end is a path. -/
theorem append (h₁ : EdgePath a l₁ b) (h₂ : EdgePath b l₂ c) : EdgePath a (l₁ ++ l₂) c := by
  induction h₁ with
  | nil => exact h₂
  | cons _ ih => exact .cons (ih h₂)

/-- A single edge. -/
theorem single (a b : α) : EdgePath a [(a, b)] b :=
  .cons (.nil b)

/-- A nonempty path starts where its first edge starts. -/
theorem cons_start {x y : α} (h : EdgePath a ((x, y) :: l₁) c) : a = x := by
  cases h
  rfl

end EdgePath
