import IdCompaction.Fault

/-!
# Sizes

Sizes and indices are natural numbers below `Size.limit`. Sums and products that would reach the
limit are faults, and so are remainders by zero. A computation can be made for every number below a
size, up to the first fault.
-/

namespace IdCompaction.Size

/-- One past the largest size. -/
def limit : Nat := 18446744073709551616

/-- The sum, if it is a size. -/
def add (a b : Nat) : Except Fault Nat :=
  if a + b < limit then .ok (a + b) else .error .additionOverflow

/-- The product, if it is a size. -/
def mul (a b : Nat) : Except Fault Nat :=
  if a * b < limit then .ok (a * b) else .error .multiplicationOverflow

/-- The remainder, if there is one. -/
def mod (a b : Nat) : Except Fault Nat := if b = 0 then .error .zeroDivisor else .ok (a % b)

/-- The results of `f` at the next `count` numbers from `start` on, after `found`, latest first. -/
def collect {α : Type} (f : Nat → Except Fault α) :
    (count start : Nat) → (found : List α) → Except Fault (List α)
  | 0, _, found => .ok found.reverse
  | count + 1, start, found =>
    match f start with
    | .ok x => collect f count (start + 1) (x :: found)
    | .error fault => .error fault

/-- The results of `f` for every number below `count`. The numbers after a fault are never looked
at, so the count may be as large as any size. -/
def tabulate {α : Type} (count : Nat) (f : Nat → Except Fault α) : Except Fault (List α) :=
  collect f count 0 []

/-- A sum below the limit is a size. -/
theorem add_of_lt {a b : Nat} (h : a + b < limit) : add a b = .ok (a + b) := if_pos h

/-- A product below the limit is a size. -/
theorem mul_of_lt {a b : Nat} (h : a * b < limit) : mul a b = .ok (a * b) := if_pos h

/-- A sum is a size exactly if it is below the limit. -/
theorem add_eq_ok_iff {a b c : Nat} : add a b = .ok c ↔ a + b < limit ∧ c = a + b := by
  unfold add
  split <;> rename_i h <;> simp [h, eq_comm]

/-- A product is a size exactly if it is below the limit. -/
theorem mul_eq_ok_iff {a b c : Nat} : mul a b = .ok c ↔ a * b < limit ∧ c = a * b := by
  unfold mul
  split <;> rename_i h <;> simp [h, eq_comm]

end IdCompaction.Size
