import IdCompaction.Proofs.Grid.Cover
import Mathlib.Algebra.Group.Nat.Defs

/-!
# Threads numbered across a launch

A thread's number across the launch counts the threads of all blocks before its own. Block by block
and thread by thread the numbers of a grid run through an interval from zero on, so a number tells
block and thread by division. The number of a thread is at a fault exactly if it is no size, whether
the product or the sum is what reaches the limit.
-/

namespace IdCompaction

/-- Rows of equal length that are numbered on from one another number an interval. -/
theorem flatMap_range_mul_add (rows size : Nat) :
    ((List.range rows).flatMap fun row => (List.range size).map fun place => row * size + place) =
      List.range (rows * size) := by
  induction rows with
  | zero => simp
  | succ rows ih =>
    rw [List.range_succ, List.flatMap_append, ih, List.flatMap_singleton, Nat.add_one_mul,
      List.range_add]

namespace Lane

variable {l : Lane} {number : Nat}

/-- The number of a thread counts the threads of the blocks before its own. -/
theorem global_of_lt (h : l.block * l.blockSize + l.thread < Size.limit) :
    l.global = .ok (l.block * l.blockSize + l.thread) := by
  have hbefore : Size.mul l.block l.blockSize = .ok (l.block * l.blockSize) :=
    Size.mul_of_lt (by omega)
  simp only [global, hbefore, bind, Except.bind, Size.add_of_lt h]

/-- A thread has a number exactly if its product and its sum stay below the size limit. -/
theorem global_eq_ok_iff :
    l.global = .ok number ↔ l.block * l.blockSize + l.thread < Size.limit ∧
      number = l.block * l.blockSize + l.thread := by
  constructor
  · intro h
    obtain ⟨before, hbefore, hsum⟩ := Size.bind_eq_ok_iff.mp h
    obtain ⟨-, rfl⟩ := Size.mul_eq_ok_iff.mp hbefore
    exact Size.add_eq_ok_iff.mp hsum
  · rintro ⟨hlt, rfl⟩
    exact global_of_lt hlt

/-- The number of a thread is at a fault exactly if it would be no size. -/
theorem exists_fault_global_iff :
    (∃ fault, l.global = .error fault) ↔ Size.limit ≤ l.block * l.blockSize + l.thread := by
  cases h : l.global with
  | ok number =>
    have hlt := (global_eq_ok_iff.mp h).1
    simp only [reduceCtorEq, exists_false, false_iff]
    omega
  | error fault =>
    have hge : ¬ l.block * l.blockSize + l.thread < Size.limit := fun hlt => by
      rw [global_of_lt hlt] at h
      cases h
    exact ⟨fun _ => by omega, fun _ => ⟨fault, rfl⟩⟩

end Lane

namespace Grid

/-- The numbers of all threads, block by block and thread by thread. -/
def numbers (g : Grid) : Except Fault (List Nat) := do
  let rows ← Size.tabulate g.blocks fun block =>
    Size.tabulate g.blockSize fun thread => do (← g.lane block thread).global
  return rows.flatten

variable {g : Grid} {block thread : Nat} {l : Lane}

/-- A lane keeps the coordinates that it was asked for. -/
theorem coordinates_of_lane (h : g.lane block thread = .ok l) :
    l.block = block ∧ l.thread = thread ∧ l.blockSize = g.blockSize := by
  obtain ⟨start, -, h⟩ := Size.bind_eq_ok_iff.mp h
  obtain ⟨stop, -, h⟩ := Size.bind_eq_ok_iff.mp h
  cases h
  exact ⟨rfl, rfl, rfl⟩

/-- The number of a thread of the grid is one of as many numbers as the grid has threads. -/
theorem number_lt (hblock : block < g.blocks) (hthread : thread < g.blockSize) :
    block * g.blockSize + thread < g.blocks * g.blockSize := by
  have hrow : (block + 1) * g.blockSize ≤ g.blocks * g.blockSize :=
    Nat.mul_le_mul_right g.blockSize hblock
  rw [Nat.add_one_mul] at hrow
  omega

/-- A number tells the block and the thread that have it. -/
theorem coordinates_of_number (block : Nat) (hthread : thread < g.blockSize) :
    (block * g.blockSize + thread) / g.blockSize = block ∧
      (block * g.blockSize + thread) % g.blockSize = thread := by
  have hsize : 0 < g.blockSize := Nat.zero_lt_of_lt hthread
  constructor
  · rw [Nat.mul_comm, Nat.mul_add_div hsize, Nat.div_eq_of_lt hthread, Nat.add_zero]
  · rw [Nat.mul_comm, Nat.mul_add_mod, Nat.mod_eq_of_lt hthread]

/-- A thread of a grid with no more threads than sizes has its number. -/
theorem global_of_lane (hcount : g.blocks * g.blockSize ≤ Size.limit) (hblock : block < g.blocks)
    (hthread : thread < g.blockSize) (h : g.lane block thread = .ok l) :
    l.global = .ok (block * g.blockSize + thread) := by
  obtain ⟨rfl, rfl, hsize⟩ := coordinates_of_lane h
  have hlt := number_lt hblock hthread
  rw [← hsize] at hlt hcount ⊢
  exact Lane.global_of_lt (by omega)

/-- Block by block and thread by thread, the numbers run through an interval. -/
theorem numbers_of_lanes (hcount : g.blocks * g.blockSize ≤ Size.limit)
    (hlanes : ∀ block < g.blocks, ∀ thread < g.blockSize, ∃ l, g.lane block thread = .ok l) :
    g.numbers = .ok (List.range (g.blocks * g.blockSize)) := by
  have hthread (block : Nat) (hblock : block < g.blocks) (thread : Nat)
      (hthread : thread < g.blockSize) :
      (do (← g.lane block thread).global) = .ok (block * g.blockSize + thread) := by
    obtain ⟨l, hl⟩ := hlanes block hblock thread hthread
    rw [hl]
    exact global_of_lane hcount hblock hthread hl
  have hrow (block : Nat) (hblock : block < g.blocks) :=
    Size.tabulate_of_forall_ok (hthread block hblock)
  rw [numbers, Size.tabulate_of_forall_ok hrow, ← flatMap_range_mul_add]
  rfl

/-- A grid with no more threads than sizes, and all of whose threads have a place, numbers them
densely in the order of a launch, and a number tells its block and thread. A thread with a place has
a number exactly if that is a size. -/
theorem numbered_densely (g : Grid) :
    (g.blocks * g.blockSize ≤ 2 ^ 64 →
      (∀ block < g.blocks, ∀ thread < g.blockSize, ∃ l, g.lane block thread = .ok l) →
      g.numbers = .ok (List.range (g.blocks * g.blockSize)) ∧
      ∀ block < g.blocks, ∀ thread < g.blockSize, ∃ l number, g.lane block thread = .ok l ∧
        l.global = .ok number ∧ number / g.blockSize = block ∧ number % g.blockSize = thread) ∧
    ∀ block thread l, g.lane block thread = .ok l →
      ((∃ fault, l.global = .error fault) ↔ 2 ^ 64 - 1 < block * g.blockSize + thread) := by
  constructor
  · intro hcount hlanes
    refine ⟨numbers_of_lanes hcount hlanes, fun block hblock thread hthread => ?_⟩
    obtain ⟨l, hl⟩ := hlanes block hblock thread hthread
    obtain ⟨hdiv, hmod⟩ := coordinates_of_number block hthread
    exact ⟨l, _, hl, global_of_lane hcount hblock hthread hl, hdiv, hmod⟩
  · intro block thread l h
    obtain ⟨rfl, rfl, hsize⟩ := coordinates_of_lane h
    rw [Lane.exists_fault_global_iff, hsize]
    exact Iff.rfl

/-- Two blocks of half of all threads each are numbered up to the largest size; the next thread has
a place, but no number. -/
theorem numbered_densely_two :
    ∃ (g : Grid) (l : Lane), g.blocks * g.blockSize = 2 ^ 64 ∧
      (∃ l number, g.lane 1 (2 ^ 63 - 1) = .ok l ∧ l.global = .ok number ∧
        number / 2 ^ 63 = 1 ∧ number % 2 ^ 63 = 2 ^ 63 - 1) ∧
      g.lane 1 (2 ^ 63) = .ok l ∧ ∃ fault, l.global = .error fault := by
  let g : Grid := ⟨2, 2 ^ 63, 1, 2⟩
  have hlanes : ∀ block < g.blocks, ∀ thread < g.blockSize, ∃ l, g.lane block thread = .ok l := by
    intro block hblock thread _
    obtain rfl | rfl : block = 0 ∨ block = 1 := by
      change block < 2 at hblock
      omega
    · exact ⟨_, rfl⟩
    · exact ⟨_, rfl⟩
  have hcount : g.blocks * g.blockSize = 2 ^ 64 := by decide
  obtain ⟨hdense, hfaults⟩ := numbered_densely g
  have hlast := (hdense (Nat.le_of_eq hcount) hlanes).2 1 (Nat.lt_succ_self 1) (2 ^ 63 - 1)
    (Nat.lt_succ_self (2 ^ 63 - 1))
  exact ⟨g, ⟨1, 2 ^ 63, 2 ^ 63, 2, 1, 2⟩, hcount, hlast, rfl,
    (hfaults 1 (2 ^ 63) _ rfl).mpr (by decide)⟩

end Grid

end IdCompaction
