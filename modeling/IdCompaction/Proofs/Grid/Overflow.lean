import IdCompaction.Proofs.Grid.Cover
import IdCompaction.Validation.Validator
import Mathlib.Algebra.Group.Nat.Defs

/-!
# Where grids meet the size limit

A lane is at a fault if its tile ends at or past the size limit, or if its thread would begin there.
Both are worst in the last block, so a grid is free of faults exactly if its last tile ends below
the limit and the last thread of its last block begins below it. The last tile is not clipped before
its end is computed: a grid that covers its input may have a last tile that ends past the limit
although the input does not. Inputs and blocks that each take at most half of all sizes are safe for
every tile size.
-/

namespace IdCompaction.Grid

variable {g : Grid} {block thread : Nat}

/-- A tile that ends below the size limit gives its block a place. -/
theorem lane_of_lt (h : (block + 1) * g.tileSize < Size.limit) (thread : Nat) :
    g.lane block thread = .ok ⟨block, thread, g.blockSize, g.blocks, g.tileStart block,
      g.tileEnd block⟩ := by
  have hend : (block + 1) * g.tileSize = block * g.tileSize + g.tileSize := Nat.add_one_mul ..
  have hstart : Size.mul block g.tileSize = .ok (block * g.tileSize) := Size.mul_of_lt (by omega)
  have hstop : Size.add (block * g.tileSize) g.tileSize = .ok ((block + 1) * g.tileSize) := by
    rw [hend]
    exact Size.add_of_lt (by omega)
  simp only [lane, hstart, hstop, bind, Except.bind, tileStart, tileEnd]

/-- A tile that starts below the size limit and ends at it or past it does not. -/
theorem lane_of_le (hstart : block * g.tileSize < Size.limit)
    (hend : Size.limit ≤ (block + 1) * g.tileSize) (thread : Nat) :
    g.lane block thread = .error .additionOverflow := by
  rw [Nat.add_one_mul] at hend
  have hstop : Size.add (block * g.tileSize) g.tileSize = .error .additionOverflow :=
    if_neg (by omega)
  simp only [lane, Size.mul_of_lt hstart, hstop, bind, Except.bind]

/-- A thread has its elements exactly if neither its tile's end nor its own start is too large. -/
theorem exists_laneIndices_iff (hsize : 0 < g.blockSize) :
    (∃ p, g.laneIndices block thread = .ok p) ↔
      (block + 1) * g.tileSize < Size.limit ∧ block * g.tileSize + thread < Size.limit := by
  have hnext : (block + 1) * g.tileSize = block * g.tileSize + g.tileSize := Nat.add_one_mul ..
  constructor
  · rintro ⟨p, hp⟩
    obtain ⟨lane, hlane, hindices⟩ := Size.bind_eq_ok_iff.mp hp
    obtain ⟨start, hstart, hlane⟩ := Size.bind_eq_ok_iff.mp hlane
    obtain ⟨stop, hstop, hlane⟩ := Size.bind_eq_ok_iff.mp hlane
    obtain ⟨first, hfirst, -⟩ := Size.bind_eq_ok_iff.mp hindices
    obtain ⟨-, rfl⟩ := Size.mul_eq_ok_iff.mp hstart
    cases hlane
    rw [hnext]
    exact ⟨(Size.add_eq_ok_iff.mp hstop).1, (Size.add_eq_ok_iff.mp hfirst).1⟩
  · rintro ⟨hend, hfirst⟩
    have hadd : Size.add (g.tileStart block) thread = .ok (g.tileStart block + thread) :=
      Size.add_of_lt hfirst
    refine ⟨g.share block thread, ?_⟩
    simp [laneIndices, lane_of_lt hend, Lane.indices, hadd, bind, Except.bind, share,
      Nat.ne_of_gt hsize]

/-- A grid is free of faults exactly if the last thread of its last block is. -/
theorem fits_iff (hsize : 0 < g.blockSize) :
    g.Fits ↔ g.blocks = 0 ∨ g.blocks * g.tileSize < Size.limit ∧
      (g.blocks - 1) * g.tileSize + (g.blockSize - 1) < Size.limit := by
  constructor
  · intro hfits
    by_cases hblocks : g.blocks = 0
    · exact .inl hblocks
    · obtain ⟨hend, hfirst⟩ := (exists_laneIndices_iff hsize).mp
        (hfits (g.blocks - 1) (by omega) (g.blockSize - 1) (by omega))
      rw [Nat.sub_add_cancel (by omega)] at hend
      exact .inr ⟨hend, hfirst⟩
  · rintro (hnone | ⟨htiles, hthreads⟩)
    · intro block hblock
      omega
    · exact fits_of_lt hsize htiles (by omega)

variable {elements blockSize tileSize : Nat}

/-- Positive sizes give a grid, with as many tiles as the input begins. -/
theorem covering_of_pos (hblock : 0 < blockSize) (htile : 0 < tileSize) (elements : Nat) :
    covering elements blockSize tileSize =
      .ok ⟨(elements + (tileSize - 1)) / tileSize, blockSize, tileSize, elements⟩ := by
  rw [covering, if_neg (Nat.ne_of_gt hblock), if_neg (Nat.ne_of_gt htile)]

/-- Of as many tiles as an input begins, every one starts in the input. -/
theorem start_lt_of_lt_tiles (htile : 0 < tileSize)
    (hblock : block < (elements + (tileSize - 1)) / tileSize) : block * tileSize < elements := by
  have hle := (Nat.le_div_iff_mul_le htile).mp (Nat.succ_le_of_lt hblock)
  rw [Nat.succ_mul] at hle
  omega

/-- An input and blocks that each take at most half of all sizes are safe for every tile size. The
tiles end less than one tile past the input, and no tile but the first is larger than the input. -/
theorem fits_of_le_half (hblock : 0 < blockSize) (htile : 0 < tileSize)
    (hlimit : tileSize < Size.limit) (hhalf : elements < 2 ^ 63) (hthreads : blockSize ≤ 2 ^ 63) :
    Fits ⟨(elements + (tileSize - 1)) / tileSize, blockSize, tileSize, elements⟩ := by
  have hdouble : Size.limit = 2 ^ 63 + 2 ^ 63 := rfl
  refine (fits_iff hblock).mpr ?_
  obtain hnone | hsome := Nat.eq_zero_or_pos ((elements + (tileSize - 1)) / tileSize)
  · exact .inl hnone
  · have hlast : ((elements + (tileSize - 1)) / tileSize - 1) * tileSize < elements :=
      start_lt_of_lt_tiles htile (by omega)
    have hend : (elements + (tileSize - 1)) / tileSize * tileSize =
        ((elements + (tileSize - 1)) / tileSize - 1) * tileSize + tileSize := by
      rw [← Nat.succ_mul, Nat.succ_eq_add_one, Nat.sub_add_cancel hsome]
    refine .inr ⟨?_, by dsimp only; omega⟩
    obtain hone | hmore : (elements + (tileSize - 1)) / tileSize = 1 ∨
        1 ≤ (elements + (tileSize - 1)) / tileSize - 1 := by omega
    · change (elements + (tileSize - 1)) / tileSize * tileSize < Size.limit
      rwa [hone, Nat.one_mul]
    · have hsmall : tileSize ≤ ((elements + (tileSize - 1)) / tileSize - 1) * tileSize :=
        Nat.le_mul_of_pos_left tileSize hmore
      dsimp only
      omega

/-- The lanes of a grid that covers its input are free of faults exactly if the grid is empty or the
last thread of its last block is. No tile starts too late, and of tiles that end past the largest
size only the last one has no place. An input and blocks of at most half of all sizes are safe for
every tile size, and so is every batch that fits into memory. -/
theorem overflows_exactly (elements blockSize tileSize : Nat) (helements : elements < Size.limit)
    (hblock : 0 < blockSize) (htile : 0 < tileSize) (hlimit : tileSize < Size.limit) :
    ∃ g, covering elements blockSize tileSize = .ok g ∧ g.blockSize = blockSize ∧
      g.tileSize = tileSize ∧
      (g.Fits ↔ g.blocks = 0 ∨ g.blocks * tileSize ≤ 2 ^ 64 - 1 ∧
        (g.blocks - 1) * tileSize + (blockSize - 1) ≤ 2 ^ 64 - 1) ∧
      (∀ block < g.blocks, Size.mul block tileSize = .ok (block * tileSize)) ∧
      (2 ^ 64 - 1 < g.blocks * tileSize → ∀ block < g.blocks, ∀ thread,
        (block + 1 < g.blocks → ∃ lane, g.lane block thread = .ok lane) ∧
        (block + 1 = g.blocks → g.lane block thread = .error .additionOverflow)) ∧
      (elements < 2 ^ 63 → blockSize ≤ 2 ^ 63 → g.Fits) ∧
      ∀ (v : Validator) (input : Array Id), 4 * input.size ≤ Layout.largest →
        0 < v.config.blockSize.toNat → 0 < v.config.elementsPerBlock.toNat →
        v.config.blockSize.toNat ≤ 2 ^ 63 → ∃ g, v.grid input.size = .ok g ∧ g.Fits := by
  have hlargest : Size.limit = 2 ^ 64 - 1 + 1 := rfl
  have hstart (block : Nat) (hlt : block < (elements + (tileSize - 1)) / tileSize) :
      block * tileSize < Size.limit := Nat.lt_trans (start_lt_of_lt_tiles htile hlt) helements
  refine ⟨_, covering_of_pos hblock htile elements, rfl, rfl, ?fits, ?starts, ?past,
    ?half, ?batches⟩
  case fits =>
    rw [fits_iff hblock, hlargest, Nat.lt_succ_iff, Nat.lt_succ_iff]
  case starts =>
    exact fun block hlt => Size.mul_of_lt (hstart block hlt)
  case past =>
    intro hpast block hlt thread
    constructor
    · -- the tile of the next block starts where this one ends
      intro hnext
      exact ⟨_, lane_of_lt (hstart (block + 1) hnext) thread⟩
    · intro hlast
      refine lane_of_le (hstart block hlt) ?_ thread
      rw [hlast]
      exact hpast
  case half =>
    exact fits_of_le_half hblock htile hlimit
  case batches =>
    intro v input hmemory hthreads htiles hhalf
    have hinput : input.size < 2 ^ 63 := by
      change 4 * input.size ≤ 2 ^ 63 - 1 at hmemory
      omega
    exact ⟨_, ofConfig_of_pos hthreads htiles input.size,
      fits_of_le_half hthreads htiles (UInt64.toNat_lt _) hinput hhalf⟩

/-- Two tiles of almost all sizes each cover an input of almost all sizes, but the second one ends
past the largest size. -/
theorem overflows_exactly_two :
    ∃ g, covering (2 ^ 64 - 1) 1 (2 ^ 64 - 2) = .ok g ∧ g.blocks = 2 ∧ ¬ g.Fits ∧
      (∃ lane, g.lane 0 0 = .ok lane) ∧ g.lane 1 0 = .error .additionOverflow := by
  obtain ⟨g, hgrid, -, -, hfits, -, hlast, -⟩ :=
    overflows_exactly (2 ^ 64 - 1) 1 (2 ^ 64 - 2) (by decide) (by decide) (by decide) (by decide)
  have hblocks : g.blocks = 2 := by
    have h : covering (2 ^ 64 - 1) 1 (2 ^ 64 - 2) = .ok ⟨2, 1, 2 ^ 64 - 2, 2 ^ 64 - 1⟩ := rfl
    exact congrArg Grid.blocks (Except.ok.inj (hgrid.symm.trans h))
  rw [hblocks] at hfits hlast
  have hpast := hlast (by decide)
  exact ⟨g, hgrid, hblocks, fun h => absurd (hfits.mp h) (by decide),
    (hpast 0 (by decide) 0).1 (by decide), (hpast 1 (by decide) 0).2 rfl⟩

end IdCompaction.Grid
