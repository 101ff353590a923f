import IdCompaction.Grid
import Mathlib.Data.List.Nodup
import Mathlib.Data.List.Perm.Basic

/-!
# Grids visit their elements once

The threads of a block share its tile by residue: each takes the elements whose distance from the
start of the tile leaves its own number when divided by the block size. The tiles of consecutive
blocks lie end to end, and the input cuts them off at its end. So the threads of a grid visit every
element below both the input's end and the end of the last tile exactly once, whatever the four
sizes are, and a grid that was computed to cover its input visits all of it.
-/

namespace IdCompaction

namespace Progression

variable {p : Progression}

/-- A number of steps is among those taken if it does not reach the end. -/
theorem lt_count_iff (hstep : 0 < p.step) (k : Nat) :
    k < p.count ↔ p.step * k < p.stop - p.start := by
  have hle : k + 1 ≤ p.count ↔ (k + 1) * p.step ≤ p.stop - p.start + (p.step - 1) :=
    Nat.le_div_iff_mul_le hstep
  have hexpand : (k + 1) * p.step = p.step * k + p.step := by
    rw [Nat.add_one_mul, Nat.mul_comm]
  omega

/-- The numbers are those from the start on and below the end that are whole steps away. -/
theorem mem_toList (hstep : 0 < p.step) (i : Nat) :
    i ∈ p.toList ↔ p.start ≤ i ∧ i < p.stop ∧ (i - p.start) % p.step = 0 := by
  rw [toList, List.mem_range']
  constructor
  · rintro ⟨k, hk, rfl⟩
    have hbelow := (lt_count_iff hstep k).mp hk
    have hdistance : p.start + p.step * k - p.start = p.step * k := Nat.add_sub_cancel_left ..
    refine ⟨by omega, by omega, ?_⟩
    rw [hdistance]
    exact Nat.mul_mod_right ..
  · rintro ⟨hstart, hstop, hmod⟩
    obtain ⟨k, hk⟩ := Nat.dvd_of_mod_eq_zero hmod
    refine ⟨k, (lt_count_iff hstep k).mpr ?_, ?_⟩
    · omega
    · omega

/-- The numbers are in increasing order. -/
theorem pairwise_toList (hstep : 0 < p.step) : p.toList.Pairwise (· < ·) :=
  List.pairwise_lt_range' p.step hstep

end Progression

namespace Size

/-- A sequence is without a fault exactly if both parts are. -/
theorem bind_eq_ok_iff {α β : Type} {x : Except Fault α} {f : α → Except Fault β} {b : β} :
    (x >>= f) = .ok b ↔ ∃ a, x = .ok a ∧ f a = .ok b := by
  obtain fault | a := x
  · constructor
    · intro h
      cases h
    · rintro ⟨a, ha, -⟩
      cases ha
  · constructor
    · intro h
      exact ⟨a, rfl, h⟩
    · rintro ⟨a, ha, h⟩
      cases ha
      exact h

/-- Collecting results that are all there puts them behind those found before. -/
theorem collect_of_forall_ok {α : Type} {f : Nat → Except Fault α} {g : Nat → α} (n start : Nat)
    (found : List α) (h : ∀ i, start ≤ i → i < start + n → f i = .ok (g i)) :
    collect f n start found = .ok (found.reverse ++ (List.range' start n).map g) := by
  induction n generalizing start found with
  | zero => simp [collect]
  | succ n ih =>
    have hfirst := h start (Nat.le_refl _) (by omega)
    have hrest := ih (start + 1) (g start :: found) fun i hi hlt => h i (by omega) (by omega)
    rw [collect, hfirst]
    simp only [hrest, List.reverse_cons, List.append_assoc, List.singleton_append,
      List.range'_succ, List.map_cons]

/-- A table of results that are all there is made without a fault. -/
theorem tabulate_of_forall_ok {α : Type} {count : Nat} {f : Nat → Except Fault α} {g : Nat → α}
    (h : ∀ i < count, f i = .ok (g i)) : tabulate count f = .ok ((List.range count).map g) := by
  rw [tabulate, collect_of_forall_ok count 0 [] fun i _ hi => h i (by omega), List.range_eq_range']
  rfl

end Size

namespace Grid

variable (g : Grid)

/-- No thread of the grid has its place or its elements at a fault. -/
def Fits : Prop :=
  ∀ block < g.blocks, ∀ thread < g.blockSize, ∃ p, g.laneIndices block thread = .ok p

instance : Decidable g.Fits :=
  decidable_of_iff (∀ block < g.blocks, ∀ thread < g.blockSize,
      (g.laneIndices block thread).isOk = true) <|
    forall₄_congr fun block _ thread _ => by
      cases g.laneIndices block thread <;> simp [Except.isOk, Except.toBool]

/-- Where the tile of a block starts. -/
def tileStart (block : Nat) : Nat := block * g.tileSize

/-- Where the tile of a block ends: with the tile or with the input. -/
def tileEnd (block : Nat) : Nat := min ((block + 1) * g.tileSize) g.elements

/-- The elements of a block's tile. -/
def tile (block : Nat) : List Nat :=
  List.range' (g.tileStart block) (g.tileEnd block - g.tileStart block)

/-- The elements of a thread. -/
def share (block thread : Nat) : Progression :=
  ⟨min (g.tileStart block + thread) (g.tileEnd block), g.tileEnd block, g.blockSize⟩

variable {g} {block thread : Nat}

/-- A grid whose tiles end below the size limit, and the threads of its last block too, has no
thread at a fault. -/
theorem fits_of_lt (hsize : 0 < g.blockSize) (htiles : g.blocks * g.tileSize < Size.limit)
    (hthreads : (g.blocks - 1) * g.tileSize + g.blockSize ≤ Size.limit) : g.Fits := by
  intro block hblock thread hthread
  have hnext : (block + 1) * g.tileSize ≤ g.blocks * g.tileSize :=
    Nat.mul_le_mul_right g.tileSize hblock
  have hlast : block * g.tileSize ≤ (g.blocks - 1) * g.tileSize :=
    Nat.mul_le_mul_right g.tileSize (Nat.le_sub_one_of_lt hblock)
  rw [Nat.add_one_mul] at hnext
  have hstart : Size.mul block g.tileSize = .ok (block * g.tileSize) :=
    Size.mul_of_lt (by omega)
  have hend : Size.add (block * g.tileSize) g.tileSize = .ok (block * g.tileSize + g.tileSize) :=
    Size.add_of_lt (by omega)
  have hfirst : Size.add (block * g.tileSize) thread = .ok (block * g.tileSize + thread) :=
    Size.add_of_lt (by omega)
  refine ⟨⟨min (block * g.tileSize + thread) (min (block * g.tileSize + g.tileSize) g.elements),
    min (block * g.tileSize + g.tileSize) g.elements, g.blockSize⟩, ?_⟩
  simp [laneIndices, lane, Lane.indices, hstart, hend, hfirst, bind, Except.bind,
    Nat.ne_of_gt hsize]

/-- A thread whose place is no fault has its share of the tile. -/
theorem eq_share_of_laneIndices {p : Progression} (h : g.laneIndices block thread = .ok p) :
    p = g.share block thread := by
  obtain ⟨lane, hlane, hindices⟩ := Size.bind_eq_ok_iff.mp h
  obtain ⟨start, hstart, hlane⟩ := Size.bind_eq_ok_iff.mp hlane
  obtain ⟨stop, hstop, hlane⟩ := Size.bind_eq_ok_iff.mp hlane
  obtain ⟨-, rfl⟩ := Size.mul_eq_ok_iff.mp hstart
  obtain ⟨-, rfl⟩ := Size.add_eq_ok_iff.mp hstop
  cases hlane
  obtain ⟨first, hfirst, hindices⟩ := Size.bind_eq_ok_iff.mp hindices
  obtain ⟨-, rfl⟩ := Size.add_eq_ok_iff.mp hfirst
  have hend : g.tileEnd block = min (block * g.tileSize + g.tileSize) g.elements := by
    rw [tileEnd, Nat.add_one_mul]
  by_cases hzero : g.blockSize = 0
  · rw [if_pos hzero] at hindices
    cases hindices
  · rw [if_neg hzero] at hindices
    cases hindices
    rw [share, tileStart, hend]

/-- The numbers that leave the remainder `r` are `r` and those whole steps past it. -/
theorem mod_eq_iff {d r step : Nat} (hr : r < step) :
    d % step = r ↔ r ≤ d ∧ (d - r) % step = 0 := by
  constructor
  · intro hmod
    have hle : r ≤ d := hmod ▸ Nat.mod_le d step
    have hsplit := Nat.mod_add_div d step
    have hdistance : d - r = step * (d / step) := by omega
    refine ⟨hle, ?_⟩
    rw [hdistance]
    exact Nat.mul_mod_right ..
  · rintro ⟨hle, hmod⟩
    obtain ⟨k, hk⟩ := Nat.dvd_of_mod_eq_zero hmod
    have hd : d = r + step * k := by omega
    rw [hd, Nat.add_mul_mod_self_left]
    exact Nat.mod_eq_of_lt hr

/-- The elements of a thread are those of its block's tile that leave its number. -/
theorem mem_share (hthread : thread < g.blockSize) (i : Nat) :
    i ∈ (g.share block thread).toList ↔ g.tileStart block ≤ i ∧ i < g.tileEnd block ∧
      (i - g.tileStart block) % g.blockSize = thread := by
  have hstep : 0 < (g.share block thread).step := Nat.zero_lt_of_lt hthread
  rw [Progression.mem_toList hstep, mod_eq_iff hthread]
  by_cases hpast : g.tileEnd block ≤ g.tileStart block + thread
  · have hstart : (g.share block thread).start = g.tileEnd block := Nat.min_eq_right hpast
    have hstop : (g.share block thread).stop = g.tileEnd block := rfl
    omega
  · have hstart : (g.share block thread).start = g.tileStart block + thread :=
      Nat.min_eq_left (by omega)
    have hstop : (g.share block thread).stop = g.tileEnd block := rfl
    have hsame : i - (g.share block thread).start = i - g.tileStart block - thread := by omega
    rw [hsame, hstart, hstop]
    change _ ∧ _ ∧ (i - g.tileStart block - thread) % g.blockSize = 0 ↔ _
    omega

/-- The threads of a block share its tile. -/
theorem shares_perm_tile (hsize : 0 < g.blockSize) (block : Nat) :
    ((List.range g.blockSize).flatMap fun thread => (g.share block thread).toList).Perm
      (g.tile block) := by
  have hnodup : ((List.range g.blockSize).flatMap fun thread =>
      (g.share block thread).toList).Nodup := by
    rw [List.nodup_flatMap]
    constructor
    · intro thread _
      exact (Progression.pairwise_toList hsize).imp Nat.ne_of_lt
    · -- an element of two shares leaves both numbers
      have hdistinct : (List.range g.blockSize).Pairwise (· ≠ ·) := List.nodup_range
      refine hdistinct.imp_of_mem fun {first second} hfirst hsecond hne i hi hi' => hne ?_
      have hleft := ((mem_share (List.mem_range.mp hfirst) i).mp hi).2.2
      have hright := ((mem_share (List.mem_range.mp hsecond) i).mp hi').2.2
      exact hleft.symm.trans hright
  refine (List.perm_ext_iff_of_nodup hnodup List.nodup_range').mpr fun i => ?_
  rw [List.mem_flatMap, List.mem_range'_1]
  constructor
  · rintro ⟨thread, hthread, hi⟩
    have hmem := (mem_share (List.mem_range.mp hthread) i).mp hi
    omega
  · intro hi
    have hthread : (i - g.tileStart block) % g.blockSize < g.blockSize := Nat.mod_lt _ hsize
    refine ⟨_, List.mem_range.mpr hthread, (mem_share hthread i).mpr ?_⟩
    omega

/-- The tiles of the first blocks lie end to end. -/
theorem flatMap_tile (g : Grid) (count : Nat) :
    (List.range count).flatMap g.tile = List.range (min g.elements (count * g.tileSize)) := by
  induction count with
  | zero => simp
  | succ count ih =>
    have hnext : (count + 1) * g.tileSize = count * g.tileSize + g.tileSize := Nat.add_one_mul ..
    rw [List.range_succ, List.flatMap_append, ih, List.flatMap_singleton, tile, tileStart, tileEnd]
    -- a tile that starts past the input's end is empty, and so are all after it
    by_cases hpast : g.elements ≤ count * g.tileSize
    · have hbefore : min g.elements (count * g.tileSize) = g.elements := by omega
      have hafter : min g.elements ((count + 1) * g.tileSize) = g.elements := by omega
      have hempty : min ((count + 1) * g.tileSize) g.elements - count * g.tileSize = 0 := by omega
      rw [hbefore, hafter, hempty, List.range'_zero, List.append_nil]
    · have hbefore : min g.elements (count * g.tileSize) = count * g.tileSize := by omega
      have hafter : min g.elements ((count + 1) * g.tileSize) = count * g.tileSize +
          (min ((count + 1) * g.tileSize) g.elements - count * g.tileSize) := by omega
      have happend := List.range'_append_1 (s := 0) (m := count * g.tileSize)
        (n := min ((count + 1) * g.tileSize) g.elements - count * g.tileSize)
      rw [Nat.zero_add] at happend
      rw [hbefore, hafter, List.range_eq_range', List.range_eq_range', happend]

/-- A grid all of whose threads have a place visits the shares of its threads. -/
theorem visits_of_fits (hfits : g.Fits) :
    g.visits = .ok ((List.range g.blocks).flatMap fun block =>
      (List.range g.blockSize).flatMap fun thread => (g.share block thread).toList) := by
  have hthread (block : Nat) (hblock : block < g.blocks) (thread : Nat)
      (hthread : thread < g.blockSize) :
      (do return (← g.laneIndices block thread).toList : Except Fault (List Nat)) =
        .ok (g.share block thread).toList := by
    obtain ⟨p, hp⟩ := hfits block hblock thread hthread
    rw [hp, eq_share_of_laneIndices hp]
    rfl
  have hblock (block : Nat) (hblock : block < g.blocks) :=
    Size.tabulate_of_forall_ok (hthread block hblock)
  have hflatten (list : List (List (List Nat))) :
      list.flatten.flatten = list.flatMap List.flatten := by
    rw [List.flatten_flatten, List.flatMap_def]
  rw [visits, Size.tabulate_of_forall_ok hblock]
  refine congrArg Except.ok ?_
  rw [hflatten, List.flatMap_map]
  rfl

/-- The visits of a grid are the elements of its tiles, each once. -/
theorem visits_perm (hsize : 0 < g.blockSize) (hfits : g.Fits) :
    ∃ list, g.visits = .ok list ∧
      list.Perm (List.range (min g.elements (g.blocks * g.tileSize))) := by
  refine ⟨_, visits_of_fits hfits, ?_⟩
  rw [← flatMap_tile]
  exact List.Perm.flatMap_left _ fun block _ => shares_perm_tile hsize block

/-- Where both sizes of a device's shape are positive, there is a grid of that shape. -/
theorem ofConfig_of_pos {config : DeviceConfig} (hblock : 0 < config.blockSize.toNat)
    (htile : 0 < config.elementsPerBlock.toNat) (elements : Nat) :
    ofConfig elements config =
      .ok ⟨(elements + (config.elementsPerBlock.toNat - 1)) / config.elementsPerBlock.toNat,
        config.blockSize.toNat, config.elementsPerBlock.toNat, elements⟩ :=
  (if_neg (Nat.ne_of_gt hblock)).trans (if_neg (Nat.ne_of_gt htile))

/-- A grid that was computed for its input covers it. -/
theorem elements_le_of_covering {elements blockSize tileSize : Nat}
    (h : covering elements blockSize tileSize = .ok g) :
    0 < g.blockSize ∧ g.elements = elements ∧ g.elements ≤ g.blocks * g.tileSize := by
  unfold covering at h
  by_cases hblock : blockSize = 0
  · rw [if_pos hblock] at h
    cases h
  by_cases htile : tileSize = 0
  · rw [if_neg hblock, if_pos htile] at h
    cases h
  rw [if_neg hblock, if_neg htile] at h
  cases h
  have hsplit := Nat.div_add_mod (elements + (tileSize - 1)) tileSize
  have hrest := Nat.mod_lt (elements + (tileSize - 1)) (Nat.pos_of_ne_zero htile)
  have hcomm := Nat.mul_comm ((elements + (tileSize - 1)) / tileSize) tileSize
  refine ⟨Nat.pos_of_ne_zero hblock, rfl, ?_⟩
  change elements ≤ (elements + (tileSize - 1)) / tileSize * tileSize
  omega

/-- A grid that fits visits every element below both the input's end and the end of the last tile
exactly once, and each thread visits those of its block's tile that leave its number, in increasing
order. A grid that was computed for its input visits all of it. -/
theorem visits_once (hsize : 0 < g.blockSize) (hfits : g.Fits) :
    (∃ list, g.visits = .ok list ∧
        list.Perm (List.range (min g.elements (g.blocks * g.tileSize)))) ∧
      (∀ block < g.blocks, ∀ thread < g.blockSize, ∃ p, g.laneIndices block thread = .ok p ∧
        p.toList.Pairwise (· < ·) ∧
        ∀ i, i ∈ p.toList ↔ block * g.tileSize ≤ i ∧
          i < min ((block + 1) * g.tileSize) g.elements ∧
          (i - block * g.tileSize) % g.blockSize = thread) ∧
      (∀ elements blockSize tileSize, covering elements blockSize tileSize = .ok g →
        ∃ list, g.visits = .ok list ∧ list.Perm (List.range elements)) ∧
      ∀ elements config, ofConfig elements config = .ok g →
        ∃ list, g.visits = .ok list ∧ list.Perm (List.range elements) := by
  have hcovering (elements blockSize tileSize : Nat)
      (h : covering elements blockSize tileSize = .ok g) :
      ∃ list, g.visits = .ok list ∧ list.Perm (List.range elements) := by
    obtain ⟨-, helements, hle⟩ := elements_le_of_covering h
    obtain ⟨list, hlist, hperm⟩ := visits_perm hsize hfits
    rw [Nat.min_eq_left hle, helements] at hperm
    exact ⟨list, hlist, hperm⟩
  refine ⟨visits_perm hsize hfits, ?_, hcovering, fun elements config => hcovering elements _ _⟩
  intro block hblock thread hthread
  obtain ⟨p, hp⟩ := hfits block hblock thread hthread
  obtain rfl := eq_share_of_laneIndices hp
  exact ⟨_, hp, Progression.pairwise_toList hsize, mem_share hthread⟩

/-- Three blocks of two threads cover ten elements in tiles of four, the last of them half empty. -/
theorem visits_once_ten :
    covering 10 2 4 = .ok ⟨3, 2, 4, 10⟩ ∧ Fits ⟨3, 2, 4, 10⟩ ∧
      ∃ list, visits ⟨3, 2, 4, 10⟩ = .ok list ∧ list.Perm (List.range 10) := by
  have hfits : Fits ⟨3, 2, 4, 10⟩ := by
    intro block hblock thread hthread
    have hblocks : block = 0 ∨ block = 1 ∨ block = 2 := by
      change block < 3 at hblock
      omega
    have hthreads : thread = 0 ∨ thread = 1 := by
      change thread < 2 at hthread
      omega
    rcases hblocks with rfl | rfl | rfl <;> rcases hthreads with rfl | rfl <;> exact ⟨_, rfl⟩
  have hcovers : covering 10 2 4 = .ok ⟨3, 2, 4, 10⟩ := rfl
  have hvisits := visits_once (g := ⟨3, 2, 4, 10⟩) (by decide) hfits
  exact ⟨hcovers, hfits, hvisits.2.2.1 10 2 4 hcovers⟩

end Grid

end IdCompaction
