import IdCompaction.Device
import IdCompaction.Proofs.Grid.Cover
import IdCompaction.Proofs.Together

/-!
# Launches on several workers

A kernel that treats the elements of its lane one after another makes a block the loop over the
shares of its threads, if no thread of the grid has its place at a fault. On several workers the
blocks of a launch take turns; a launch without any turns, and without a fault, is the launch on one
worker.
-/

namespace IdCompaction

variable {Op : Type} {Answer : Op → Type} {σ : Type}

/-- Loops one after another are one loop. -/
theorem Routine.forM_eq_forM_flatMap {ι κ : Type} {body : ι → Routine Op Answer Unit}
    {visit : κ → Routine Op Answer Unit} {f : ι → List κ} (list : List ι)
    (h : ∀ i ∈ list, body i = (f i).forM visit) :
    list.forM body = (list.flatMap f).forM visit := by
  induction list with
  | nil => rfl
  | cons i rest ih =>
    obtain ⟨hi, hrest⟩ := List.forall_mem_cons.mp h
    calc (i :: rest).forM body = (body i >>= fun _ => rest.forM body) := rfl
      _ = ((f i).forM visit >>= fun _ => (rest.flatMap f).forM visit) := by rw [hi, ih hrest]
      _ = (f i ++ rest.flatMap f).forM visit := List.forM_append.symm

namespace Grid

variable {g : Grid} {number : Nat}

/-- The elements of a block in the order in which its threads take them. -/
def order (g : Grid) (block : Nat) : List Nat :=
  (List.range g.blockSize).flatMap fun thread => (g.share block thread).toList

/-- The threads of a block visit its tile, in an order of their own. -/
theorem order_perm_tile (hsize : 0 < g.blockSize) (block : Nat) :
    (g.order block).Perm (g.tile block) :=
  shares_perm_tile hsize block

/-- The elements of a block are elements of the input. -/
theorem lt_elements_of_mem_order (hsize : 0 < g.blockSize) {block i : Nat}
    (hi : i ∈ g.order block) : i < g.elements := by
  have htile := (order_perm_tile hsize block).mem_iff.mp hi
  rw [tile, List.mem_range'_1] at htile
  have hend : g.tileEnd block ≤ g.elements := Nat.min_le_right ..
  omega

/-- The elements of all blocks, in the order in which one worker takes them. -/
def launchOrder (g : Grid) : List Nat := (List.range g.blocks).flatMap g.order

/-- A launch over a grid that covers its input comes to every element once. -/
theorem launchOrder_perm (hsize : 0 < g.blockSize) (hcovers : g.elements ≤ g.blocks * g.tileSize) :
    g.launchOrder.Perm (List.range g.elements) := by
  rw [← Nat.min_eq_left hcovers, ← flatMap_tile]
  exact List.Perm.flatMap_left _ fun block _ => order_perm_tile hsize block

/-- A block of a kernel that visits the elements of its lane visits those of the block in order. -/
theorem block_eq_forM (hfits : g.Fits) (hnumber : number < g.blocks)
    (visit : Nat → Routine Op Answer Unit) :
    g.block (fun lane => do
      let indices ← Routine.ofExcept lane.indices
      indices.toList.forM visit) number = (g.order number).forM visit := by
  rw [block, Routine.forFrom_eq, ← List.range_eq_range']
  refine Routine.forM_eq_forM_flatMap _ fun thread hthread => ?_
  obtain ⟨p, hp⟩ := hfits number hnumber thread (List.mem_range.mp hthread)
  obtain ⟨lane, hlane, hindices⟩ := Size.bind_eq_ok_iff.mp hp
  rw [hlane, ← eq_share_of_laneIndices hp]
  change (Routine.ofExcept lane.indices >>= fun indices => indices.toList.forM visit) = _
  rw [hindices]
  rfl

end Grid

section WorkerEach

variable [SharedMemory σ Op Answer]

/-- With a worker for each block, the blocks take turns as the schedule says. -/
theorem Dispatch.run_workerEach (schedule : List Nat) (blocks : Nat)
    (block : Nat → Routine Op Answer Unit) :
    ((workerEach schedule).run blocks block : Action Fault σ Unit) =
      Routine.together schedule ((List.range blocks).map block) := by
  rw [workerEach, run, List.map_map]
  exact congrArg _ (List.map_congr_left fun number _ => bind_pure (block number))

/-- Without any turns, and without a fault, a worker for each block makes the blocks as one worker
does. -/
theorem Dispatch.run_workerEach_nil {blocks : Nat} {block : Nat → Routine Op Answer Unit} {m : σ}
    (h : (((List.range blocks).map block).forM
      (Routine.perform : _ → Action Fault σ Unit) m).result = .ok ()) :
    (workerEach []).run blocks block m = oneWorker.run blocks block m := by
  have hblocks : (List.finRange blocks).forM
      (fun number => ((block number).perform : Action Fault σ Unit)) =
        ((List.range blocks).map block).forM Routine.perform := by
    rw [← List.map_coe_finRange_eq_range, List.map_map]
    exact (List.forM_map ..).symm
  rw [run_workerEach, Routine.together_nil h, run, Action.forAll_of_ok m (by rwa [hblocks]),
    hblocks]

/-- A launch without any turns, and without a fault in any block, is the launch on one worker. -/
theorem Stream.launchUnder_workerEach_nil (s : Stream) (g : Grid)
    {kernel : Lane → Routine Op Answer Unit} {m : σ}
    (h : (((List.range g.blocks).map (g.block kernel)).forM
      (Routine.perform : _ → Action Fault σ Unit) m).result = .ok ()) :
    s.launchUnder (.workerEach []) g kernel m = s.launch g kernel m := by
  rw [launch, launchUnder, launchUnder, Action.bind_apply, Action.bind_apply,
    Dispatch.run_workerEach_nil h]

end WorkerEach

end IdCompaction
