import IdCompaction.Proofs.Grid.Rank

/-!
# Launches on any number of workers

A dispatch shares the blocks of a launch among workers. One worker has all of them; how it cuts them
into runs depends on the faults that it meets, but on every memory its launch is that of a dispatch
whose workers have these runs and work one after another.

If a fault of a kernel depends on the element that it visits, and not on the memory, what a launch
comes to is the same for every schedule: the first fault among its elements, in the order in which
the workers have them.
-/

namespace IdCompaction

variable {Op : Type} {Answer : Op → Type} {σ : Type}

/-- Performing a loop is performing its body at each number. -/
theorem Routine.perform_forM [SharedMemory σ Op Answer] {ι : Type} (list : List ι)
    (visit : ι → Routine Op Answer Unit) :
    ((list.forM visit).perform : Action Fault σ Unit) = list.forM fun i => (visit i).perform := by
  induction list with
  | nil => rfl
  | cons i rest ih =>
    change ((visit i >>= fun _ => rest.forM visit).perform : Action Fault σ Unit) = _
    rw [Routine.perform_bind, ih]
    rfl

/-- The runs of a loop are made in turn. -/
theorem Action.forRuns_eq_inTurn [SharedMemory σ Op Answer] {count : Nat} (runs : List (Run count))
    (visit : Fin count → Routine Op Answer Unit) :
    (forRuns (fun i => (visit i).perform) runs : Action Fault σ Unit) =
      Routine.inTurn (runs.map fun run => run.numbers.forM visit) := by
  induction runs with
  | nil => rfl
  | cons run rest ih =>
    rw [List.map_cons, Routine.inTurn, Routine.perform_forM, ← ih]
    rfl

/-- The shares of workers who have, one after another, the runs that one worker makes of the blocks
on a memory. -/
def Shares.ofOneWorker [SharedMemory σ Op Answer] (block : Nat → Routine Op Answer Unit) (m : σ) :
    Shares where
  lists blocks :=
    (Action.runsOf 1 (fun number : Fin blocks => ((block number).perform : Action Fault σ Unit)) 1
      (Run.all blocks) m).map fun run => run.numbers.map Fin.val
  perm blocks := by
    rw [← List.flatMap_def, ← List.map_flatMap, Action.numbers_runsOf_all,
      List.map_coe_finRange_eq_range]
  schedule := []

namespace Dispatch

/-- The elements of a grid in the order in which the workers have them. -/
def order (g : Grid) : Dispatch → List Nat
  | .oneWorker => g.launchOrder
  | .shared shares => (shares.lists g.blocks).flatten.flatMap g.order

variable {d : Dispatch} {shares : Shares} {g : Grid}

/-- Workers share only blocks that there are. -/
theorem lt_of_mem_lists {blocks block : Nat} (h : block ∈ (shares.lists blocks).flatten) :
    block < blocks :=
  List.mem_range.mp ((shares.perm blocks).mem_iff.mp h)

/-- The workers together have every element of a grid that covers its input. -/
theorem order_perm (d : Dispatch) (hsize : 0 < g.blockSize)
    (hcovers : g.elements ≤ g.blocks * g.tileSize) :
    (d.order g).Perm (List.range g.elements) := by
  have hall := Grid.launchOrder_perm hsize hcovers
  cases d with
  | oneWorker => exact hall
  | shared shares => exact ((shares.perm g.blocks).flatMap_right g.order).trans hall

/-- The runs of one worker have the elements in the order of a launch. -/
theorem order_ofOneWorker [SharedMemory σ Op Answer] (block : Nat → Routine Op Answer Unit) (m : σ)
    (g : Grid) : (shared (.ofOneWorker block m)).order g = g.launchOrder := by
  rw [order, Shares.ofOneWorker, ← List.flatMap_def, ← List.map_flatMap, Action.numbers_runsOf_all,
    List.map_coe_finRange_eq_range, Grid.launchOrder]

/-- On every memory, one worker makes the blocks as workers do who have its runs. -/
theorem run_oneWorker [SharedMemory σ Op Answer] (blocks : Nat)
    (block : Nat → Routine Op Answer Unit) (m : σ) :
    oneWorker.run blocks block m = (shared (.ofOneWorker block m)).run blocks block m := by
  rw [run, Action.forAll_eq_forRuns, Action.forRuns_eq_inTurn, run, Shares.ofOneWorker,
    Routine.together_nil_eq_inTurn, List.map_map]
  refine congrArg (Routine.inTurn · m) (List.map_congr_left fun run _ => ?_)
  exact (List.forM_map ..).symm

end Dispatch

/-- Of the shares of a single block, one worker has that block and the others have none. -/
theorem Shares.exists_lists_one (shares : Shares) :
    ∃ before after : List (List Nat), shares.lists 1 = before ++ [0] :: after ∧
      (∀ blocks ∈ before, blocks = []) ∧ ∀ blocks ∈ after, blocks = [] := by
  have hflat : (shares.lists 1).flatten = [0] := List.perm_singleton.mp (shares.perm 1)
  generalize shares.lists 1 = lists at hflat ⊢
  induction lists with
  | nil => cases hflat
  | cons blocks rest ih =>
    rw [List.flatten_cons, List.append_eq_singleton_iff] at hflat
    obtain ⟨rfl, hrest⟩ | ⟨rfl, hrest⟩ := hflat
    · obtain ⟨before, after, hlists, hbefore, hafter⟩ := ih hrest
      refine ⟨[] :: before, after, by rw [hlists, List.cons_append], ?_, hafter⟩
      exact List.forall_mem_cons.mpr ⟨rfl, hbefore⟩
    · exact ⟨[], rest, rfl, List.forall_mem_nil _, List.flatten_eq_nil_iff.mp hrest⟩

/-- A worker whose kernel visits the elements of its lane visits those of its blocks in order. -/
theorem Grid.forM_block_eq_forM {g : Grid} (hfits : g.Fits) {blocks : List Nat}
    (hblocks : ∀ block ∈ blocks, block < g.blocks) (visit : Nat → Routine Op Answer Unit) :
    blocks.forM (g.block fun lane => do
      let indices ← Routine.ofExcept lane.indices
      indices.toList.forM visit) = (blocks.flatMap g.order).forM visit :=
  Routine.forM_eq_forM_flatMap blocks fun block hblock =>
    block_eq_forM hfits (hblocks block hblock) visit

/-- Blocks that go on to their ends one after another, without a fault, visit the elements in the
order of the launch. -/
theorem Grid.together_nil_blocks [SharedMemory σ Op Answer] {g : Grid} (hfits : g.Fits)
    {visit : Nat → Routine Op Answer Unit} {m : σ}
    (h : ((g.launchOrder.forM fun i => ((visit i).perform : Action Fault σ Unit)) m).result =
      .ok ()) :
    Routine.together [] ((List.range g.blocks).map (g.block fun lane => do
        let indices ← Routine.ofExcept lane.indices
        indices.toList.forM visit)) m = (g.launchOrder.forM fun i => (visit i).perform) m := by
  let block : Nat → Routine Op Answer Unit := g.block fun lane => do
    let indices ← Routine.ofExcept lane.indices
    indices.toList.forM visit
  have hblocks : ((List.range g.blocks).map block).forM
      (Routine.perform : _ → Action Fault σ Unit) =
        g.launchOrder.forM fun i => (visit i).perform :=
    calc
      _ = (List.range g.blocks).forM fun number => (block number).perform := List.forM_map ..
      _ = ((List.range g.blocks).forM block).perform := (Routine.perform_forM ..).symm
      _ = (g.launchOrder.forM visit).perform :=
        congrArg _ (Routine.forM_eq_forM_flatMap _ fun number hnumber =>
          block_eq_forM hfits (List.mem_range.mp hnumber) visit)
      _ = g.launchOrder.forM fun i => (visit i).perform := Routine.perform_forM ..
  rw [← hblocks] at h ⊢
  exact Routine.together_nil h

section Visits

variable [SharedMemory σ Op Answer] {g : Grid} {visit : Nat → Routine Op Answer Unit}

/-- The blocks of a kernel that visits the elements of its lane, as a dispatch runs them. -/
def Dispatch.runVisits (d : Dispatch) (g : Grid) (visit : Nat → Routine Op Answer Unit) :
    Action Fault σ Unit :=
  d.run g.blocks (g.block fun lane => do
    let indices ← Routine.ofExcept lane.indices
    indices.toList.forM visit)

/-- Workers that share the blocks visit the elements of their blocks in order. -/
theorem Dispatch.runVisits_shared (hfits : g.Fits) (shares : Shares) :
    ((Dispatch.shared shares).runVisits g visit : Action Fault σ Unit) =
      Routine.together shares.schedule
        (((shares.lists g.blocks).map (List.flatMap g.order)).map fun list => list.forM visit) := by
  rw [Dispatch.runVisits, Dispatch.run, List.map_map]
  refine congrArg _ (List.map_congr_left fun blocks hblocks => ?_)
  exact Grid.forM_block_eq_forM hfits
    (fun block hblock => Dispatch.lt_of_mem_lists (List.mem_flatten_of_mem hblocks hblock)) visit

/-- Visits that come to faults of their own, or to none, come to the first of these faults, and keep
the invariant that each of them keeps. -/
theorem Dispatch.runVisits_of_settles {fault? : Nat → Option Fault} {inv : σ → Prop} {m : σ}
    (hfits : g.Fits) (hsize : 0 < g.blockSize)
    (hvisit : ∀ i < g.elements, (visit i).Settles inv ((fault? i).elim (.ok ()) .error))
    (hinv : inv m) (d : Dispatch) :
    inv (d.runVisits g visit m).state ∧
      (d.runVisits g visit m).result = ((d.order g).findSome? fault?).elim (.ok ()) .error := by
  have hshared (shares : Shares) : inv ((Dispatch.shared shares).runVisits g visit m).state ∧
      ((Dispatch.shared shares).runVisits g visit m).result =
        (((Dispatch.shared shares).order g).findSome? fault?).elim (.ok ()) .error := by
    have hflatten : ((shares.lists g.blocks).map (List.flatMap g.order)).flatten =
        (Dispatch.shared shares).order g := by
      rw [Dispatch.order, ← List.flatMap_def, ← List.flatMap_id, List.flatMap_assoc]
      rfl
    have hvisits : ∀ i ∈ ((shares.lists g.blocks).map (List.flatMap g.order)).flatten,
        (visit i).Settles inv ((fault? i).elim (.ok ()) .error) := by
      rw [hflatten]
      intro i hi
      obtain ⟨block, -, hi⟩ := List.mem_flatMap.mp hi
      exact hvisit i (Grid.lt_elements_of_mem_order hsize hi)
    rw [Dispatch.runVisits_shared hfits, ← hflatten]
    exact Routine.together_of_visits hinv hvisits shares.schedule
  cases d with
  | shared shares => exact hshared shares
  | oneWorker =>
    -- one worker does what workers do who have its runs
    let block : Nat → Routine Op Answer Unit := g.block fun lane => do
      let indices ← Routine.ofExcept lane.indices
      indices.toList.forM visit
    have h := hshared (.ofOneWorker block m)
    rw [Dispatch.order_ofOneWorker] at h
    have hrun : Dispatch.oneWorker.runVisits g visit m = _ :=
      Dispatch.run_oneWorker g.blocks block m
    rw [hrun]
    exact h

/-- Visits in a single block are made in order, whoever has the block. -/
theorem Dispatch.runVisits_of_oneBlock (hfits : g.Fits) (hblocks : g.blocks = 1)
    (visit : Nat → Routine Op Answer Unit) (d : Dispatch) :
    (d.runVisits g visit : Action Fault σ Unit) =
      g.launchOrder.forM fun i => (visit i).perform := by
  have hshared (shares : Shares) : ((Dispatch.shared shares).runVisits g visit : Action Fault σ _) =
      g.launchOrder.forM fun i => (visit i).perform := by
    obtain ⟨before, after, hlists, hbefore, hafter⟩ := shares.exists_lists_one
    have hidle (lists : List (List Nat)) (h : ∀ blocks ∈ lists, blocks = []) :
        ∀ routine ∈ (lists.map (List.flatMap g.order)).map fun list => list.forM visit,
          routine = .done () := by
      intro routine hroutine
      rw [List.map_map] at hroutine
      obtain ⟨blocks, hmem, rfl⟩ := List.mem_map.mp hroutine
      rw [h blocks hmem]
      rfl
    have hall : [0].flatMap g.order = g.launchOrder := by
      rw [Grid.launchOrder, hblocks]
      rfl
    funext m
    rw [Dispatch.runVisits_shared hfits, hblocks, hlists, List.map_append, List.map_append,
      List.map_cons, List.map_cons, hall,
      Routine.together_of_alone (hidle before hbefore) (hidle after hafter), Routine.perform_forM]
  cases d with
  | shared shares => exact hshared shares
  | oneWorker =>
    funext m
    exact (Dispatch.run_oneWorker g.blocks _ m).trans (congrFun (hshared _) m)

end Visits

namespace Stream

variable [SharedMemory σ Op Answer]

/-- A launch leaves what its blocks leave, and it is counted unless they come to a fault. -/
theorem launchUnder_apply (d : Dispatch) (s : Stream) (g : Grid)
    (kernel : Lane → Routine Op Answer Unit) (m : σ) :
    (s.launchUnder d g kernel m).state =
        (d.run g.blocks (g.block kernel) m : Outcome Fault σ Unit).state ∧
      (s.launchUnder d g kernel m).result =
        (d.run g.blocks (g.block kernel) m).result.map
          fun _ => { s with launches := s.launches + 1 } := by
  rcases hrun : d.run g.blocks (g.block kernel) m with ⟨last, events, fault | _⟩
  · rw [launchUnder, Action.bind_apply_error _ hrun]
    exact ⟨rfl, rfl⟩
  · rw [launchUnder, Action.bind_apply_ok _ hrun]
    exact ⟨rfl, rfl⟩

/-- A launch whose visits come to faults of their own, or to none, comes to the first of these
faults, and keeps the invariant that the visits keep. -/
theorem launchUnder_of_visits {g : Grid} {visit : Nat → Routine Op Answer Unit}
    {fault? : Nat → Option Fault} {inv : σ → Prop} {m : σ} (hfits : g.Fits)
    (hsize : 0 < g.blockSize)
    (hvisit : ∀ i < g.elements, (visit i).Settles inv ((fault? i).elim (.ok ()) .error))
    (hinv : inv m) (d : Dispatch) (s : Stream) :
    let outcome := s.launchUnder d g (fun lane => do
      let indices ← Routine.ofExcept lane.indices
      indices.toList.forM visit) m
    inv outcome.state ∧
      outcome.result = ((d.order g).findSome? fault?).elim
        (.ok { s with launches := s.launches + 1 }) .error := by
  obtain ⟨hstate, hresult⟩ := Dispatch.runVisits_of_settles hfits hsize hvisit hinv d
  intro outcome
  obtain ⟨hlast, hanswer⟩ := s.launchUnder_apply d g _ m
  refine ⟨hlast ▸ hstate, hanswer.trans ((congrArg _ hresult).trans ?_)⟩
  cases (d.order g).findSome? fault? <;> rfl

/-- A launch of a single block visits the elements in order on one worker, whoever has the block. -/
theorem launchUnder_of_oneBlock {g : Grid} (hfits : g.Fits) (hblocks : g.blocks = 1)
    (visit : Nat → Routine Op Answer Unit) (d : Dispatch) (s : Stream) :
    s.launchUnder d g (fun lane => do
      let indices ← Routine.ofExcept lane.indices
      indices.toList.forM visit) = (do
        g.launchOrder.forM fun i => (visit i).perform
        Action.emit (.kernelLaunched s.device.context g.blocks g.blockSize g.elements)
        return { s with launches := s.launches + 1 } : Action Fault σ Stream) :=
  congrArg (· >>= _) (Dispatch.runVisits_of_oneBlock hfits hblocks visit d)

end Stream

end IdCompaction
