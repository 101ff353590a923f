import IdCompaction.Proofs.Grid.Launch
import IdCompaction.Proofs.Validation.Reports
import IdCompaction.Validation.Validator

/-!
# The duplicate check under any schedule

The blocks of a duplicate check read and mark flags in any interleaving. Whatever the schedule, the
check comes to its end, its answer is the number of its warnings, and it leaves the same flags. The
answer lies between two bounds that the schedule has no part in: every element of a tile beyond the
first of each unmarked value in it is reported, and no more are reported than there are elements
beyond the first of each unmarked value of the whole batch.
-/

namespace IdCompaction

namespace Validation

variable {length : Nat}

namespace Batch

variable (batch : Batch length)

/-- The elements of a batch at the indices in a list. -/
def indices (list : List Nat) : List batch.Index :=
  list.filterMap fun i => if h : i < batch.values.size then some ⟨i, h⟩ else none

variable {batch}

/-- Elements below the size of a batch are its places. -/
theorem map_val_indices {list : List Nat} (h : ∀ i ∈ list, i < batch.values.size) :
    (batch.indices list).map Fin.val = list := by
  induction list with
  | nil => rfl
  | cons i rest ih =>
    obtain ⟨hi, hrest⟩ := List.forall_mem_cons.mp h
    rw [indices, List.filterMap_cons, dif_pos hi]
    exact congrArg (i :: ·) (ih hrest)

/-- Visiting the indices of a list is walking over its elements. -/
theorem forM_markElement {list : List Nat} (h : ∀ i ∈ list, i < batch.values.size) :
    list.forM (markElement batch.values) =
      ((Walk.fresh (batch.indices list)).routine : Marking.Routine length Unit) := by
  conv_lhs => rw [← map_val_indices h]
  exact List.forM_map ..

/-- The values of some elements, by their indices. -/
theorem map_value_eq (list : List batch.Index) :
    list.map batch.value = (list.map Fin.val).map fun i => batch.values.getD i 0 := by
  rw [List.map_map]
  exact List.map_congr_left fun i _ => (Array.getElem_eq_getD 0)

/-- The values from one index to another are a part of the array. -/
theorem map_getD_range' (values : Array Id) {start stop : Nat} (h : stop ≤ values.size) :
    (List.range' start (stop - start)).map (fun i => values.getD i 0) =
      (values.extract start stop).toList := by
  apply List.ext_getElem
  · simp
    omega
  · intro i hi hi'
    have hlt : start + i < values.size := by
      simp at hi
      omega
    simp [Array.getD, hlt]

end Batch

/-- All places of an array have its values. -/
theorem map_valueAt_perm {input : Array Id} {order : List (Fin input.size)}
    (h : order.Perm (List.finRange input.size)) :
    (order.map (valueAt input)).Perm input.toList := by
  have hall : (List.finRange input.size).map (valueAt input) = input.toList := by
    apply List.ext_getElem <;> simp [valueAt]
  exact hall ▸ h.map _

section Blocks

variable (batch : Batch length) {g : Grid} (hsize : 0 < g.blockSize)
  (helements : g.elements = batch.values.size)

/-- The elements of a batch, block by block. -/
def blockLists (g : Grid) : List (List batch.Index) :=
  (List.range g.blocks).map fun block => batch.indices (g.order block)

include hsize helements

/-- The elements of a block are elements of the batch. -/
theorem lt_size_of_mem_order {block i : Nat} (hi : i ∈ g.order block) : i < batch.values.size :=
  helements ▸ Grid.lt_elements_of_mem_order hsize hi

/-- The blocks of a duplicate check walk over their elements. -/
theorem map_block_eq (hfits : g.Fits) :
    (List.range g.blocks).map
        (g.block (duplicateKernel batch.values : Lane → Marking.Routine length Unit)) =
      (blockLists batch g).map fun list => (Walk.fresh list).routine := by
  rw [blockLists, List.map_map]
  refine List.map_congr_left fun block hblock => ?_
  exact (Grid.block_eq_forM hfits (List.mem_range.mp hblock) _).trans
    (Batch.forM_markElement fun i => lt_size_of_mem_order batch hsize helements)

/-- The values of a block are those of its tile. -/
theorem map_value_order_perm (block : Nat) :
    ((batch.indices (g.order block)).map batch.value).Perm
      (batch.values.extract (g.tileStart block) (g.tileEnd block)).toList := by
  have hend : g.tileEnd block ≤ batch.values.size := helements ▸ Nat.min_le_right ..
  rw [Batch.map_value_eq, Batch.map_val_indices fun i => lt_size_of_mem_order batch hsize helements,
    ← Batch.map_getD_range' batch.values hend]
  exact (Grid.order_perm_tile hsize block).map _

/-- The blocks together have every element once. -/
theorem flatten_blockLists_perm (hcovers : g.elements ≤ g.blocks * g.tileSize) :
    (blockLists batch g).flatten.Perm (List.finRange batch.values.size) := by
  have horder : (blockLists batch g).flatten.map Fin.val = g.launchOrder := by
    rw [List.map_flatten, blockLists, List.map_map, ← List.flatMap_def]
    exact List.flatMap_congr fun block _ =>
      Batch.map_val_indices fun i => lt_size_of_mem_order batch hsize helements
  rw [← List.map_perm_map_iff fun _ _ => Fin.ext, horder, List.map_coe_finRange_eq_range,
    ← helements]
  exact Grid.launchOrder_perm hsize hcovers

/-- Of a tile, the elements beyond the first of each unmarked value are those of the block. -/
theorem length_tile_sub_unmarked (p : Presence length) (block : Nat) :
    (g.tile block).length - (p.unmarked
        (batch.values.extract (g.tileStart block) (g.tileEnd block)).toList).length =
      (batch.indices (g.order block)).length -
        (p.unmarked ((batch.indices (g.order block)).map batch.value)).length := by
  have hlength : (batch.indices (g.order block)).length = (g.tile block).length := by
    rw [← (Grid.order_perm_tile hsize block).length_eq]
    conv_rhs => rw [← Batch.map_val_indices fun i => lt_size_of_mem_order batch hsize helements]
    exact List.length_map .. |>.symm
  have hvalues := p.unmarked_perm (map_value_order_perm batch hsize helements block)
  rw [hlength, hvalues.length_eq]

end Blocks

/-- What a duplicate check of `input` leaves of a map that was `p`, if it answers `found` after the
warnings `warnings`. -/
structure Checked (g : Grid) (input : Array Id) (p : Presence length) (found : Nat)
    (warnings : List Event) (last : Presence length) : Prop where
  /-- There are no more reports than elements beyond the first of each unmarked value. -/
  found_le : found + (p.unmarked input.toList).length ≤ input.size
  /-- There are at least as many as there are in each tile. -/
  le_found : ((List.range g.blocks).map fun block =>
    (g.tile block).length - (p.unmarked
      (input.extract (g.tileStart block) (g.tileEnd block)).toList).length).sum ≤ found
  /-- Each report is a warning about an element of its own. -/
  warned : ∃ indices : List (Fin input.size), indices.Nodup ∧ indices.length = found ∧
    warnings.Perm (indices.map fun i : Fin input.size => .duplicateValue i input[i])
  /-- The flags of all values of the input are marked. -/
  marked : ∀ value ∈ input, ∀ h : value.toNat < length, last.get ⟨value.toNat, h⟩ = 1
  /-- All other flags are as they were. -/
  kept : ∀ place : Fin length, (∀ value ∈ input, value.toNat ≠ place.val) →
    last.get place = p.get place

/-- Blocks that walked over a whole batch and are done have checked it. -/
theorem checked_of_walking (batch : Batch length) {g : Grid} (hsize : 0 < g.blockSize)
    (helements : g.elements = batch.values.size) (hcovers : g.elements ≤ g.blocks * g.tileSize)
    {p : Presence length} {m : Marking length} {events : List Event} {walks : List (Walk batch)}
    (h : Walking p (blockLists batch g) m events walks) (hended : ∀ w ∈ walks, w.IsEnded) :
    Checked g batch.values p m.found events m.presence := by
  have hall := flatten_blockLists_perm batch hsize helements hcovers
  have hmem (i : batch.Index) : i ∈ (blockLists batch g).flatten :=
    hall.mem_iff.mpr (List.mem_finRange i)
  obtain ⟨hmarked, hkept⟩ := h.flags hended
  constructor
  · have hle := h.found_le hended
    have hvalues : ((blockLists batch g).flatten.map batch.value).Perm batch.values.toList :=
      map_valueAt_perm hall
    rw [(p.unmarked_perm hvalues).length_eq, hall.length_eq, List.length_finRange] at hle
    exact hle
  · rw [List.map_congr_left fun block _ => length_tile_sub_unmarked batch hsize helements p block]
    have hle := h.le_found hended
    rwa [blockLists, List.map_map] at hle
  · exact h.exists_warned hended (hall.nodup_iff.mpr (List.nodup_finRange _))
  · intro value hvalue hlt
    obtain ⟨i, hi, rfl⟩ := Array.mem_iff_getElem.mp hvalue
    exact hmarked ⟨i, hi⟩ (hmem ⟨i, hi⟩)
  · intro place hplace
    refine hkept place fun i _ heq => hplace _ (Array.getElem_mem i.isLt) ?_
    exact congrArg Fin.val heq

end Validation

namespace Validator

variable {length : Nat}

variable {v : Validator} {stream : Stream} {input : Array Id} {p : Presence length} {g : Grid}

/-- After a launch without a fault, the number of reports is the answer, and is reported itself if
there are any. -/
theorem count_of_ok {launch : Action Fault (Marking length) Stream} {start m : Marking length}
    {events : List Event} {counted : Stream} (size : Nat)
    (h : launch start = ⟨m, events, .ok counted⟩) :
    (do
      let stream ← launch
      let found ← Action.gets Marking.found
      if 0 < found then Action.emit (.duplicatesFound found size)
      return (found, stream) : Action Fault (Marking length) (Nat × Stream)) start =
      ⟨m, events ++ (if 0 < m.found then [.duplicatesFound m.found size] else []),
        .ok (m.found, counted)⟩ := by
  have hfound : (Action.gets Marking.found : Action Fault (Marking length) Nat) m =
      ⟨m, [], .ok m.found⟩ := rfl
  simp only [Action.bind_apply_ok _ h, Action.bind_apply_silent _ hfound]
  by_cases hsome : 0 < m.found
  · have hsum : (Action.emit (.duplicatesFound m.found size) :
        Action Fault (Marking length) Unit) m =
        ⟨m, [.duplicatesFound m.found size], .ok ()⟩ := rfl
    simp only [if_pos hsome, Action.bind_apply_ok _ hsum]
    rfl
  · simp only [if_neg hsome, Action.pure_apply]

/-- After a launch without a fault a duplicate check answers with the number of reports. -/
theorem countDuplicatesUnder_of_ok (hgrid : v.grid input.size = .ok g) {d : Dispatch}
    {m : Marking length} {events : List Event} {counted : Stream}
    (h : stream.launchUnder d g (Validation.duplicateKernel input) ⟨p, 0⟩ =
      ⟨m, events, .ok counted⟩) :
    v.countDuplicatesUnder d stream input p =
      ⟨m.presence, events ++ (if 0 < m.found then [.duplicatesFound m.found input.size] else []),
        .ok (m.found, counted)⟩ := by
  simp only [countDuplicatesUnder, Action.ofExcept_bind_apply hgrid, count_of_ok input.size h]

/-- What a check whose blocks meet no fault leaves and answers. -/
theorem countDuplicatesUnder_of_run {d : Dispatch} {m : Marking length} {events : List Event}
    (hgrid : v.grid input.size = .ok g)
    (h : d.run g.blocks (g.block (Validation.duplicateKernel input)) ⟨p, 0⟩ =
      ⟨m, events, .ok ()⟩) :
    v.countDuplicatesUnder d stream input p =
      ⟨m.presence,
        events ++ .kernelLaunched stream.device.context g.blocks g.blockSize g.elements ::
          (if 0 < m.found then [.duplicatesFound m.found input.size] else []),
        .ok (m.found, { stream with launches := stream.launches + 1 })⟩ := by
  have hlaunch : stream.launchUnder d g (Validation.duplicateKernel input) ⟨p, 0⟩ =
      ⟨m, events ++ [.kernelLaunched stream.device.context g.blocks g.blockSize g.elements],
        .ok { stream with launches := stream.launches + 1 }⟩ := by
    rw [Stream.launchUnder, Action.bind_apply_ok _ h]
    rfl
  rw [countDuplicatesUnder_of_ok hgrid hlaunch, List.append_assoc]
  rfl

/-- The same for a worker for each block. -/
theorem countDuplicatesUnder_of_together {schedule : List Nat} {m : Marking length}
    {events : List Event} (hgrid : v.grid input.size = .ok g)
    (h : Routine.together schedule
      ((List.range g.blocks).map (g.block (Validation.duplicateKernel input))) ⟨p, 0⟩ =
        ⟨m, events, .ok ()⟩) :
    v.countDuplicatesUnder (.workerEach schedule) stream input p =
      ⟨m.presence,
        events ++ .kernelLaunched stream.device.context g.blocks g.blockSize g.elements ::
          (if 0 < m.found then [.duplicatesFound m.found input.size] else []),
        .ok (m.found, { stream with launches := stream.launches + 1 })⟩ := by
  rw [← Dispatch.run_workerEach] at h
  exact countDuplicatesUnder_of_run hgrid h

/-- Without any turns, and without a fault, the check is the one on one worker. -/
theorem countDuplicatesUnder_nil (hgrid : v.grid input.size = .ok g)
    (h : (((List.range g.blocks).map (g.block (Validation.duplicateKernel input))).forM
      (Routine.perform : _ → Action Fault (Marking length) Unit) ⟨p, 0⟩).result = .ok ()) :
    v.countDuplicatesUnder (.workerEach []) stream input p =
      v.countDuplicates stream input p := by
  have hlaunch := Stream.launchUnder_workerEach_nil stream g h
  rw [Stream.launch] at hlaunch
  simp only [countDuplicates, countDuplicatesUnder, Action.ofExcept_bind_apply hgrid]
  rw [Action.bind_apply, Action.bind_apply, hlaunch]

/-- A duplicate check without any turns goes as on one worker if every value has a flag. -/
theorem countDuplicatesUnder_nil_of_inRange (hgrid : v.grid input.size = .ok g) (hfits : g.Fits)
    (hvalues : ∀ value ∈ input, value.toNat < length) :
    v.countDuplicatesUnder (.workerEach []) stream input p = v.countDuplicates stream input p := by
  let batch : Validation.Batch length := ⟨input, hvalues⟩
  obtain ⟨hsize, helements, -⟩ := Grid.elements_le_of_covering hgrid
  have hmembers := Validation.map_block_eq batch hsize helements hfits
  exact countDuplicatesUnder_nil hgrid (hmembers ▸ Validation.Walk.result_forM_perform_fresh _ _)

/-- A validator with sizes above zero has a grid for every number of elements. -/
theorem exists_grid (hblock : 0 < v.config.blockSize.toNat)
    (htile : 0 < v.config.elementsPerBlock.toNat) (elements : Nat) :
    ∃ g, v.grid elements = .ok g :=
  ⟨_, Grid.ofConfig_of_pos hblock htile elements⟩

/-- However the blocks' accesses are interleaved, a duplicate check whose lanes fit comes to its
end, with bounds on its answer that the schedule has no part in. On a cleared map distinct values
are never reported. The check on one worker is the one without any turns. -/
theorem duplicates_under_any_schedule {length : Nat} (v : Validator) (stream : Stream)
    (input : Array Id) (p : Presence length) (schedule : List Nat)
    (hblock : 0 < v.config.blockSize.toNat) (htile : 0 < v.config.elementsPerBlock.toNat)
    (hfits : ∀ g, v.grid input.size = .ok g → g.Fits)
    (hvalues : ∀ value ∈ input, value.toNat < length) :
    ∃ g found warnings last, v.grid input.size = .ok g ∧
      v.countDuplicatesUnder (.workerEach schedule) stream input p =
        ⟨last,
          warnings ++ .kernelLaunched stream.device.context g.blocks g.blockSize input.size ::
            (if 0 < found then [.duplicatesFound found input.size] else []),
          .ok (found, { stream with launches := stream.launches + 1 })⟩ ∧
      Validation.Checked g input p found warnings last ∧
      ((∀ place, p.get place = 0) → input.toList.Nodup → found = 0) ∧
      v.countDuplicatesUnder (.workerEach []) stream input p =
        v.countDuplicates stream input p := by
  let batch : Validation.Batch length := ⟨input, hvalues⟩
  obtain ⟨g, hgrid⟩ := exists_grid hblock htile input.size
  obtain ⟨hsize, helements, hcovers⟩ := Grid.elements_le_of_covering hgrid
  have hmembers := Validation.map_block_eq batch hsize helements (hfits g hgrid)
  -- the walks of the blocks tell what the check comes to, whatever the schedule
  obtain ⟨m, events, walks, htogether, hwalking, hended⟩ :=
    Validation.Walking.exists_together p (Validation.blockLists batch g) schedule
  rw [← hmembers] at htogether
  have hchecked := Validation.checked_of_walking batch hsize helements hcovers hwalking hended
  refine ⟨g, m.found, events, m.presence, hgrid, ?_, hchecked, fun hcleared hnodup => ?_, ?_⟩
  · rw [countDuplicatesUnder_of_together hgrid htogether, helements]
  · have hle : m.found + (p.unmarked input.toList).length ≤ input.size := hchecked.found_le
    have hall := p.unmarked_of_cleared hnodup hcleared fun value hvalue =>
      hvalues value (Array.mem_toList_iff.mp hvalue)
    rw [hall, Array.length_toList] at hle
    omega
  · exact countDuplicatesUnder_nil_of_inRange hgrid (hfits g hgrid) hvalues

/-- Two blocks of two threads check four elements on a cleared map of three flags. In turns, both
blocks read the flag of the first value before either of them marks it, and one element less is
reported than without any turns: both bounds are reached. -/
theorem duplicates_under_any_schedule_four :
    ∃ (v : Validator) (stream : Stream) (p : Presence 3),
      (∀ schedule, ∃ found warnings last,
        v.countDuplicatesUnder (.workerEach schedule) stream #[1, 2, 1, 1] p =
          ⟨last, warnings, .ok (found, { stream with launches := stream.launches + 1 })⟩ ∧
        1 ≤ found ∧ found ≤ 2) ∧
      (v.countDuplicatesUnder (.workerEach [0, 1]) stream #[1, 2, 1, 1] p).result =
        .ok (1, { stream with launches := stream.launches + 1 }) ∧
      (v.countDuplicatesUnder (.workerEach []) stream #[1, 2, 1, 1] p).result =
        .ok (2, { stream with launches := stream.launches + 1 }) := by
  refine ⟨⟨{ blockSize := 2, elementsPerBlock := 2 }⟩, ⟨⟨.cpu, {}⟩, 0⟩,
    ⟨.cpu, 4096, #v[0, 0, 0]⟩, fun schedule => ?_, by decide +kernel, by decide +kernel⟩
  generalize hp : (⟨.cpu, 4096, #v[0, 0, 0]⟩ : Presence 3) = p
  generalize hv : Validator.mk { blockSize := 2, elementsPerBlock := 2 } = v
  have hgrid : v.grid 4 = .ok ⟨2, 2, 2, 4⟩ := hv ▸ rfl
  have hfits : Grid.Fits ⟨2, 2, 2, 4⟩ := by
    intro block hblock thread hthread
    have hblocks : block = 0 ∨ block = 1 := by
      change block < 2 at hblock
      omega
    have hthreads : thread = 0 ∨ thread = 1 := by
      change thread < 2 at hthread
      omega
    rcases hblocks with rfl | rfl <;> rcases hthreads with rfl | rfl <;> exact ⟨_, rfl⟩
  obtain ⟨g, found, warnings, last, hg, hcheck, hchecked, -⟩ :=
    duplicates_under_any_schedule v ⟨⟨.cpu, {}⟩, 0⟩ #[1, 2, 1, 1] p schedule
      (hv ▸ by decide) (hv ▸ by decide) (fun g hg => Except.ok.inj (hgrid.symm.trans hg) ▸ hfits)
      (by simp)
  obtain rfl := Except.ok.inj (hgrid.symm.trans hg)
  have hall : (Presence.unmarked p [1, 2, 1, 1]).length = 2 := hp ▸ by decide +kernel
  have htiles : ((List.range 2).map fun block =>
      ((⟨2, 2, 2, 4⟩ : Grid).tile block).length - (Presence.unmarked p
        ((#[1, 2, 1, 1] : Array Id).extract ((⟨2, 2, 2, 4⟩ : Grid).tileStart block)
          ((⟨2, 2, 2, 4⟩ : Grid).tileEnd block)).toList).length).sum = 1 := hp ▸ by decide +kernel
  have hle : found + (Presence.unmarked p [1, 2, 1, 1]).length ≤ 4 := hchecked.found_le
  exact ⟨found, _, last, hcheck, htiles ▸ hchecked.le_found, by omega⟩

end Validator

end IdCompaction
