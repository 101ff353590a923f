import IdCompaction.Proofs.Memory.Built
import IdCompaction.Proofs.Table.Reachable
import IdCompaction.Proofs.Table.Renaming
import IdCompaction.Proofs.Validation.Duplicates
import IdCompaction.Proofs.Validation.Sentinel

/-!
# Remapped batches pass validation

The list of owners of a reachable table has no duplicates, its entries are below the capacity, and
the vacant mark is not among them. So on a presence map as long as the capacity, with all flags
cleared, the duplicate check has nothing to report and the sentinel check nothing to stop at, in
whatever order the blocks make their accesses; and the flags that are marked afterwards are those of
the claimed IDs.
-/

namespace IdCompaction

namespace Presence

variable {length : Nat} {p : Presence length}

/-- Presence maps that a batch may be checked on. -/
inductive IsReady : Presence length → Prop
  /-- A map that was just allocated, on any stream. -/
  | allocated {σ : Type} {service : MemoryService σ} {stream : Stream} {s : σ}
      {p : Presence length} (h : (allocate service stream length s).result = .ok p) : IsReady p
  /-- A map that was cleared, whatever its flags were before. -/
  | cleared (p : Presence length) : IsReady p.clear

/-- No flag of such a map is marked. -/
theorem IsReady.get_eq_zero (h : p.IsReady) (place : Fin length) : p.get place = 0 := by
  cases h with
  | allocated h => exact (Except.ok.inj (Buffer.get_of_build h place)).symm
  | cleared p =>
    simp only [clear, clearFirst, Buffer.get, Fin.getElem_fin, Vector.getElem_mapFinIdx]
    exact if_pos place.isLt

end Presence

namespace Validator

variable {length : Nat} {v : Validator} {stream : Stream} {input : Array Id} {p : Presence length}
  {g : Grid}

/-- Both checks of a batch go well under a schedule: each is counted as one launch of its stream,
nothing is reported, and the marked flags are those of the batch. -/
structure Passes (v : Validator) (stream : Stream) (input : Array Id) (p : Presence length)
    (g : Grid) (schedule : List Nat) : Prop where
  /-- The duplicate check answers that it found nothing. -/
  duplicates : ∃ last : Presence length,
    v.countDuplicatesUnder (.workerEach schedule) stream input p =
      ⟨last, [.kernelLaunched stream.device.context g.blocks g.blockSize input.size],
        .ok (0, { stream with launches := stream.launches + 1 })⟩ ∧
    (∀ id ∈ input, ∀ h : id.toNat < length, last.get ⟨id.toNat, h⟩ = 1) ∧
    ∀ place : Fin length, (∀ id ∈ input, id.toNat ≠ place.val) → last.get place = 0
  /-- The check for the vacant mark goes well. -/
  sentinel : v.refuseSentinelUnder (.workerEach schedule) stream input vacant () =
    ⟨(), [.kernelLaunched stream.device.context g.blocks g.blockSize input.size],
      .ok { stream with launches := stream.launches + 1 }⟩

section Distinct

variable (hgrid : v.grid input.size = .ok g) (hfits : g.Fits)
  (hrange : ∀ value ∈ input, value.toNat < length)

include hgrid hfits hrange

/-- On cleared flags a duplicate check of distinct values reports nothing and marks the values. -/
theorem countDuplicatesUnder_of_nodup (hnodup : input.toList.Nodup)
    (hcleared : ∀ place, p.get place = 0) (schedule : List Nat) :
    ∃ last : Presence length, v.countDuplicatesUnder (.workerEach schedule) stream input p =
        ⟨last, [.kernelLaunched stream.device.context g.blocks g.blockSize input.size],
          .ok (0, { stream with launches := stream.launches + 1 })⟩ ∧
      (∀ id ∈ input, ∀ h : id.toNat < length, last.get ⟨id.toNat, h⟩ = 1) ∧
      ∀ place : Fin length, (∀ id ∈ input, id.toNat ≠ place.val) → last.get place = 0 := by
  let batch : Validation.Batch length := ⟨input, hrange⟩
  obtain ⟨hsize, helements, hcovers⟩ := Grid.elements_le_of_covering hgrid
  obtain ⟨m, events, walks, htogether, hwalking, hended⟩ :=
    Validation.Walking.exists_together p (Validation.blockLists batch g) schedule
  rw [← Validation.map_block_eq batch hsize helements hfits] at htogether
  have hchecked := Validation.checked_of_walking batch hsize helements hcovers hwalking hended
  have hfound : m.found = 0 := by
    have hle : m.found + (p.unmarked input.toList).length ≤ input.size := hchecked.found_le
    rw [p.unmarked_of_cleared hnodup hcleared fun value hvalue =>
      hrange value (Array.mem_toList_iff.mp hvalue), Array.length_toList] at hle
    omega
  have hsilent : events = [] := by
    obtain ⟨indices, -, hlength, hwarned⟩ := hchecked.warned
    rw [hfound, List.length_eq_zero_iff] at hlength
    rw [hlength] at hwarned
    exact hwarned.eq_nil
  have hoff (place : Fin length) (hplace : ∀ id ∈ input, id.toNat ≠ place.val) :
      m.presence.get place = 0 :=
    (hchecked.kept place hplace).trans (hcleared place)
  refine ⟨m.presence, ?_, hchecked.marked, hoff⟩
  rw [countDuplicatesUnder_of_together hgrid htogether, hfound, hsilent, helements]
  rfl

end Distinct

/-- After any history of a table, with any calls that met faults, the list of its owners passes both
checks on every stream and under every schedule, on a presence map as long as the capacity that was
just allocated or cleared. The marked flags are then those of the claimed IDs. Without any turns the
checks are those on one worker. -/
theorem remapped_batch_passes {capacity : Nat} {t : Table capacity} (h : t.Reachable)
    (v : Validator) (stream : Stream) {p : Presence capacity} (hp : p.IsReady)
    (hblock : 0 < v.config.blockSize.toNat) (htile : 0 < v.config.elementsPerBlock.toNat)
    (hfits : ∀ g, v.grid t.numItems = .ok g → g.Fits) :
    ∃ nodes g, t.ListsTo nodes ∧ v.grid nodes.size = .ok g ∧
      (∀ id, id ∈ nodes ↔ t.isClaimed id) ∧
      (∀ schedule, v.Passes stream nodes p g schedule) ∧
      v.countDuplicatesUnder (.workerEach []) stream nodes p = v.countDuplicates stream nodes p ∧
      v.refuseSentinelUnder (.workerEach []) stream nodes vacant () =
        v.refuseSentinel stream nodes vacant () := by
  obtain ⟨ids, hids⟩ := h.numbers
  obtain ⟨g, hgrid⟩ := exists_grid hblock htile ids.toArray.size
  have hrange : ∀ value ∈ ids.toArray, value.toNat < capacity := fun value hvalue =>
    hids.inRange value (List.mem_toArray.mp hvalue)
  have habsent : vacant ∉ ids.toArray := fun hvacant =>
    ne_vacant_of_lt (Nat.lt_of_lt_of_le (hrange vacant hvacant) hids.fits) rfl
  have hlanes : g.Fits := hfits g (hids.numItems_eq ▸ hgrid)
  refine ⟨ids.toArray, g, hids.listsTo, hgrid, fun id => ?_, fun schedule => ⟨?_, ?_⟩,
    countDuplicatesUnder_nil_of_inRange hgrid hlanes hrange,
    refuseSentinelUnder_nil hgrid hlanes habsent⟩
  · rw [hids.isClaimed_eq, decide_eq_true_iff, List.mem_toArray]
  · exact countDuplicatesUnder_of_nodup hgrid hlanes hrange hids.nodup hp.get_eq_zero schedule
  · exact refuseSentinelUnder_of_absent hgrid hlanes habsent schedule

/-- A table of four slots after a batch with an ID past the capacity, cut into two runs, checked by
blocks of two threads on a map that was cleared after a check that met a fault. -/
theorem remapped_batch_passes_four :
    ∃ (t : Table 4) (v : Validator) (stream : Stream) (p : Presence 4) (g : Grid),
      t.globalIds ⟨1, 1⟩ = .ok #[3, 1, 2] ∧
      (v.countDuplicates stream #[2, 7] p).result = .error (.beyondPresence 7 1 4) ∧
      ∀ schedule, v.Passes stream #[3, 1, 2]
        (v.countDuplicates stream #[2, 7] p).state.clear g schedule := by
  let host : MemoryService (HostMemory Arena) := HostMemory.service (Arena.heap 4096)
  obtain ⟨first, built, hnodes, hcount⟩ : ∃ first : Table 4,
      (Table.allocate host .cpu 4 (.fresh {})).result = .ok first ∧
      (Table.insertAll ⟨2, 1⟩ #[3, 9, 1, 2] first).state.globalIds ⟨1, 1⟩ = .ok #[3, 1, 2] ∧
      (Table.insertAll ⟨2, 1⟩ #[3, 9, 1, 2] first).state.numItems = 3 :=
    ⟨_, rfl, by decide +kernel, by decide +kernel⟩
  have h : Table.Reachable _ := (Table.Reachable.built built).insertAll ⟨2, 1⟩ #[3, 9, 1, 2]
  generalize hv : Validator.mk { blockSize := 2, elementsPerBlock := 2 } = v
  have hgrid : v.grid 3 = .ok ⟨2, 2, 2, 3⟩ := hv ▸ rfl
  have hfits (g : Grid) (hg : v.grid 3 = .ok g) : g.Fits := by
    obtain rfl := Except.ok.inj (hgrid.symm.trans hg)
    decide +kernel
  have haborted : (v.countDuplicates ⟨⟨.cpu, {}⟩, 0⟩ #[2, 7]
      (⟨.cpu, 4096, #v[0, 0, 0, 0]⟩ : Presence 4)).result = .error (.beyondPresence 7 1 4) :=
    hv ▸ by decide +kernel
  obtain ⟨nodes, g, hlists, hg, -, hpasses, -⟩ :=
    remapped_batch_passes h v ⟨⟨.cpu, {}⟩, 0⟩ (.cleared _) (hv ▸ by decide) (hv ▸ by decide)
      (hcount ▸ hfits)
  obtain rfl : nodes = #[3, 1, 2] :=
    Except.ok.inj ((hlists.globalIds ⟨1, 1⟩).symm.trans hnodes)
  exact ⟨_, v, _, _, g, hnodes, haborted, hpasses⟩

end Validator

end IdCompaction
