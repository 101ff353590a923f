import IdCompaction.Proofs.Grid.Dispatch
import IdCompaction.Proofs.Validation.Duplicates
import IdCompaction.Proofs.Validation.Scan

/-!
# The duplicate check on one worker

One worker visits the elements of a batch in the order of its launch, so it reports exactly the
elements whose values were marked or came up before in that order. Grids of other shapes have other
orders and report other elements. But every shape reports as many, namely one for each element
beyond the first of each unmarked value, and leaves the same map.
-/

namespace IdCompaction

namespace Presence

variable {length : Nat}

/-- The order in which values are marked makes no difference. -/
theorem markAll_perm (p : Presence length) {values values' : List Id} (h : values.Perm values') :
    p.markAll values = p.markAll values' :=
  eq_of_get rfl rfl fun place => by simp only [get_markAll, (h.map UInt32.toNat).mem_iff]

end Presence

namespace Validation

variable {length : Nat}

/-- Among some elements there is a repeat for each element beyond the first of each unmarked
value. -/
theorem length_repeats_add_unmarked (batch : Batch length) (p : Presence length)
    {list : List batch.Index} (hnodup : list.Nodup) :
    (repeats p batch.values list).length + (p.unmarked (list.map batch.value)).length =
      list.length := by
  obtain ⟨m, events, walks, htogether, hwalking, hended⟩ := Walking.exists_together p [list] []
  have hle := hwalking.found_le hended
  have hge := hwalking.le_found hended
  have hscan := forM_perform_markElement p 0 hnodup fun i _ =>
    batch.inRange _ (batch.value_mem i)
  rw [← Routine.perform_forM] at hscan
  rw [List.map_singleton, Routine.together_nil_singleton] at htogether
  have hfound : (repeats p batch.values list).length = m.found := by
    have hsame := congrArg (·.state.found) (hscan.symm.trans htogether)
    simpa using hsame
  simp only [List.flatten_singleton, List.map_singleton, List.sum_singleton] at hle hge
  omega

end Validation

namespace Validator

variable {length : Nat} {v : Validator} {stream : Stream} {input : Array Id} {p : Presence length}
  {g : Grid}

/-- The launches of a validator over that many elements have lanes without a fault. -/
structure Suits (v : Validator) (elements : Nat) : Prop where
  block : 0 < v.config.blockSize.toNat
  tile : 0 < v.config.elementsPerBlock.toNat
  fits : ∀ g, v.grid elements = .ok g → g.Fits

/-- What a duplicate check on one worker comes to, whose elements come in the order `order`. -/
structure CountsExactly (v : Validator) (stream : Stream) (input : Array Id) (p : Presence length)
    (g : Grid) (order : List (Fin input.size)) : Prop where
  /-- The order is the one in which the grid visits its elements. -/
  visits : g.visits = .ok (order.map Fin.val)
  /-- A lower tile comes before a higher one, then a lower thread, then an earlier turn. -/
  sorted : order.Pairwise fun i j : Fin input.size => g.rank i < g.rank j
  /-- There is a warning about each repeat in this order, and one about their number if there are
  any; their number is what the batch has beyond the distinct values that were not marked. -/
  outcome : v.countDuplicates stream input p =
    ⟨p.markAll input.toList,
      (Validation.repeats p input order).map (Validation.warningAt input) ++
        .kernelLaunched stream.device.context g.blocks g.blockSize input.size ::
        (if 0 < input.size - (p.unmarked input.toList).length then
          [.duplicatesFound (input.size - (p.unmarked input.toList).length) input.size] else []),
      .ok (input.size - (p.unmarked input.toList).length,
        { stream with launches := stream.launches + 1 })⟩

/-- A check whose lanes fit and whose values all have flags counts exactly. -/
theorem countsExactly (hgrid : v.grid input.size = .ok g) (hfits : g.Fits)
    (hvalues : ∀ value ∈ input, value.toNat < length) (stream : Stream) (p : Presence length) :
    ∃ order, v.CountsExactly stream input p g order := by
  obtain ⟨hsize, helements, hcovers⟩ := Grid.elements_le_of_covering hgrid
  obtain ⟨order, hval, hperm⟩ := Grid.exists_places_launchOrder hsize hcovers helements
  have hrange (i : Fin input.size) : (Validation.valueAt input i).toNat < length :=
    hvalues _ (Validation.valueAt_mem input i)
  have hnodup : order.Nodup := hperm.nodup_iff.mpr (List.nodup_finRange _)
  -- the launch is the plain loop over the elements in their order
  have hscan : (g.launchOrder.forM fun i =>
      ((Validation.markElement input i).perform : Action Fault (Marking length) Unit)) ⟨p, 0⟩ = _ :=
    calc
      _ = (order.forM fun i => (Validation.markElement input i).perform) ⟨p, 0⟩ :=
        hval ▸ congrFun (List.forM_map ..) _
      _ = _ := Validation.forM_perform_markElement p 0 hnodup fun i _ => hrange i
  have hblocks := Grid.together_nil_blocks hfits (by rw [hscan])
  rw [hscan] at hblocks
  have hall := Validation.map_valueAt_perm hperm
  have hcount : 0 + (Validation.repeats p input order).length =
      input.size - (p.unmarked input.toList).length := by
    have hsplit : (Validation.repeats p input order).length +
        (p.unmarked (order.map (Validation.valueAt input))).length = order.length :=
      Validation.length_repeats_add_unmarked ⟨input, hvalues⟩ p hnodup
    have hlength : order.length = input.size := hperm.length_eq.trans (List.length_finRange ..)
    rw [(p.unmarked_perm hall).length_eq] at hsplit
    omega
  refine ⟨order, hval ▸ Grid.visits_eq_launchOrder hfits, ?_, ?_⟩
  · have hsorted := g.pairwise_rank_launchOrder
    rwa [← hval, List.pairwise_map] at hsorted
  · rw [← countDuplicatesUnder_nil_of_inRange hgrid hfits hvalues,
      countDuplicatesUnder_of_together hgrid hblocks, p.markAll_perm hall, hcount, helements]

/-- On one worker the duplicate count is exact and the same for every shape of grid: it is what the
batch has beyond the distinct values whose flags were zero. Two validators of different shapes
answer the same and leave the same map, though they may warn about different elements. -/
theorem duplicates_counted_exactly {length : Nat} (v : Validator) (stream : Stream)
    (input : Array Id) (p : Presence length) (hv : v.Suits input.size)
    (hvalues : ∀ value ∈ input, value.toNat < length) :
    (∃ g order, v.grid input.size = .ok g ∧ g.tileSize = v.config.elementsPerBlock.toNat ∧
        g.blockSize = v.config.blockSize.toNat ∧ v.CountsExactly stream input p g order) ∧
      ∀ (w : Validator) (stream' : Stream), w.Suits input.size →
        (w.countDuplicates stream' input p).state = (v.countDuplicates stream input p).state ∧
        (w.countDuplicates stream' input p).result.map Prod.fst =
          (v.countDuplicates stream input p).result.map Prod.fst := by
  have hexact (w : Validator) (stream' : Stream) (hw : w.Suits input.size) :
      ∃ g order, w.grid input.size = .ok g ∧ g.tileSize = w.config.elementsPerBlock.toNat ∧
        g.blockSize = w.config.blockSize.toNat ∧ w.CountsExactly stream' input p g order := by
    have hgrid : w.grid input.size = _ := Grid.ofConfig_of_pos hw.block hw.tile input.size
    obtain ⟨order, hcounts⟩ := countsExactly hgrid (hw.fits _ hgrid) hvalues stream' p
    exact ⟨_, order, hgrid, rfl, rfl, hcounts⟩
  refine ⟨hexact v stream hv, fun w stream' hw => ?_⟩
  obtain ⟨_, _, _, _, _, hone⟩ := hexact v stream hv
  obtain ⟨_, _, _, _, _, hother⟩ := hexact w stream' hw
  rw [hone.outcome, hother.outcome]
  exact ⟨rfl, rfl⟩

/-- Two threads on tiles of four and one thread on tiles of two warn about different elements of a
batch in which one value was marked and another one comes three times. -/
theorem duplicates_counted_exactly_five :
    ∃ (v w : Validator) (stream : Stream) (p : Presence 4),
      (∃ g order, v.CountsExactly stream #[2, 1, 2, 3, 2] p g order ∧ order = [0, 2, 1, 3, 4] ∧
        Validation.repeats p #[2, 1, 2, 3, 2] order = [2, 1, 4]) ∧
      (∃ g order, w.CountsExactly stream #[2, 1, 2, 3, 2] p g order ∧ order = [0, 1, 2, 3, 4] ∧
        Validation.repeats p #[2, 1, 2, 3, 2] order = [1, 2, 4]) ∧
      (w.countDuplicates stream #[2, 1, 2, 3, 2] p).state =
        (v.countDuplicates stream #[2, 1, 2, 3, 2] p).state := by
  generalize hv : Validator.mk { blockSize := 2, elementsPerBlock := 4 } = v
  generalize hw : Validator.mk { blockSize := 1, elementsPerBlock := 2 } = w
  generalize hp : (⟨.cpu, 4096, #v[0, 7, 0, 0]⟩ : Presence 4) = p
  have hgridv : v.grid 5 = .ok ⟨2, 2, 4, 5⟩ := hv ▸ rfl
  have hgridw : w.grid 5 = .ok ⟨3, 1, 2, 5⟩ := hw ▸ rfl
  have hsuitsv : v.Suits 5 := by
    refine ⟨hv ▸ by decide, hv ▸ by decide, fun g hg => ?_⟩
    exact Except.ok.inj (hgridv.symm.trans hg) ▸ by decide +kernel
  have hsuitsw : w.Suits 5 := by
    refine ⟨hw ▸ by decide, hw ▸ by decide, fun g hg => ?_⟩
    exact Except.ok.inj (hgridw.symm.trans hg) ▸ by decide +kernel
  have hvalues : ∀ value ∈ (#[2, 1, 2, 3, 2] : Array Id), value.toNat < 4 := by simp
  obtain ⟨⟨g, order, hg, -, -, hcounts⟩, hsame⟩ :=
    duplicates_counted_exactly v ⟨⟨.cpu, {}⟩, 0⟩ #[2, 1, 2, 3, 2] p hsuitsv hvalues
  obtain ⟨⟨g', order', hg', -, -, hcounts'⟩, -⟩ :=
    duplicates_counted_exactly w ⟨⟨.cpu, {}⟩, 0⟩ #[2, 1, 2, 3, 2] p hsuitsw hvalues
  obtain rfl := Except.ok.inj (hgridv.symm.trans hg)
  obtain rfl := Except.ok.inj (hgridw.symm.trans hg')
  obtain rfl : order = [0, 2, 1, 3, 4] :=
    List.map_injective_iff.mpr (fun _ _ => Fin.ext) (Except.ok.inj (hcounts.visits.symm.trans rfl))
  obtain rfl : order' = [0, 1, 2, 3, 4] :=
    List.map_injective_iff.mpr (fun _ _ => Fin.ext) (Except.ok.inj (hcounts'.visits.symm.trans rfl))
  exact ⟨v, w, _, p, ⟨_, _, hcounts, rfl, hp ▸ by decide +kernel⟩,
    ⟨_, _, hcounts', rfl, hp ▸ by decide +kernel⟩, (hsame w _ hsuitsw).1⟩

end Validator

end IdCompaction
