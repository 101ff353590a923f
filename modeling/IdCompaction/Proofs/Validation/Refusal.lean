import IdCompaction.Proofs.Grid.Dispatch
import IdCompaction.Proofs.Validation.Sentinel

/-!
# What a sentinel check refuses

A sentinel check goes well exactly if no element must not occur, however a device dispatches its
launch: the elements of all blocks together are those of the batch, and no element is looked at
twice. Which element a refusal names depends on the order. One worker names the one of least rank,
which is not the least one once a thread has a second element before another thread has its first.
-/

namespace IdCompaction

namespace Validation

variable {input : Array Id} {invalid : Id}

/-- The fault at an element, if it must not occur. -/
def refusal? (input : Array Id) (invalid : Id) (i : Nat) : Option Fault :=
  if input[i]? = some invalid then some (.invalidValue invalid i) else none

/-- Looking at an element comes to its own fault. -/
theorem settles_refuseElement {i : Nat} (h : i < input.size) :
    (refuseElement input invalid i).Settles (fun _ : Unit => True)
      ((refusal? input invalid i).elim (.ok ()) .error) := by
  rw [refuseElement_of_lt h, refusal?, Array.getElem?_eq_getElem h]
  by_cases hinvalid : input[i] = invalid
  · rw [if_pos hinvalid, if_pos (congrArg some hinvalid)]
    rfl
  · rw [if_neg hinvalid, if_neg fun heq => hinvalid (Option.some.inj heq)]
    rfl

/-- The first fault among some elements is at the first one that must not occur. -/
theorem findSome?_refusal? (list : List Nat) :
    list.findSome? (refusal? input invalid) =
      (list.find? fun i => input[i]? = some invalid).map (.invalidValue invalid) := by
  rw [← List.findSome?_guard, List.map_findSome?]
  refine congrArg (list.findSome? ·) (funext fun i => ?_)
  rw [refusal?, Function.comp_apply, Option.guard]
  split <;> simp_all

end Validation

namespace Validator

variable {v : Validator} {stream : Stream} {input : Array Id} {invalid : Id} {g : Grid}

/-- A sentinel check names the first element that must not occur in the order of its dispatch. -/
theorem result_refuseSentinelUnder (hgrid : v.grid input.size = .ok g) (hfits : g.Fits)
    (d : Dispatch) (stream : Stream) (invalid : Id) :
    (v.refuseSentinelUnder d stream input invalid ()).result =
      (((d.order g).find? fun i => input[i]? = some invalid).map (.invalidValue invalid)).elim
        (.ok { stream with launches := stream.launches + 1 }) .error := by
  obtain ⟨hsize, helements, -⟩ := Grid.elements_le_of_covering hgrid
  have hvisit : ∀ i < g.elements, (Validation.refuseElement input invalid i).Settles
      (fun _ => True) ((Validation.refusal? input invalid i).elim (.ok ()) .error) :=
    fun i hi => Validation.settles_refuseElement (helements ▸ hi)
  rw [refuseSentinelUnder, Action.ofExcept_bind_apply hgrid, ← Validation.findSome?_refusal?]
  exact (Stream.launchUnder_of_visits hfits hsize hvisit trivial d stream).2

/-- What a sentinel check comes to. -/
structure RefusesExactly (v : Validator) (stream : Stream) (g : Grid) (input : Array Id)
    (invalid : Id) : Prop where
  /-- However it is dispatched, the check goes well, and is counted, exactly if no element must not
  occur. -/
  ok_iff : ∀ d, (v.refuseSentinelUnder d stream input invalid ()).result =
    .ok { stream with launches := stream.launches + 1 } ↔ invalid ∉ input
  /-- Otherwise it is a fault. -/
  error_iff : ∀ d, (∃ fault, (v.refuseSentinelUnder d stream input invalid ()).result =
    .error fault) ↔ invalid ∈ input
  /-- A fault names an element that must not occur. -/
  named : ∀ d fault, (v.refuseSentinelUnder d stream input invalid ()).result = .error fault →
    ∃ i, fault = .invalidValue invalid i ∧ input[i]? = some invalid
  /-- One worker makes the check as a dispatch of its own. -/
  oneWorker : v.refuseSentinelUnder .oneWorker stream input invalid =
    v.refuseSentinel stream input invalid
  /-- One worker names the element of least rank. -/
  first : ∀ i, (v.refuseSentinel stream input invalid ()).result =
      .error (.invalidValue invalid i) ↔
    input[i]? = some invalid ∧ ∀ j, input[j]? = some invalid → j ≠ i → g.rank i < g.rank j

/-- The elements that must not occur are found in every order of all elements. -/
theorem find?_eq_none_iff {list : List Nat} (hperm : list.Perm (List.range input.size)) :
    list.find? (fun i => input[i]? = some invalid) = none ↔ invalid ∉ input := by
  simp only [List.find?_eq_none, hperm.mem_iff, List.mem_range, decide_eq_true_eq]
  constructor
  · intro h hmem
    obtain ⟨i, hi, heq⟩ := Array.mem_iff_getElem.mp hmem
    exact h i hi (heq ▸ Array.getElem?_eq_getElem hi)
  · exact fun h i _ heq => h (Array.mem_of_getElem? heq)

/-- The first element of a launch that must not occur is the one of least rank. -/
theorem find?_launchOrder_eq_some_iff (hgrid : v.grid input.size = .ok g) {i : Nat} :
    g.launchOrder.find? (fun i => input[i]? = some invalid) = some i ↔
      input[i]? = some invalid ∧
        ∀ j, input[j]? = some invalid → j ≠ i → g.rank i < g.rank j := by
  obtain ⟨hsize, helements, hcovers⟩ := Grid.elements_le_of_covering hgrid
  have hmem (j : Nat) (hj : input[j]? = some invalid) : j ∈ g.launchOrder := by
    rw [(Grid.launchOrder_perm hsize hcovers).mem_iff, List.mem_range, helements]
    exact (Array.getElem?_eq_some_iff.mp hj).1
  simp only [find?_eq_some_iff_of_pairwise g.pairwise_rank_launchOrder, decide_eq_true_eq]
  constructor
  · rintro ⟨-, hi, hleast⟩
    exact ⟨hi, fun j hj => hleast j (hmem j hj) hj⟩
  · rintro ⟨hi, hleast⟩
    exact ⟨hmem i hi, hi, fun j _ => hleast j⟩

/-- A sentinel check whose lanes fit refuses exactly the batches in which an element must not
occur. -/
theorem refusesExactly (hgrid : v.grid input.size = .ok g) (hfits : g.Fits) (stream : Stream)
    (invalid : Id) : v.RefusesExactly stream g input invalid := by
  obtain ⟨hsize, helements, hcovers⟩ := Grid.elements_le_of_covering hgrid
  have hresult := fun d => result_refuseSentinelUnder hgrid hfits d stream invalid
  have hperm (d : Dispatch) : (d.order g).Perm (List.range input.size) :=
    helements ▸ d.order_perm hsize hcovers
  constructor
  case ok_iff =>
    intro d
    rw [hresult, ← find?_eq_none_iff (hperm d)]
    cases (d.order g).find? fun i => input[i]? = some invalid <;> simp
  case error_iff =>
    intro d
    rw [hresult, ← not_iff_not, ← find?_eq_none_iff (hperm d)]
    cases (d.order g).find? fun i => input[i]? = some invalid <;> simp
  case named =>
    intro d fault
    rw [hresult]
    cases hfind : (d.order g).find? fun i => input[i]? = some invalid with
    | none => simp
    | some i =>
      rintro ⟨⟩
      exact ⟨i, rfl, by simpa using List.find?_some hfind⟩
  case oneWorker => rfl
  case first =>
    intro i
    rw [refuseSentinel, hresult, Dispatch.order,
      ← find?_launchOrder_eq_some_iff hgrid]
    cases g.launchOrder.find? fun i => input[i]? = some invalid <;> simp

/-- In a single tile, the second element of the first thread comes before the other threads. -/
theorem rank_blockSize_lt_rank {blockSize tileSize i : Nat} (htile : blockSize < tileSize)
    (hpos : 0 < i) (hi : i < blockSize) :
    (⟨1, blockSize, tileSize, blockSize + 1⟩ : Grid).rank blockSize <
      (⟨1, blockSize, tileSize, blockSize + 1⟩ : Grid).rank i := by
  have hsame : blockSize / tileSize = i / tileSize := by
    rw [Nat.div_eq_of_lt htile, Nat.div_eq_of_lt (hi.trans htile)]
  have hthread : blockSize % tileSize % blockSize < i % tileSize % blockSize := by
    rw [Nat.mod_eq_of_lt htile, Nat.mod_self, Nat.mod_eq_of_lt (hi.trans htile),
      Nat.mod_eq_of_lt hi]
    exact hpos
  exact Prod.Lex.toLex_lt_toLex.mpr (.inr ⟨hsame, Prod.Lex.toLex_lt_toLex.mpr (.inl hthread)⟩)

/-- One element more than a block has threads, all of them invalid but the first. -/
def allButFirst (v : Validator) (invalid : Id) : Array Id :=
  Array.ofFn fun i : Fin (v.config.blockSize.toNat + 1) =>
    if i.val = 0 then invalid + 1 else invalid

/-- The value stands at every place but the first, up to the block size. -/
theorem getElem?_allButFirst (v : Validator) (invalid : Id) (i : Nat) :
    (v.allButFirst invalid)[i]? = some invalid ↔ 0 < i ∧ i ≤ v.config.blockSize.toNat := by
  have hne : invalid + 1 ≠ invalid := by simp
  by_cases hi : i < v.config.blockSize.toNat + 1
  · simp [allButFirst, hi, Nat.pos_iff_ne_zero]
    omega
  · simp [allButFirst, hi]
    omega

/-- Where the first thread has two elements of a tile, one worker does not always name the least
element that must not occur. -/
theorem result_refuseSentinel_allButFirst (hblock : 1 < v.config.blockSize.toNat)
    (htile : v.config.blockSize.toNat < v.config.elementsPerBlock.toNat) (stream : Stream)
    (invalid : Id) :
    (v.refuseSentinel stream (v.allButFirst invalid) invalid ()).result =
      .error (.invalidValue invalid v.config.blockSize.toNat) := by
  have hblocks : (v.config.blockSize.toNat + 1 + (v.config.elementsPerBlock.toNat - 1)) /
      v.config.elementsPerBlock.toNat = 1 := by
    refine Nat.div_eq_of_lt_le ?_ ?_ <;> omega
  have hgrid : v.grid (v.allButFirst invalid).size =
      .ok ⟨1, v.config.blockSize.toNat, v.config.elementsPerBlock.toNat,
        v.config.blockSize.toNat + 1⟩ := by
    rw [grid, Grid.ofConfig_of_pos (by omega) (by omega), allButFirst, Array.size_ofFn, hblocks]
  have hfits : Grid.Fits ⟨1, v.config.blockSize.toNat, v.config.elementsPerBlock.toNat,
      v.config.blockSize.toNat + 1⟩ := by
    have htiles : v.config.elementsPerBlock.toNat < Size.limit :=
      v.config.elementsPerBlock.toNat_lt
    apply Grid.fits_of_lt <;> simp <;> omega
  refine ((refusesExactly hgrid hfits stream invalid).first _).mpr ⟨?_, fun j hj hne => ?_⟩
  · rw [getElem?_allButFirst]
    omega
  · rw [getElem?_allButFirst] at hj
    exact rank_blockSize_lt_rank htile hj.1 (by omega)

/-- For every shape of grid, a sentinel check whose lanes fit refuses exactly the batches in which
an element must not occur, and one worker names the element of least rank. Where the threads of a
block have more than one element, that need not be the least element that must not occur. -/
theorem sentinel_refused_exactly (v : Validator) (stream : Stream) (invalid : Id)
    (hblock : 0 < v.config.blockSize.toNat) (htile : 0 < v.config.elementsPerBlock.toNat) :
    (∀ input : Array Id, (∀ g, v.grid input.size = .ok g → g.Fits) →
        ∃ g, v.grid input.size = .ok g ∧ g.tileSize = v.config.elementsPerBlock.toNat ∧
          g.blockSize = v.config.blockSize.toNat ∧ v.RefusesExactly stream g input invalid) ∧
      (1 < v.config.blockSize.toNat →
        v.config.blockSize.toNat < v.config.elementsPerBlock.toNat →
        ∃ (input : Array Id) (i j : Nat), j < i ∧ input[j]? = some invalid ∧
          (v.refuseSentinel stream input invalid ()).result =
            .error (.invalidValue invalid i)) := by
  constructor
  · intro input hfits
    have hgrid : v.grid input.size = _ := Grid.ofConfig_of_pos hblock htile input.size
    exact ⟨_, hgrid, rfl, rfl, refusesExactly hgrid (hfits _ hgrid) stream invalid⟩
  · intro hthreads hturns
    refine ⟨v.allButFirst invalid, v.config.blockSize.toNat, 1, hthreads, ?_,
      result_refuseSentinel_allButFirst hthreads hturns stream invalid⟩
    rw [getElem?_allButFirst]
    omega

/-- Two threads on tiles of four: the second turn of the first thread comes before the first turn of
the second thread, so the third element is named and not the second. -/
theorem sentinel_refused_exactly_four :
    ∃ (v : Validator) (stream : Stream),
      (∀ d, ∃ fault, (v.refuseSentinelUnder d stream #[7, 9, 9, 7, 9, 9] 9 ()).result =
        .error fault) ∧
      (∀ d, (v.refuseSentinelUnder d stream #[7, 9, 9, 7, 9, 9] 8 ()).result =
        .ok { stream with launches := stream.launches + 1 }) ∧
      (v.refuseSentinel stream #[7, 9, 9, 7, 9, 9] 9 ()).result = .error (.invalidValue 9 2) := by
  generalize hv : Validator.mk { blockSize := 2, elementsPerBlock := 4 } = v
  have hgrid : v.grid 6 = .ok ⟨2, 2, 4, 6⟩ := hv ▸ rfl
  have hfits : ∀ g, v.grid 6 = .ok g → g.Fits := by
    intro g hg
    rw [← Except.ok.inj (hgrid.symm.trans hg)]
    decide +kernel
  have hexact (invalid : Id) := (sentinel_refused_exactly v ⟨⟨.cpu, {}⟩, 0⟩ invalid
    (hv ▸ by decide) (hv ▸ by decide)).1 #[7, 9, 9, 7, 9, 9] hfits
  refine ⟨v, ⟨⟨.cpu, {}⟩, 0⟩, fun d => ?_, fun d => ?_, hv ▸ by decide +kernel⟩
  · obtain ⟨g, -, -, -, h⟩ := hexact 9
    exact (h.error_iff d).mpr (by simp)
  · obtain ⟨g, -, -, -, h⟩ := hexact 8
    exact (h.ok_iff d).mpr (by simp)

end Validator

end IdCompaction
