import IdCompaction.Proofs.Grid.Launch
import IdCompaction.Validation.Validator

/-!
# The sentinel check under any schedule

A block of the sentinel check makes no access and reports nothing, so it is at its end before it has
had a turn: it is done, or it stopped at the first of its elements that must not occur. Taking turns
therefore makes no difference to the check. If no element must not occur, the check goes well and is
counted, on several workers as on one.
-/

namespace IdCompaction

namespace Validation

variable {input : Array Id} {invalid : Id}

/-- Looking at an element stops if it must not occur, and is done at once if it may. -/
theorem refuseElement_of_lt {i : Nat} (h : i < input.size) :
    refuseElement input invalid i =
      if input[i] = invalid then .stop (.invalidValue invalid i) else .done () := by
  have helement : (elementAt input i : Routine Empty (fun _ => Unit) Id) = .done input[i] :=
    dif_pos h
  rw [refuseElement, helement, Routine.done_bind]
  rfl

/-- Looking at several elements stops at the first one that must not occur. -/
theorem forM_refuseElement {list : List Nat} (h : ∀ i ∈ list, i < input.size) :
    list.forM (refuseElement input invalid) =
      match list.find? fun i => input[i]? = some invalid with
      | some i => .stop (.invalidValue invalid i)
      | none => .done () := by
  induction list with
  | nil => rfl
  | cons i rest ih =>
    obtain ⟨hi, hrest⟩ := List.forall_mem_cons.mp h
    change (refuseElement input invalid i >>= fun _ => rest.forM (refuseElement input invalid)) = _
    rw [refuseElement_of_lt hi, ih hrest]
    by_cases hinvalid : input[i] = invalid
    · have hhead : input[i]? = some invalid := by rw [Array.getElem?_eq_getElem hi, hinvalid]
      rw [if_pos hinvalid, List.find?_cons_of_pos (by simpa using hhead)]
      rfl
    · have hhead : input[i]? ≠ some invalid := by
        rw [Array.getElem?_eq_getElem hi]
        exact fun heq => hinvalid (Option.some.inj heq)
      rw [if_neg hinvalid, List.find?_cons_of_neg (by simpa using hhead)]
      rfl

/-- Blocks that are done before they begin go well one after another. -/
theorem result_forM_perform_of_done {members : List (Routine Empty (fun _ => Unit) Unit)}
    (hdone : ∀ routine ∈ members, routine = .done ()) :
    (members.forM (Routine.perform : _ → Action Fault Unit Unit) ()).result = .ok () := by
  induction members with
  | nil => rfl
  | cons first rest ih =>
    obtain ⟨rfl, hrest⟩ := List.forall_mem_cons.mp hdone
    exact Action.result_seq_eq_ok_iff.mpr ⟨rfl, ih hrest⟩

end Validation

namespace Validator

variable {v : Validator} {stream : Stream} {input : Array Id} {invalid : Id} {g : Grid}

/-- Every block is done before it begins if no element must not occur. -/
theorem eq_done_of_absent (hgrid : v.grid input.size = .ok g) (hfits : g.Fits)
    (habsent : invalid ∉ input) : ∀ routine ∈ (List.range g.blocks).map
      (g.block (Validation.sentinelKernel input invalid)), routine = .done () := by
  obtain ⟨hsize, helements, -⟩ := Grid.elements_le_of_covering hgrid
  intro routine hroutine
  obtain ⟨block, hblock, rfl⟩ := List.mem_map.mp hroutine
  have hbound (i : Nat) (hi : i ∈ g.order block) : i < input.size :=
    helements ▸ Grid.lt_elements_of_mem_order hsize hi
  have hnone : (g.order block).find? (fun i => input[i]? = some invalid) = none := by
    rw [List.find?_eq_none]
    intro i _ heq
    exact habsent (Array.mem_of_getElem? (of_decide_eq_true heq))
  have hvisits := Grid.block_eq_forM hfits (List.mem_range.mp hblock)
    (Validation.refuseElement input invalid)
  rw [Validation.forM_refuseElement hbound, hnone] at hvisits
  exact hvisits

/-- A check of a batch in which no element must not occur goes well under every schedule. -/
theorem refuseSentinelUnder_of_absent (hgrid : v.grid input.size = .ok g) (hfits : g.Fits)
    (habsent : invalid ∉ input) (schedule : List Nat) :
    v.refuseSentinelUnder (.workerEach schedule) stream input invalid () =
      ⟨(), [.kernelLaunched stream.device.context g.blocks g.blockSize input.size],
        .ok { stream with launches := stream.launches + 1 }⟩ := by
  have hdone := eq_done_of_absent hgrid hfits habsent
  have htogether : Routine.together schedule ((List.range g.blocks).map
      (g.block (Validation.sentinelKernel input invalid))) () = ⟨(), [], .ok ()⟩ := by
    rw [Routine.together_of_forall_isFinished
        (fun routine hroutine => hdone routine hroutine ▸ rfl),
      forM_eq_ok_iff.mpr fun routine hroutine => hdone routine hroutine ▸ rfl]
  rw [← Dispatch.run_workerEach] at htogether
  rw [refuseSentinelUnder, Action.ofExcept_bind_apply hgrid, Stream.launchUnder,
    Action.bind_apply_silent _ htogether, (Grid.elements_le_of_covering hgrid).2.1]
  rfl

/-- Without any turns such a check is the one on one worker. -/
theorem refuseSentinelUnder_nil (hgrid : v.grid input.size = .ok g) (hfits : g.Fits)
    (habsent : invalid ∉ input) :
    v.refuseSentinelUnder (.workerEach []) stream input invalid () =
      v.refuseSentinel stream input invalid () := by
  rw [refuseSentinel, refuseSentinelUnder, refuseSentinelUnder, Action.ofExcept_bind_apply hgrid,
    Action.ofExcept_bind_apply hgrid]
  exact Stream.launchUnder_workerEach_nil stream g
    (Validation.result_forM_perform_of_done (eq_done_of_absent hgrid hfits habsent))

end Validator

end IdCompaction
