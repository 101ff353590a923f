import IdCompaction.Proofs.Table.History
import IdCompaction.Proofs.Table.Interrupted
import IdCompaction.Proofs.Table.Reachable

/-!
# Batches that fault corrupt nothing

An ID past the capacity ends a claim before its first access, so a batch that meets one leaves no
claim half made. In a single run the claims before it are made and those after it are not. However
the batch is cut, it leaves the very table that a batch of some of its IDs leaves that meets no
fault, so everything that is called afterwards goes as after this one.
-/

namespace IdCompaction.Table

variable {capacity : Nat} {t last : Table capacity} {ids start fresh : List Id} {batch : Array Id}

/-! ## What a batch leaves -/

/-- Of a table that numbered `start`, claiming some IDs of a batch has left a table that also
numbers those in `fresh`. -/
structure GrownBy (t last : Table capacity) (batch : Array Id) (start fresh : List Id) :
    Prop where
  before : t.Numbers start
  /-- The local IDs are again the places of distinct IDs below the capacity. -/
  numbers : last.Numbers (start ++ fresh)
  presents : last.Presents (start ++ fresh)
  /-- The new IDs are those of the batch. -/
  fresh_mem : ∀ id ∈ fresh, id ∈ batch
  /-- What was claimed is still claimed. -/
  claimed_kept : ∀ id, t.isClaimed id → last.isClaimed id
  /-- What is claimed was claimed before, or is below the capacity and in the batch. -/
  claimed_mem : ∀ id, last.isClaimed id → t.isClaimed id ∨ id ∈ batch ∧ id.toNat < capacity
  /-- The slots of the IDs that were claimed before are as they were. -/
  slots_kept : ∀ (id : Id) (h : id.toNat < capacity), t.isClaimed id →
    last.slots.get ⟨id.toNat, h⟩ = t.slots.get ⟨id.toNat, h⟩
  /-- The owners of the local IDs that were handed out before are as they were. -/
  owners_kept : ∀ place : Fin capacity, place.val < t.numItems →
    last.owners.get place = t.owners.get place
  /-- A batch of exactly the new IDs leaves the same table. -/
  populated : ∀ pool, insertAll pool fresh.toArray t =
    ⟨last, [.populated fresh.length fresh.length (start ++ fresh).length], .ok ()⟩

/-- A table that has grown by IDs of a batch. -/
theorem Numbers.grownBy (h : t.Numbers start) (hlast : last.Numbers (start ++ fresh))
    (hcontents : last = t.showing (.settled (start ++ fresh)))
    (hfresh : ∀ id ∈ fresh, id ∈ batch) : GrownBy t last batch start fresh where
  before := h
  numbers := hlast
  presents := hlast.presents
  fresh_mem := hfresh
  claimed_kept id hid := by
    rw [h.isClaimed_eq, decide_eq_true_iff] at hid
    rw [hlast.isClaimed_eq, decide_eq_true_iff]
    exact List.mem_append_left fresh hid
  claimed_mem id hid := by
    rw [hlast.isClaimed_eq, decide_eq_true_iff] at hid
    rw [h.isClaimed_eq, decide_eq_true_iff]
    exact (List.mem_append.mp hid).imp_right fun hnew => ⟨hfresh id hnew, hlast.inRange id hid⟩
  slots_kept _ hid hclaimed := h.slots_get_of_append hlast hid hclaimed
  owners_kept _ hplace := h.owners_get_of_append hlast hplace
  populated pool := by
    have hinRange : ∀ id ∈ fresh.toArray, id.toNat < capacity := fun id hid =>
      hlast.inRange id (List.mem_append_right _ (List.mem_toArray.mp hid))
    rw [h.insertAll_eq hinRange, foldl_appendNew_of_nodup hlast.nodup, ← hcontents,
      List.length_append, Nat.add_sub_cancel_left]
    rfl

/-- A batch calls for IDs of its own only. -/
theorem mem_of_mem_calledIn {pool : Pool} {list : List Id} {id : Id}
    (h : id ∈ calledIn capacity pool list) : id ∈ list := by
  obtain ⟨run, -, hid⟩ := List.mem_flatMap.mp h
  obtain ⟨place, -, rfl⟩ := List.mem_map.mp (List.takeWhile_subset _ hid)
  exact list.get_mem place

/-- A batch on a pool grows the table by IDs that its runs call for, whether or not it faults. -/
theorem Numbers.grownBy_insertAll (h : t.Numbers ids) (pool : Pool) (batch : Array Id) :
    ∃ fresh, GrownBy t (insertAll pool batch t).state batch ids fresh := by
  let called := calledIn capacity pool batch.toList
  have hlast : (insertAll pool batch t).state = t.showing (.settled (called.foldl appendNew ids)) :=
    h.state_insertAll_eq pool batch
  have hnumbers : (insertAll pool batch t).state.Numbers (called.foldl appendNew ids) :=
    hlast ▸ h.foldl_append fun _ => toNat_lt_of_mem_calledIn
  rw [foldl_appendNew] at hlast hnumbers
  refine ⟨_, h.grownBy hnumbers hlast fun id hid => ?_⟩
  exact Array.mem_toList_iff.mp
    (mem_of_mem_calledIn (List.mem_of_mem_filter (List.mem_eraseDups.mp hid)))

/-! ## A single run -/

/-- Claims one after another end at the first ID past the capacity, with those before it made. -/
theorem Numbers.insertList_append_of_le (h : t.Numbers ids) {before : List Id} {bad : Id}
    (after : List Id) (hbefore : ∀ id ∈ before, id.toNat < capacity) (hbad : capacity ≤ bad.toNat) :
    insertList (before ++ bad :: after) t =
      ⟨t.showing (.settled (before.foldl appendNew ids)), [],
        .error (.idOutOfRange bad capacity)⟩ := by
  have hfault (s : Table capacity) :
      discard (insert bad) s = ⟨s, [], .error (.idOutOfRange bad capacity)⟩ := by
    rw [Action.discard_apply, insert_of_le s hbad]
    rfl
  exact Action.forM_append_cons_of_error after (h.insertList_eq hbefore) (hfault _)

/-- A batch that is not cut makes its claims one after another. -/
theorem claimLoop_of_lt {pool : Pool} {list : List Id} (hsingle : list.length / 2 < pool.minChunk) :
    (claimLoop pool list : Action Fault (Table capacity) Unit) = insertList list := by
  rw [claimLoop, Pool.forEach_of_lt hsingle]
  exact Action.forM_finRange_get list fun id => discard (insert id)

/-- The part of a batch before its first ID past the capacity has none. -/
theorem inRange_extract {k : Nat} (hk : k < batch.size)
    (hbefore : ∀ (i : Nat) (_ : i < batch.size), i < k → batch[i].toNat < capacity) :
    ∀ id ∈ batch.extract 0 k, id.toNat < capacity := by
  intro id hid
  obtain ⟨i, hi, rfl⟩ := Array.mem_iff_getElem.mp hid
  rw [Array.size_extract] at hi
  simpa using hbefore i (by omega) (by omega)

/-- A batch in a single run faults at its first ID past the capacity, and leaves the table that the
IDs before it leave. -/
theorem Numbers.insertAll_single_of_le (h : t.Numbers ids) {pool : Pool}
    (hsingle : batch.size / 2 < pool.minChunk) {k : Nat} (hk : k < batch.size)
    (hbad : capacity ≤ batch[k].toNat)
    (hbefore : ∀ (i : Nat) (_ : i < batch.size), i < k → batch[i].toNat < capacity) :
    insertAll pool batch t =
      ⟨(insertAll pool (batch.extract 0 k) t).state, [],
        .error (.idOutOfRange batch[k] capacity)⟩ := by
  have hprefix := inRange_extract hk hbefore
  have hsplit : batch.toList =
      (batch.extract 0 k).toList ++ batch[k] :: batch.toList.drop (k + 1) := by
    have hlt : k < batch.toList.length := hk
    rw [Array.toList_extract, List.extract_eq_take_drop, Nat.sub_zero, List.drop_zero,
      ← Array.getElem_toList, List.getElem_cons_drop, List.take_append_drop]
  have hloop := h.insertList_append_of_le (batch.toList.drop (k + 1))
    (fun id hid => hprefix id (Array.mem_toList_iff.mp hid)) hbad
  rw [← hsplit, ← claimLoop_of_lt hsingle] at hloop
  rw [insertAll_eq_claimLoop, claimAll_of_error hloop, h.insertAll_eq hprefix]

/-- A batch faults exactly if it has an ID past the capacity. -/
theorem Numbers.exists_fault_insertAll_iff (h : t.Numbers ids) (pool : Pool) (batch : Array Id) :
    (∃ fault, (insertAll pool batch t).result = .error fault) ↔
      ∃ id ∈ batch, capacity ≤ id.toNat := by
  have hok : (insertAll pool batch t).result = .ok () ↔ ∀ id ∈ batch, id.toNat < capacity := by
    rw [result_insertAll_eq_ok_iff, h.result_insertList_eq_ok_iff]
    simp only [Array.mem_toList_iff]
  rw [exists_eq_error_iff, ne_eq, hok]
  push Not
  rfl

end IdCompaction.Table
