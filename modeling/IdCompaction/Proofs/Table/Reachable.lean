import IdCompaction.Proofs.Table.RaceEnd

/-!
# Reachable tables

A table is reachable if it was built and then went through any calls one after another: claims of
single IDs, batches, races of threads that claim IDs, and clearings, whether or not they met a
fault. A batch that several workers claim is a race of the runs that it is cut into. Between calls
every reachable table numbers some list, so what holds of every table that numbers a list holds
after every history.
-/

namespace IdCompaction.Table

variable {capacity : Nat} {t : Table capacity}

/-- The tables that any history of calls may leave, faults included. -/
inductive Reachable : Table capacity → Prop
  /-- A table that was just built. -/
  | built {σ : Type} {service : MemoryService σ} {context : Context} {s : σ} {t : Table capacity}
      (h : (allocate service context capacity s).result = .ok t) : Reachable t
  /-- After a claim. -/
  | insert {t : Table capacity} (h : Reachable t) (id : Id) : Reachable (Table.insert id t).state
  /-- After a batch. -/
  | insertAll {t : Table capacity} (h : Reachable t) (pool : Pool) (batch : Array Id) :
      Reachable (Table.insertAll pool batch t).state
  /-- After a race whose threads are all done. -/
  | race {t : Table capacity} (h : Reachable t) (lists : List (List Id)) (schedule : List Nat)
      (hfinished : ((Table.race t lists).follow schedule).IsFinished) :
      Reachable ((Table.race t lists).follow schedule).memory
  /-- After a clearing. -/
  | clear {t : Table capacity} (h : Reachable t) (pool : Pool) :
      Reachable (Table.clear pool t).state

/-- Between calls a table numbers a list. -/
theorem Reachable.numbers (h : Reachable t) : ∃ ids, t.Numbers ids := by
  induction h with
  | built h => exact ⟨[], numbers_of_allocate h⟩
  | insert _ id ih =>
    obtain ⟨ids, hids⟩ := ih
    exact hids.state_insert id
  | insertAll _ pool batch ih =>
    obtain ⟨ids, hids⟩ := ih
    exact hids.state_insertAll
  | race _ lists schedule hfinished ih =>
    obtain ⟨start, hstart⟩ := ih
    obtain ⟨numbered, workers, hunderway⟩ := Underway.follow hstart lists schedule
    obtain ⟨fresh, hends⟩ := hunderway.ends hstart hfinished
    exact ⟨start ++ fresh, hends.numbers⟩
  | clear _ pool ih =>
    obtain ⟨ids, hids⟩ := ih
    rw [hids.clear_eq pool]
    exact ⟨[], .of_showing _ hids.fits List.nodup_nil (by simp)⟩

end IdCompaction.Table
