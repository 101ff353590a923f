import IdCompaction.Proofs.Table.History
import IdCompaction.Proofs.Table.Interrupted
import IdCompaction.Proofs.Table.Relabel

/-!
# Where tables come from

A table descends from another one if a history of calls leads from the one to the other: claims of
single IDs, batches on any pool, races of threads, reads of every kind, and clearings, whether or
not they end at a fault. The lineage keeps the IDs that the calls since the last clearing have
claimed: those that each thread or run called for before the first ID past the capacity. A table
that descends from an empty one numbers exactly these IDs, in the arrays of the empty one.

Reads are made with accesses to the table itself, so that they leave it as it is has to be proved.
-/

namespace IdCompaction

/-- Putting IDs at the end of a list adds them and nothing else. -/
theorem mem_foldl_appendNew {ids more : List Id} {id : Id} :
    id ∈ more.foldl appendNew ids ↔ id ∈ ids ∨ id ∈ more := by
  rw [foldl_appendNew, List.mem_append, List.mem_eraseDups, List.mem_filter]
  by_cases hmem : id ∈ ids <;> simp [hmem]

namespace Table

variable {capacity : Nat} {t : Table capacity} {ids : List Id}

/-! ## Reads leave the table as it is -/

/-- An access that changes nothing. -/
def Access.isRead : Access capacity → Bool
  | .readClaim _ => true
  | .readLocal _ => true
  | .readOwner _ => true
  | .readCount => true
  | _ => false

/-- A routine all of whose accesses are reads. -/
def ReadsOnly {α : Type} : Routine capacity α → Prop
  | .done _ => True
  | .stop _ => True
  | .report _ next => ReadsOnly next
  | .access op next => op.isRead = true ∧ ∀ answer, ReadsOnly (next answer)

/-- A reading access leaves the table as it is. -/
theorem Access.apply_of_isRead {op : Access capacity} (h : op.isRead = true) (t : Table capacity) :
    (op.apply t).2 = t := by
  cases op with
  | readClaim slot => rfl
  | readLocal slot => rfl
  | readOwner place => rfl
  | readCount => rfl
  | claim slot id => cases h
  | takeNumber => cases h
  | writeLocal slot number => cases h
  | writeOwner place id => cases h

/-- A routine that only reads leaves the table as it is. -/
theorem ReadsOnly.state_perform {α : Type} {r : Routine capacity α} (h : ReadsOnly r)
    (t : Table capacity) : (r.perform t).state = t := by
  induction r with
  | done value => rfl
  | stop fault => rfl
  | report event next ih => exact ih h
  | access op next ih =>
    rw [perform_access, Access.apply_of_isRead h.1]
    exact ih _ (h.2 _)

/-- A lookup reads only. -/
theorem readsOnly_localOf (id : Id) : ReadsOnly (localOf id : Routine capacity (Option Id)) := by
  unfold localOf slotOf
  split
  · refine ⟨rfl, fun claim => ?_⟩
    simp only [IdCompaction.Routine.bind]
    split
    · trivial
    · exact ⟨rfl, fun _ => trivial⟩
  · trivial

/-- A lookup the other way reads only. -/
theorem readsOnly_globalOf (number : Id) :
    ReadsOnly (globalOf number : Routine capacity (Option Id)) := by
  unfold globalOf placeOf
  refine ⟨rfl, fun count => ?_⟩
  simp only [IdCompaction.Routine.bind]
  split
  · trivial
  · split
    · exact ⟨rfl, fun _ => trivial⟩
    · trivial

/-- A look at an owner reads only. -/
theorem readsOnly_ownerAt (position : Nat) :
    ReadsOnly (ownerAt position : Routine capacity Id) := by
  unfold ownerAt
  split
  · exact ⟨rfl, fun _ => trivial⟩
  · trivial

/-- Writes the owner at a position over an output with an access to the table itself. -/
def copyGlobalLive (position : Nat) : Action Fault (Table capacity × Array Id) Unit :=
  fun (t, output) =>
    match (ownerAt position).perform t with
    | ⟨t', events, .ok id⟩ => ⟨(t', output.setIfInBounds position id), events, .ok ()⟩
    | ⟨t', events, .error fault⟩ => ⟨(t', output), events, .error fault⟩

/-- Lists owners over an output with accesses to the table itself, the positions in any order. -/
def copyGlobalsLive (order : List Nat) : Action Fault (Table capacity × Array Id) Unit :=
  order.forM copyGlobalLive

/-- Listing leaves the table as it is. -/
theorem state_copyGlobalsLive (order : List Nat) (output : Array Id) :
    (copyGlobalsLive order (t, output)).state.1 = t := by
  refine Action.state_forM_induction (P := fun s => s.1 = t) ?_ order (t, output) rfl
  rintro position ⟨t', output⟩ rfl
  have hstate := (readsOnly_ownerAt position).state_perform t'
  simp only [copyGlobalLive]
  rcases hread : (ownerAt position).perform t' with ⟨last, events, fault | id⟩
  · rwa [hread] at hstate
  · rwa [hread] at hstate

/-! ## Lineages -/

/-- A history of calls leads from `first` to a table, and those since the last clearing have claimed
the IDs of a list. -/
inductive Lineage (first : Table capacity) : Table capacity → List Id → Prop
  /-- Nothing has been called. -/
  | start : Lineage first first []
  /-- After a claim. -/
  | insert {t : Table capacity} {claimed : List Id} (h : Lineage first t claimed) (id : Id) :
      Lineage first (Table.insert id t).state (claimed ++ called capacity [id])
  /-- After a batch. -/
  | insertAll {t : Table capacity} {claimed : List Id} (h : Lineage first t claimed) (pool : Pool)
      (batch : Array Id) :
      Lineage first (Table.insertAll pool batch t).state
        (claimed ++ calledIn capacity pool batch.toList)
  /-- After a race whose threads are all done. -/
  | race {t : Table capacity} {claimed : List Id} (h : Lineage first t claimed)
      (lists : List (List Id)) (schedule : List Nat)
      (hfinished : ((Table.race t lists).follow schedule).IsFinished) :
      Lineage first ((Table.race t lists).follow schedule).memory
        (claimed ++ lists.flatMap (called capacity))
  /-- After looking a global ID up. -/
  | localOf {t : Table capacity} {claimed : List Id} (h : Lineage first t claimed) (id : Id) :
      Lineage first ((Table.localOf id).perform t).state claimed
  /-- After looking a local ID up. -/
  | globalOf {t : Table capacity} {claimed : List Id} (h : Lineage first t claimed) (number : Id) :
      Lineage first ((Table.globalOf number).perform t).state claimed
  /-- After listing owners. -/
  | copyGlobals {t : Table capacity} {claimed : List Id} (h : Lineage first t claimed)
      (order : List Nat) (output : Array Id) :
      Lineage first (copyGlobalsLive order (t, output)).state.1 claimed
  /-- After relabelling edges. -/
  | relabel {t : Table capacity} {claimed : List Id} (h : Lineage first t claimed)
      (pairs : Array (Id × Id)) (order : List (Fin pairs.size)) (output : Edges) :
      Lineage first (relabelLive pairs order (t, output)).state.1 claimed
  /-- After a clearing. -/
  | clear {t : Table capacity} {claimed : List Id} (h : Lineage first t claimed) (pool : Pool) :
      Lineage first (Table.clear pool t).state []

/-- A table numbers the IDs of a list in some order, in the arrays of another table. -/
def Holds (first t : Table capacity) (claimed : List Id) : Prop :=
  ∃ ids, t = first.showing (.settled ids) ∧ t.Numbers ids ∧ ∀ id, id ∈ ids ↔ id ∈ claimed

/-- Claiming more IDs adds them to those that a table holds. -/
theorem Holds.grow {first last : Table capacity} {claimed claimed' more : List Id}
    (hplace : t = first.showing (.settled ids)) (hids : t.Numbers ids)
    (hmem : ∀ id, id ∈ ids ↔ id ∈ claimed) (hmore : ∀ id ∈ more, id.toNat < capacity)
    (hlast : last = t.showing (.settled (more.foldl appendNew ids)))
    (hclaimed : ∀ id, id ∈ claimed' ↔ id ∈ claimed ∨ id ∈ more) : Holds first last claimed' := by
  refine ⟨more.foldl appendNew ids, ?_, ?_, fun id => ?_⟩
  · rw [hlast, hplace]
    rfl
  · rw [hlast]
    exact hids.foldl_append hmore
  · rw [mem_foldl_appendNew, hmem, hclaimed]

/-- A claim leaves the table with its ID, or as it is if the ID is past the capacity. -/
theorem Numbers.state_insert_eq (h : t.Numbers ids) (id : Id) :
    (Table.insert id t).state =
      t.showing (.settled ((called capacity [id]).foldl appendNew ids)) := by
  by_cases hid : id.toNat < capacity
  · rw [h.insert_eq hid, called_cons_of_lt [] hid]
    rfl
  · rw [insert_of_le t (Nat.le_of_not_lt hid), called_cons_of_le [] (Nat.le_of_not_lt hid)]
    exact h.contents.symm

/-- A finished race leaves the table with the IDs that its threads have called for. -/
theorem Holds.race {first : Table capacity} {claimed : List Id} (h : Holds first t claimed)
    (lists : List (List Id)) (schedule : List Nat)
    (hfinished : ((Table.race t lists).follow schedule).IsFinished) :
    Holds first ((Table.race t lists).follow schedule).memory
      (claimed ++ lists.flatMap (called capacity)) := by
  obtain ⟨ids, hplace, hids, hmem⟩ := h
  obtain ⟨numbered, workers, hunderway⟩ := Underway.follow hids lists schedule
  obtain ⟨fresh, hends⟩ := hunderway.ends hids hfinished
  have hfresh (id : Id) (hid : id ∈ fresh) : id.toNat < capacity :=
    hends.numbers.inRange id (List.mem_append_right _ hid)
  have hlast : ((Table.race t lists).follow schedule).memory =
      t.showing (.settled (fresh.foldl appendNew ids)) := by
    have hsequential := congrArg Outcome.state hends.sequential
    rwa [hids.insertList_eq hfresh, eq_comm] at hsequential
  refine .grow hplace hids hmem hfresh hlast fun id => ?_
  -- what was called for is new or was claimed before
  rw [hends.fresh_perm.mem_iff, newIds, List.mem_dedup, List.mem_filter, hids.isClaimed_eq,
    List.mem_append, ← hmem]
  by_cases hold : id ∈ ids <;> simp [hold]

/-- A table that descends from an empty one holds the IDs that were claimed. -/
theorem Lineage.holds {first : Table capacity} {claimed : List Id} (h : Lineage first t claimed)
    (hfirst : first.Numbers []) : Holds first t claimed := by
  induction h with
  | start => exact ⟨[], hfirst.contents.symm, hfirst, fun _ => Iff.rfl⟩
  | insert _ id ih =>
    obtain ⟨ids, hplace, hids, hmem⟩ := ih
    exact .grow hplace hids hmem (fun _ => toNat_lt_of_mem_called) (hids.state_insert_eq id)
      fun _ => List.mem_append
  | insertAll _ pool batch ih =>
    obtain ⟨ids, hplace, hids, hmem⟩ := ih
    exact .grow hplace hids hmem (fun _ => toNat_lt_of_mem_calledIn)
      (hids.state_insertAll_eq pool batch) fun _ => List.mem_append
  | race _ lists schedule hfinished ih => exact ih.race lists schedule hfinished
  | localOf _ id ih => rwa [(readsOnly_localOf id).state_perform]
  | globalOf _ number ih => rwa [(readsOnly_globalOf number).state_perform]
  | copyGlobals _ order output ih => rwa [state_copyGlobalsLive]
  | relabel _ pairs order output ih => rwa [OnlyReads.relabelLive]
  | clear _ pool ih =>
    obtain ⟨ids, hplace, hids, -⟩ := ih
    rw [hids.clear_eq pool]
    refine ⟨[], ?_, .of_showing _ hids.fits List.nodup_nil (by simp), fun _ => Iff.rfl⟩
    rw [hplace]
    rfl

end Table

end IdCompaction
