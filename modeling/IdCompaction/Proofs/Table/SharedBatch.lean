import IdCompaction.Proofs.Table.CutShort
import IdCompaction.Proofs.Together

/-!
# Batches shared out among workers

Several workers may visit the elements of a batch in any order and interleave their accesses, and a
worker that meets an ID past the capacity stops, while the others go on to their own ends. The
elements that it has not visited may be left out. What the workers leave is what a race leaves, so
it is again the table that a batch of some of the IDs leaves; and there is a fault exactly if the
batch has an ID past the capacity, whether or not that element was visited.
-/

namespace IdCompaction.Table

variable {capacity : Nat} {t : Table capacity} {start fresh : List Id} {batch : Array Id}

/-- What a worker does that claims some elements of a batch. -/
def claiming (list : List Id) : Routine capacity Unit := do
  let _ ← claimEach 0 list
  return ()

/-- Claims a batch with a worker for each list; the workers take turns as the schedule says, and
then each goes on to its own end. -/
def insertAllBy (schedule : List Nat) (lists : List (List Id)) (batch : Array Id) :
    Action Fault (Table capacity) Unit :=
  claimAll batch.size (Routine.together schedule (lists.map claiming))

/-- Workers visit elements of a batch, each of them unless some worker meets an ID past the
capacity. -/
structure SharedOut (capacity : Nat) (batch : Array Id) (lists : List (List Id)) : Prop where
  entries : ∀ list ∈ lists, ∀ id ∈ list, id ∈ batch
  complete : (∀ id ∈ batch, ∃ list ∈ lists, id ∈ list) ∨
    ∃ list ∈ lists, ∃ id ∈ list, capacity ≤ id.toNat

/-- A thread on its own claims its list one ID after another, whatever it has counted before. -/
theorem perform_claimEach (won : Nat) (list : List Id) :
    ((claimEach won list).perform >>= fun _ => pure () : Action Fault (Table capacity) Unit) =
      insertList list := by
  induction list generalizing won with
  | nil => rfl
  | cons id rest ih =>
    have hdiscard : (discard (insert id) : Action Fault (Table capacity) Unit) =
        (claimId id).perform >>= fun _ => pure () := rfl
    rw [claimEach, Routine.perform_bind, bind_assoc, insertList_cons, hdiscard, bind_assoc]
    simp only [ih, pure_bind]

/-- A worker on its own claims its elements one after another. -/
theorem perform_claiming (list : List Id) :
    ((claiming list).perform : Action Fault (Table capacity) Unit) = insertList list := by
  rw [claiming, Routine.perform_bind]
  exact perform_claimEach 0 list

/-- A single worker that has all turns makes a batch in a single run. -/
theorem insertAllBy_nil_single {pool : Pool} (hsingle : batch.size / 2 < pool.minChunk) :
    insertAllBy [] [batch.toList] batch =
      (insertAll pool batch : Action Fault (Table capacity) _) := by
  rw [insertAllBy, insertAll_eq_claimLoop, claimLoop_of_lt hsingle, List.map_singleton,
    Routine.together_nil_singleton, perform_claiming]

/-- How a worker ends that has this record. -/
def Record.ending (record : Record) : Routine capacity Unit := do
  let _ ← tally record
  return ()

/-- A thread ends with the fault of its record. -/
theorem Record.outcome_ending (record : Record) :
    (record.ending : Routine capacity Unit).outcome =
      match record.fault with
      | none => .ok ()
      | some fault => .error fault := by
  unfold ending tally
  cases record.fault with
  | none => rfl
  | some fault => rfl

/-- How a worker ends takes no step. -/
theorem Record.isFinished_ending (record : Record) :
    (record.ending : Routine capacity Unit).isFinished = true := by
  unfold ending tally
  cases record.fault with
  | none => rfl
  | some fault => rfl

/-- A worker is a thread that keeps only the fault of its record. -/
theorem claiming_eq (list : List Id) :
    (claiming list : Routine capacity Unit) = claimRecorded [] list >>= Record.ending := by
  rw [claiming, claimEach_zero, bind_assoc]
  rfl

/-- Workers that claim a batch end as the threads of a race do. -/
theorem exists_together_claiming (t : Table capacity) (schedule : List Nat)
    (lists : List (List Id)) :
    ∃ turns, ((race t lists).follow turns).IsFinished ∧
      (Routine.together schedule (lists.map claiming) t : Outcome Fault _ Unit).state =
        ((race t lists).follow turns).memory ∧
      (Routine.together schedule (lists.map claiming) t).result =
        (((race t lists).follow turns).members.map fun routine => routine >>= Record.ending).forM
          Routine.outcome := by
  obtain ⟨rest, hrest⟩ :=
    (Crew.follow ⟨t, lists.map claiming, []⟩ schedule).exists_complete_eq_follow
  have hlast : (Crew.follow ⟨t, lists.map claiming, []⟩ schedule).complete =
      ((race t lists).follow (schedule ++ rest)).bindEach Record.ending := by
    rw [hrest, ← Crew.follow_append, crew_eq_bindEach claiming_eq,
      Crew.follow_bindEach Record.isFinished_ending]
  have hfinished := Crew.isFinished_complete (Crew.follow ⟨t, lists.map claiming, []⟩ schedule)
  rw [hlast, Crew.isFinished_bindEach Record.isFinished_ending] at hfinished
  refine ⟨schedule ++ rest, hfinished, ?_, ?_⟩
  · rw [Routine.together, hlast]
    rfl
  · rw [Routine.together, hlast]
    rfl

section Workers

variable {lists : List (List Id)} {schedule : List Nat}

/-- A finished race over elements of a batch has grown the table by IDs of the batch. -/
theorem Ends.grownBy {crew : Threads capacity} {records : List Record}
    (hends : Ends t start lists crew records fresh) (h : t.Numbers start)
    (hentries : ∀ list ∈ lists, ∀ id ∈ list, id ∈ batch) :
    GrownBy t crew.memory batch start fresh := by
  have hinRange (id : Id) (hid : id ∈ fresh) : id.toNat < capacity :=
    hends.numbers.inRange id (List.mem_append_right _ hid)
  have hcontents : crew.memory = t.showing (.settled (start ++ fresh)) := by
    have hsequential := congrArg Outcome.state hends.sequential
    rw [h.insertList_eq hinRange, foldl_appendNew_of_nodup hends.numbers.nodup] at hsequential
    exact hsequential.symm
  refine h.grownBy hends.numbers hcontents fun id hid => ?_
  have hnew := List.mem_dedup.mp (hends.fresh_perm.mem_iff.mp hid)
  obtain ⟨list, hlist, hcalled⟩ := List.mem_flatMap.mp (List.mem_of_mem_filter hnew)
  exact hentries list hlist id (List.takeWhile_subset _ hcalled)

/-- Workers end as the threads of a race do, and the first fault among their records is the answer.
-/
theorem Numbers.exists_ends_insertAllBy (h : t.Numbers start) (schedule : List Nat)
    (lists : List (List Id)) (batch : Array Id) :
    ∃ crew records fresh, Ends t start lists crew records fresh ∧
      (insertAllBy schedule lists batch t).state = crew.memory ∧
      (insertAllBy schedule lists batch t).result =
        (records.map fun record => (record.ending : Routine capacity Unit)).forM
          Routine.outcome := by
  obtain ⟨hstate, hresult⟩ :=
    claimAll_apply batch.size (Routine.together schedule (lists.map claiming)) t
  obtain ⟨turns, hfinished, hmemory, houtcome⟩ := exists_together_claiming t schedule lists
  obtain ⟨numbered, workers, hunderway⟩ := Underway.follow h lists turns
  obtain ⟨fresh, hends⟩ := hunderway.ends h hfinished
  refine ⟨_, _, fresh, hends, hstate.trans hmemory, ?_⟩
  rw [insertAllBy, hresult, houtcome, hends.members, List.map_map]
  rfl

/-- Workers leave the table grown by IDs of the batch. -/
theorem Numbers.grownBy_insertAllBy (h : t.Numbers start) (hshared : SharedOut capacity batch lists)
    (schedule : List Nat) :
    ∃ fresh, GrownBy t (insertAllBy schedule lists batch t).state batch start fresh := by
  obtain ⟨crew, records, fresh, hends, hstate, -⟩ := h.exists_ends_insertAllBy schedule lists batch
  exact ⟨fresh, hstate ▸ hends.grownBy h hshared.entries⟩

/-- Workers meet a fault exactly if the batch has an ID past the capacity. -/
theorem Numbers.exists_fault_insertAllBy_iff (h : t.Numbers start)
    (hshared : SharedOut capacity batch lists) (schedule : List Nat) :
    (∃ fault, (insertAllBy schedule lists batch t).result = .error fault) ↔
      ∃ id ∈ batch, capacity ≤ id.toNat := by
  obtain ⟨crew, records, fresh, hends, -, hresult⟩ :=
    h.exists_ends_insertAllBy schedule lists batch
  have hrecord (record : Record) :
      (record.ending : Routine capacity Unit).outcome = .ok () ↔ record.fault = none := by
    rw [Record.outcome_ending]
    cases record.fault <;> simp
  have hok : (insertAllBy schedule lists batch t).result = .ok () ↔
      ∀ list ∈ lists, ∀ id ∈ list, id.toNat < capacity := by
    rw [hresult, forM_eq_ok_iff, List.forall_mem_map]
    simp only [hrecord]
    rw [← List.forall_mem_map (P := (· = none)), hends.faults, List.forall_mem_map]
    simp [faultOf]
  rw [exists_eq_error_iff, ne_eq, hok]
  push Not
  constructor
  · rintro ⟨list, hlist, id, hid, hle⟩
    exact ⟨id, hshared.entries list hlist id hid, hle⟩
  · rintro ⟨bad, hbad, hle⟩
    -- whether or not the bad element was visited, some worker met one
    obtain hall | hmet := hshared.complete
    · obtain ⟨list, hlist, hmem⟩ := hall bad hbad
      exact ⟨list, hlist, bad, hmem, hle⟩
    · exact hmet

end Workers

/-! ## After any history -/

/-- Whatever a table has gone through, a batch faults exactly if it has an ID past the capacity, on
every pool and however its elements are shared out among workers, and what it leaves is the table
grown by some of its IDs. A batch in a single run faults at its first ID past the capacity, and
leaves the table that the IDs before it leave. -/
theorem batches_never_corrupt (h : t.Reachable) (batch : Array Id) :
    (∀ pool, ((∃ fault, (insertAll pool batch t).result = .error fault) ↔
        ∃ id ∈ batch, capacity ≤ id.toNat) ∧
      ∃ start fresh, GrownBy t (insertAll pool batch t).state batch start fresh) ∧
    (∀ pool : Pool, batch.size / 2 < pool.minChunk →
      insertAllBy [] [batch.toList] batch t = insertAll pool batch t ∧
      ∀ (k : Nat) (_ : k < batch.size), capacity ≤ batch[k].toNat →
        (∀ (i : Nat) (_ : i < batch.size), i < k → batch[i].toNat < capacity) →
        (insertAll pool (batch.extract 0 k) t).result = .ok () ∧
          insertAll pool batch t = ⟨(insertAll pool (batch.extract 0 k) t).state, [],
            .error (.idOutOfRange batch[k] capacity)⟩) ∧
    ∀ schedule lists, SharedOut capacity batch lists →
      ((∃ fault, (insertAllBy schedule lists batch t).result = .error fault) ↔
        ∃ id ∈ batch, capacity ≤ id.toNat) ∧
      ∃ start fresh, GrownBy t (insertAllBy schedule lists batch t).state batch start fresh := by
  obtain ⟨start, hstart⟩ := h.numbers
  refine ⟨fun pool => ⟨hstart.exists_fault_insertAll_iff pool batch, start,
      hstart.grownBy_insertAll pool batch⟩, fun pool hsingle => ⟨?_, fun k hk hbad hbefore => ?_⟩,
    fun schedule lists hshared => ⟨hstart.exists_fault_insertAllBy_iff hshared schedule, start,
      hstart.grownBy_insertAllBy hshared schedule⟩⟩
  · rw [insertAllBy_nil_single hsingle]
  · refine ⟨?_, hstart.insertAll_single_of_le hsingle hk hbad hbefore⟩
    rw [hstart.insertAll_eq (inRange_extract hk hbefore)]

/-- The second of four IDs is past the capacity. A single run claims the ID before it; two workers,
of which one stops there, also claim the last ID, and the third is never visited. -/
theorem batches_never_corrupt_four :
    ∃ t : Table 4, t.Reachable ∧
      insertAll ⟨1, 8⟩ #[1, 9, 0, 2] t =
        ⟨(insertAll ⟨1, 8⟩ #[1] t).state, [], .error (.idOutOfRange 9 4)⟩ ∧
      ∃ start fresh, GrownBy t
        (insertAllBy [0, 1, 1, 0] [[2, 9, 0], [1]] #[1, 9, 0, 2] t).state #[1, 9, 0, 2]
        start fresh := by
  have built :
      (allocate (HostMemory.service (Arena.heap 4096)) .cpu 4 (.fresh {})).result = .ok _ := rfl
  have hreachable := (Reachable.built built).insert 3
  have hshared : SharedOut 4 #[1, 9, 0, 2] [[2, 9, 0], [1]] :=
    ⟨by simp, .inr ⟨[2, 9, 0], by simp, 9, by simp, by decide⟩⟩
  obtain ⟨-, hsingle, hworkers⟩ := batches_never_corrupt hreachable #[1, 9, 0, 2]
  refine ⟨_, hreachable, ?_, (hworkers [0, 1, 1, 0] _ hshared).2⟩
  exact ((hsingle ⟨1, 8⟩ (by decide)).2 1 (by decide) (by decide) (by decide)).2

end IdCompaction.Table
