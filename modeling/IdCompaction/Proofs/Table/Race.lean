import IdCompaction.Proofs.Crew
import IdCompaction.Proofs.Table.Batch
import IdCompaction.Proofs.Table.Racing

/-!
# Races

A race is a crew of threads that claim lists of IDs in one table. Every state that some schedule of
the threads' accesses leads to is told by workers that race on the table, so the counter stays
within the capacity and no two claims hold the same local ID. When every thread is done, no claim is
under way, and the table is the one that a single thread makes by claiming the new IDs in the order
of their local IDs.

The threads of a race record what they see. Threads that only count the claims they make do the same
accesses, so after the same schedule they have left the same table.
-/

namespace IdCompaction.Table

variable {capacity : Nat}

/-- Threads that claim IDs in one table. -/
abbrev Threads (capacity : Nat) := Crew (Table capacity) (Access capacity) Access.Answer Record

/-- One thread for each list, none of which has begun. -/
def race (t : Table capacity) (lists : List (List Id)) : Threads capacity :=
  ⟨t, lists.map (claimRecorded []), []⟩

/-- Threads that do something with their records at the end are those of a race. -/
theorem crew_eq_bindEach {α : Type} {thread : List Id → Routine capacity α}
    {ending : Record → Routine capacity α}
    (h : ∀ list, thread list = claimRecorded [] list >>= ending) (t : Table capacity)
    (lists : List (List Id)) :
    (⟨t, lists.map thread, []⟩ : Crew _ _ _ α) = (race t lists).bindEach ending := by
  rw [race, Crew.bindEach, List.map_map]
  exact congrArg (fun members => (⟨t, members, []⟩ : Crew _ _ _ α))
    (List.map_congr_left fun list _ => h list)

/-- The same threads without records: each only counts the claims it makes. -/
def unrecorded (t : Table capacity) (lists : List (List Id)) :
    Crew (Table capacity) (Access capacity) Access.Answer Nat :=
  ⟨t, lists.map (claimEach 0), []⟩

/-- Threads without records come, turn by turn, to what the race comes to, but for their answers:
each ends with the number of the claims it made, or stops at the fault of its record. -/
theorem follow_unrecorded (t : Table capacity) (lists : List (List Id)) (schedule : List Nat) :
    (unrecorded t lists).follow schedule = ((race t lists).follow schedule).bindEach tally := by
  rw [unrecorded, crew_eq_bindEach claimEach_zero, Crew.follow_bindEach isFinished_tally]

/-- A crew is at the point of a race that its workers tell. -/
structure Underway (base : Table capacity) (start : List Id) (lists : List (List Id))
    (numbered : List Id) (workers : List (Worker capacity)) (crew : Threads capacity) : Prop where
  members : crew.members = workers.map Worker.routine
  origins : workers.map Worker.origin = lists
  racing : Racing base start numbered crew.memory workers

namespace Underway

variable {base t : Table capacity} {start numbered : List Id} {lists : List (List Id)}
  {workers : List (Worker capacity)} {crew : Threads capacity}

/-- A race begins with fresh workers. -/
theorem begin (h : t.Numbers start) (lists : List (List Id)) :
    Underway t start lists start (lists.map Worker.fresh) (race t lists) := by
  let workers : List (Worker capacity) := lists.map Worker.fresh
  have hidle : ∀ w ∈ workers, w.phase = .idle := List.forall_mem_map.mpr fun _ _ => rfl
  have hclaimed := Worker.flatMap_claimed_of_idle hidle
  have hwon : (workers.flatMap fun w => wonOf w.answers) = [] := by
    rw [List.flatMap_map]
    exact List.flatMap_eq_nil_iff.mpr fun _ _ => rfl
  refine ⟨?_, ?_, h.fits, ?_, ?_, List.prefix_rfl, ?_, ?_, ?_, ?_⟩
  · rw [List.map_map]
    rfl
  · rw [List.map_map]
    exact List.map_id _
  · rw [hclaimed, List.append_nil]
    exact h.nodup
  · rw [hclaimed, List.append_nil]
    exact h.inRange
  · rw [Worker.flatMap_taken_of_idle hidle, hwon, List.append_nil]
  · intro w hw
    obtain ⟨list, -, rfl⟩ := List.mem_map.mp hw
    trivial
  · intro w hw
    obtain ⟨list, -, rfl⟩ := List.mem_map.mp hw
    exact List.forall_mem_nil _
  · rw [hclaimed, Worker.flatMap_unpublished_of_idle hidle, Worker.flatMap_unowned_of_idle hidle]
    exact h.contents.symm

/-- Whichever thread goes next, workers tell where the race has come to. -/
theorem advance (h : Underway base start lists numbered workers crew) (turn : Nat) :
    ∃ numbered' workers', Underway base start lists numbered' workers' (crew.advance turn) := by
  have hmember : crew.members[turn]? = workers[turn]?.map Worker.routine := by
    rw [h.members, List.getElem?_map]
  unfold Crew.advance
  rw [hmember]
  rcases hturn : workers[turn]? with _ | w
  · exact ⟨numbered, workers, h⟩
  obtain ⟨hlt, hw⟩ := List.getElem?_eq_some_iff.mp hturn
  rw [Option.map_some]
  obtain ⟨record, hroutine⟩ | ⟨op, next, hroutine⟩ := w.routine_cases
  · rw [hroutine]
    exact ⟨numbered, workers, h⟩
  · -- the worker whose turn it is comes to the front, makes its step, and goes back to its place
    have hfront : workers.Perm (w :: workers.eraseIdx turn) := by
      rw [← hw]
      exact (List.getElem_cons_eraseIdx_perm hlt).symm
    obtain ⟨numbered', w', hnext, horigin, hracing⟩ := (h.racing.perm hfront).step hroutine
    have hback : (w' :: workers.eraseIdx turn).Perm (workers.set turn w') :=
      (List.set_perm_cons_eraseIdx hlt w').symm
    have horigins : (workers.set turn w').map Worker.origin = lists := by
      rw [List.map_set, horigin, ← hw, ← List.getElem_map Worker.origin, List.set_getElem_self,
        h.origins]
      simpa using hlt
    rw [hroutine]
    refine ⟨numbered', workers.set turn w', ?_, horigins, hracing.perm hback⟩
    rw [List.map_set, ← hnext, h.members]
    rfl

/-- Workers tell where the race is after every schedule. -/
theorem follow (h : t.Numbers start) (lists : List (List Id)) (schedule : List Nat) :
    ∃ numbered workers, Underway t start lists numbered workers ((race t lists).follow schedule) :=
  Crew.follow_induction
    (P := fun crew => ∃ numbered workers, Underway t start lists numbered workers crew)
    ⟨start, _, begin h lists⟩ (fun _ turn ⟨_, _, hcrew⟩ => hcrew.advance turn) schedule

end Underway

end IdCompaction.Table
