import IdCompaction.Proofs.Table.RaceSafety
import IdCompaction.Proofs.Table.Reading
import Mathlib.Data.List.Dedup

/-!
# Where races end

When every thread of a race is done, each has made the calls before the first ID past the capacity
in its list, and no claim is under way. The calls that won are as many as there are IDs that some
thread named and nobody had claimed before, and each of these IDs was won once. Nothing that was
claimed before has changed, and the table is the one that a single thread leaves that claims the new
IDs in the order of their local IDs.
-/

namespace IdCompaction.Table

variable {capacity : Nat}

/-- The IDs of a list that a thread makes calls for: those before the first one past the capacity.
-/
def called (capacity : Nat) (list : List Id) : List Id := list.takeWhile (·.toNat < capacity)

/-- The fault at the first ID of a list that is past the capacity. -/
def faultOf (capacity : Nat) (list : List Id) : Option Fault :=
  (list.find? (capacity ≤ ·.toNat)).map fun id => .idOutOfRange id capacity

/-- The distinct IDs that the threads of a race call for and that nobody had claimed before. -/
def newIds (t : Table capacity) (lists : List (List Id)) : List Id :=
  ((lists.flatMap (called capacity)).filter fun id => !t.isClaimed id).dedup

/-- What a race on a table that numbered `start` has come to when every thread is done: the records
of the threads, and the IDs that became claimed. -/
structure Ends (t : Table capacity) (start : List Id) (lists : List (List Id))
    (crew : Threads capacity) (records : List Record) (fresh : List Id) : Prop where
  /-- Every thread is done. -/
  members : crew.members = records.map .done
  /-- Each has made the calls before the first ID past the capacity. -/
  calls : records.map (fun record => record.answers.map Prod.fst) = lists.map (called capacity)
  /-- Each has stopped there, if there is such an ID. -/
  faults : records.map Record.fault = lists.map (faultOf capacity)
  /-- The new IDs are those that were called for and not claimed before, each once. -/
  fresh_perm : fresh.Perm (newIds t lists)
  /-- Each of them was won by one call. -/
  won_perm : (records.flatMap fun record => wonOf record.answers).Perm fresh
  /-- As many calls won as there are new IDs. -/
  wins : (records.flatMap Record.answers).countP Prod.snd = (newIds t lists).length
  /-- The counter has grown by as many. -/
  numItems : crew.memory.numItems = t.numItems + (newIds t lists).length
  /-- The table numbers the new IDs after those that it numbered before. -/
  numbers : crew.memory.Numbers (start ++ fresh)
  /-- The slots of the IDs that were claimed before are as they were. -/
  slots_kept : ∀ (id : Id) (h : id.toNat < capacity), t.isClaimed id →
    crew.memory.slots.get ⟨id.toNat, h⟩ = t.slots.get ⟨id.toNat, h⟩
  /-- The owners of the local IDs that were handed out before are as they were. -/
  owners_kept : ∀ place : Fin capacity, place.val < t.numItems →
    crew.memory.owners.get place = t.owners.get place
  /-- One thread that claims the new IDs in the order of their local IDs leaves the same table. -/
  sequential : insertList fresh t = ⟨crew.memory, [], .ok ()⟩

/-! ## What a thread has done -/

/-- The calls of a thread that is done are those before the first ID past the capacity. -/
theorem Worker.called_origin {w : Worker capacity} (hphase : w.phase = .idle)
    (hrest : ∀ id ∈ w.rest.head?, capacity ≤ id.toNat)
    (hanswers : ∀ entry ∈ w.answers, entry.1.toNat < capacity) :
    called capacity w.origin = w.answers.map Prod.fst ∧
      faultOf capacity w.origin = w.record.fault := by
  have horigin : w.origin = w.answers.map Prod.fst ++ w.rest := by
    rw [origin, hphase]
  have hbelow : ∀ id ∈ w.answers.map Prod.fst, id.toNat < capacity :=
    List.forall_mem_map.mpr hanswers
  have hfind : (w.answers.map Prod.fst).find? (capacity ≤ ·.toNat) = none := by
    rw [List.find?_eq_none]
    intro id hid
    have hlt := hbelow id hid
    simpa using hlt
  have hnext : w.rest.takeWhile (·.toNat < capacity) = [] ∧
      w.rest.find? (capacity ≤ ·.toNat) = w.rest.head? := by
    cases hlist : w.rest with
    | nil => exact ⟨rfl, rfl⟩
    | cons id rest =>
      have hle : capacity ≤ id.toNat := hrest id (by rw [hlist]; rfl)
      exact ⟨List.takeWhile_cons_of_neg (by simpa using hle),
        List.find?_cons_of_pos (by simpa using hle)⟩
  rw [horigin]
  constructor
  · rw [called, List.takeWhile_append_of_pos (by simpa using hbelow), hnext.1, List.append_nil]
  · rw [faultOf, List.find?_append, hfind, hnext.2]
    rfl

/-- When no worker has a call under way, the table numbers the IDs that they won after those that it
numbered before, and every call was for one of these. -/
theorem Racing.of_idle {base t : Table capacity} {start numbered : List Id}
    {workers : List (Worker capacity)} (h : Racing base start numbered t workers)
    (hidle : ∀ w ∈ workers, w.phase = .idle) :
    ∃ fresh, t = base.showing (.settled (start ++ fresh)) ∧ t.Numbers (start ++ fresh) ∧
      (workers.flatMap fun w => wonOf w.answers).Perm fresh ∧
      ∀ w ∈ workers, ∀ entry ∈ w.answers, entry.1 ∈ start ++ fresh := by
  have hclaimed := Worker.flatMap_claimed_of_idle hidle
  obtain ⟨fresh, rfl⟩ := h.kept
  have hcontents : t = base.showing (.settled (start ++ fresh)) := by
    rw [h.contents, hclaimed, Worker.flatMap_unpublished_of_idle hidle,
      Worker.flatMap_unowned_of_idle hidle]
    rfl
  have hinRange := h.inRange
  have hanswered := h.answered
  rw [hclaimed, List.append_nil] at hinRange hanswered
  refine ⟨fresh, hcontents, ?_, ?_, hanswered⟩
  · rw [hcontents]
    exact .of_showing base h.fits h.nodup_numbered hinRange
  · rw [← Worker.flatMap_taken_of_idle hidle]
    exact ((List.perm_append_left_iff start).mp h.taken).symm

/-! ## What has become of the table -/

section Grown

variable {t last : Table capacity} {start fresh : List Id}

/-- The slots of IDs that were claimed before are the same when the list has grown. -/
theorem Numbers.slots_get_of_append (h : t.Numbers start) (hlast : last.Numbers (start ++ fresh))
    {id : Id} (hid : id.toNat < capacity) (hclaimed : t.isClaimed id) :
    last.slots.get ⟨id.toNat, hid⟩ = t.slots.get ⟨id.toNat, hid⟩ := by
  have hold : id ∈ start := by simpa [h.isClaimed_eq] using hclaimed
  rw [hlast.slots_get hid, h.slots_get hid, Stage.slot_settled_of_mem hold,
    Stage.slot_settled_of_mem (List.mem_append_left _ hold), List.idxOf_append_of_mem hold]

/-- The owners of local IDs that were handed out before are the same when the list has grown. -/
theorem Numbers.owners_get_of_append (h : t.Numbers start) (hlast : last.Numbers (start ++ fresh))
    {place : Fin capacity} (hplace : place.val < t.numItems) :
    last.owners.get place = t.owners.get place := by
  rw [h.numItems_eq] at hplace
  rw [hlast.owners_get, h.owners_get, List.getElem?_append_left hplace]

/-- Distinct IDs that a list does not have are all put at its end. -/
theorem foldl_appendNew_of_nodup {ids fresh : List Id} (h : (ids ++ fresh).Nodup) :
    fresh.foldl appendNew ids = ids ++ fresh := by
  induction fresh generalizing ids with
  | nil => exact (List.append_nil ids).symm
  | cons id rest ih =>
    have hassoc : ids ++ id :: rest = ids ++ [id] ++ rest := List.append_cons ..
    have hmem : id ∉ ids := fun hmem =>
      (List.nodup_cons.mp (List.nodup_middle.mp h)).1 (List.mem_append_left _ hmem)
    rw [List.foldl_cons, appendNew_of_notMem hmem, ih (hassoc ▸ h), hassoc]

/-- Claiming the new IDs in their order leaves the table that has grown by them. -/
theorem Numbers.insertList_of_append (h : t.Numbers start) (hlast : last.Numbers (start ++ fresh))
    (hcontents : last = t.showing (.settled (start ++ fresh))) :
    insertList fresh t = ⟨last, [], .ok ()⟩ := by
  have hinRange (id : Id) (hid : id ∈ fresh) : id.toNat < capacity :=
    hlast.inRange id (List.mem_append_right _ hid)
  rw [h.insertList_eq hinRange, foldl_appendNew_of_nodup hlast.nodup, ← hcontents]

end Grown

/-! ## What the crew has done -/

/-- The claims reported as made are counted by their IDs. -/
theorem countP_flatMap_answers (records : List Record) :
    (records.flatMap Record.answers).countP Prod.snd =
      (records.flatMap fun record => wonOf record.answers).length := by
  induction records with
  | nil => rfl
  | cons record rest ih =>
    rw [List.flatMap_cons, List.flatMap_cons, List.countP_append, ih, List.length_append, wonOf,
      List.length_map, List.countP_eq_length_filter]

/-- IDs that are called for, and with the claimed ones cover all that are, are the new ones. -/
theorem perm_newIds {t : Table capacity} {start fresh : List Id} {lists : List (List Id)}
    (hstart : t.Numbers start) (nodup : (start ++ fresh).Nodup)
    (hfresh : ∀ id ∈ fresh, id ∈ lists.flatMap (called capacity))
    (hcover : ∀ id ∈ lists.flatMap (called capacity), id ∈ start ++ fresh) :
    fresh.Perm (newIds t lists) := by
  obtain ⟨-, hnodup, hdisjoint⟩ := List.nodup_append.mp nodup
  refine (List.perm_ext_iff_of_nodup hnodup (List.nodup_dedup _)).mpr fun id => ?_
  rw [List.mem_dedup, List.mem_filter, hstart.isClaimed_eq, Bool.not_eq_true',
    decide_eq_false_iff_not]
  constructor
  · intro hid
    exact ⟨hfresh id hid, fun hold => hdisjoint id hold id hid rfl⟩
  · rintro ⟨hid, hnew⟩
    exact (List.mem_append.mp (hcover id hid)).resolve_left hnew

section Finished

variable {t : Table capacity} {start numbered : List Id} {lists : List (List Id)}
  {workers : List (Worker capacity)} {crew : Threads capacity}

/-- When every thread is done, each worker is, and has no call under way. -/
theorem Underway.of_isFinished (h : Underway t start lists numbered workers crew)
    (hfinished : crew.IsFinished) {w : Worker capacity} (hw : w ∈ workers) :
    w.routine = .done w.record ∧ w.phase = .idle ∧ ∀ id ∈ w.rest.head?, capacity ≤ id.toNat := by
  have hroutine := hfinished w.routine (h.members ▸ List.mem_map_of_mem hw)
  obtain ⟨record, hrecord⟩ | ⟨op, next, haccess⟩ := w.routine_cases
  · obtain ⟨hphase, hrest, rfl⟩ := Worker.of_routine_eq_done hrecord
    exact ⟨hrecord, hphase, hrest⟩
  · rw [haccess] at hroutine
    cases hroutine

/-- A race whose threads are all done ends with the IDs that they won. -/
theorem Underway.ends (hstart : t.Numbers start)
    (h : Underway t start lists numbered workers crew) (hfinished : crew.IsFinished) :
    ∃ fresh, Ends t start lists crew (workers.map Worker.record) fresh := by
  have hdone (w : Worker capacity) (hw : w ∈ workers) := h.of_isFinished hfinished hw
  obtain ⟨fresh, hcontents, hnumbers, hwon, hanswered⟩ :=
    h.racing.of_idle fun w hw => (hdone w hw).2.1
  have hcalled (w : Worker capacity) (hw : w ∈ workers) :=
    Worker.called_origin (hdone w hw).2.1 (hdone w hw).2.2 fun entry hentry =>
      hnumbers.inRange entry.1 (hanswered w hw entry hentry)
  obtain rfl := h.origins
  -- what was called for is what the threads have answers for, so won and called-for IDs compare
  have hcalls : (workers.map Worker.origin).flatMap (called capacity) =
      workers.flatMap fun w => w.answers.map Prod.fst := by
    rw [List.flatMap_map]
    exact List.flatMap_congr fun w hw => (hcalled w hw).1
  have hfresh : fresh.Perm (newIds t (workers.map Worker.origin)) := by
    refine perm_newIds hstart hnumbers.nodup (fun id hid => ?_) fun id hid => ?_
    · obtain ⟨w, hw, hid⟩ := List.mem_flatMap.mp (hwon.mem_iff.mpr hid)
      rw [hcalls]
      exact List.mem_flatMap.mpr ⟨w, hw, mem_map_of_mem_wonOf hid⟩
    · rw [hcalls] at hid
      obtain ⟨w, hw, hid⟩ := List.mem_flatMap.mp hid
      obtain ⟨entry, hentry, rfl⟩ := List.mem_map.mp hid
      exact hanswered w hw entry hentry
  have hgrown : crew.memory.numItems =
      t.numItems + (newIds t (workers.map Worker.origin)).length := by
    rw [hnumbers.numItems_eq, hstart.numItems_eq, List.length_append, hfresh.length_eq]
  refine ⟨fresh, ?_, ?_, ?_, hfresh, ?_, ?_, hgrown, hnumbers,
    fun _ => hstart.slots_get_of_append hnumbers, fun _ => hstart.owners_get_of_append hnumbers,
    hstart.insertList_of_append hnumbers hcontents⟩
  · rw [h.members, List.map_map]
    exact List.map_congr_left fun w hw => (hdone w hw).1
  · rw [List.map_map, List.map_map]
    exact List.map_congr_left fun w hw => (hcalled w hw).1.symm
  · rw [List.map_map, List.map_map]
    exact List.map_congr_left fun w hw => (hcalled w hw).2.symm
  · rw [List.flatMap_map]
    exact hwon
  · rw [countP_flatMap_answers, List.flatMap_map, ← hfresh.length_eq]
    exact hwon.length_eq

end Finished

/-! ## Races -/

/-- Every state of a race on a table without a claim under way is safe and can go on to the end, and
a race whose threads are all done has come to the table that one thread leaves that claims the new
IDs in turn. Threads that keep no records leave the same table turn by turn, and are done when those
of the race are. -/
theorem race_ends_sequentially {t : Table capacity} {start : List Id} (h : t.Numbers start)
    (lists : List (List Id)) (schedule : List Nat) :
    Safe ((race t lists).follow schedule) ∧
      (∃ rest, ((race t lists).follow (schedule ++ rest)).IsFinished) ∧
      (((race t lists).follow schedule).IsFinished →
        ∃ records fresh, Ends t start lists ((race t lists).follow schedule) records fresh) ∧
      ((unrecorded t lists).follow schedule).memory = ((race t lists).follow schedule).memory ∧
      (((unrecorded t lists).follow schedule).IsFinished ↔
        ((race t lists).follow schedule).IsFinished) := by
  obtain ⟨numbered, workers, hunderway⟩ := Underway.follow h lists schedule
  rw [follow_unrecorded]
  refine ⟨hunderway.safe, ?_, fun hfinished => ?_, rfl, Crew.isFinished_bindEach isFinished_tally _⟩
  · obtain ⟨rest, hrest⟩ := ((race t lists).follow schedule).exists_isFinished
    rw [← Crew.follow_append] at hrest
    exact ⟨rest, hrest⟩
  · obtain ⟨fresh, hends⟩ := hunderway.ends h hfinished
    exact ⟨_, fresh, hends⟩

/-- Two threads that want the same two IDs of a table of four slots, one of them also an ID past the
capacity, are done after ten accesses, and the counter has grown by two. -/
theorem race_ends_sequentially_four :
    ∃ (t : Table 4), t.Numbers [3] ∧
      let crew := (race t [[1, 2, 9], [2, 1]]).follow [0, 1, 1, 0, 0, 1, 1, 0, 0, 1]
      crew.memory.numItems = 3 ∧
        ∃ records fresh, Ends t [3] [[1, 2, 9], [2, 1]] crew records fresh := by
  let base : Table 4 := ⟨⟨.cpu, 0, .replicate 4 .empty⟩, ⟨.cpu, 32, .replicate 4 vacant⟩, 0⟩
  have hstart : (base.showing (.settled [3])).Numbers [3] :=
    .of_showing base (by decide) (List.nodup_singleton 3)
      (List.forall_mem_singleton.mpr (by decide))
  have hrace := race_ends_sequentially hstart [[1, 2, 9], [2, 1]] [0, 1, 1, 0, 0, 1, 1, 0, 0, 1]
  have hfinished : (((race (base.showing (.settled [3])) [[1, 2, 9], [2, 1]]).follow
      [0, 1, 1, 0, 0, 1, 1, 0, 0, 1]).members.all IdCompaction.Routine.isFinished) = true := by
    decide +kernel
  exact ⟨_, hstart, by decide +kernel, hrace.2.2.1 (List.all_eq_true.mp hfinished)⟩

end IdCompaction.Table
