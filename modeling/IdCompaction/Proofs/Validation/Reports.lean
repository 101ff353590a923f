import IdCompaction.Proofs.Together
import IdCompaction.Proofs.Validation.Walking
import Mathlib.Algebra.GroupWithZero.Nat
import Mathlib.Algebra.Order.BigOperators.Group.List
import Mathlib.Algebra.Order.Group.Nat
import Mathlib.Data.List.Dedup
import Mathlib.Data.List.Flatten

/-!
# How many values are reported

When the blocks are done, every element was visited, and it was either reported or found unmarked.
The elements that were found unmarked are at least as many as there are distinct values without a
mark at the start, and those of one block at most as many as there are such values in its tile. So
the number of reports has an upper bound from the whole batch and a lower bound from its tiles, and
neither depends on the schedule.
-/

namespace IdCompaction

namespace Presence

variable {length : Nat}

/-- The distinct ones among some values whose flags are not marked. -/
def unmarked (p : Presence length) (values : List Id) : List Id :=
  values.dedup.filter fun value => p.cells[value.toNat]? = some 0

/-- The unmarked values of a batch are those whose flags are zero. -/
theorem mem_unmarked {p : Presence length} {values : List Id} {value : Id} :
    value ∈ p.unmarked values ↔ value ∈ values ∧ p.cells[value.toNat]? = some 0 := by
  rw [unmarked, List.mem_filter, List.mem_dedup, decide_eq_true_iff]

/-- Each of them is listed once. -/
theorem nodup_unmarked (p : Presence length) (values : List Id) : (p.unmarked values).Nodup :=
  values.nodup_dedup.filter _

/-- The order of the batch matters only to their order. -/
theorem unmarked_perm (p : Presence length) {values values' : List Id} (h : values.Perm values') :
    (p.unmarked values).Perm (p.unmarked values') :=
  h.dedup.filter _

/-- Of distinct values on a cleared map, all are unmarked. -/
theorem unmarked_of_cleared {p : Presence length} {values : List Id} (hnodup : values.Nodup)
    (hcleared : ∀ place, p.get place = 0) (hrange : ∀ value ∈ values, value.toNat < length) :
    p.unmarked values = values := by
  rw [unmarked, hnodup.dedup, List.filter_eq_self]
  intro value hvalue
  have hlt := hrange value hvalue
  rw [decide_eq_true_iff, Vector.getElem?_eq_getElem hlt]
  exact congrArg some (hcleared ⟨value.toNat, hlt⟩)

end Presence

namespace Validation

variable {length : Nat} {batch : Batch length}

/-- The cell of an element is its flag. -/
theorem Batch.getElem?_place (batch : Batch length) (p : Presence length) (i : batch.Index) :
    p.cells[(batch.value i).toNat]? = some (p.get (batch.place i)) :=
  Vector.getElem?_eq_getElem (batch.inRange _ (batch.value_mem i))

/-- Visits that were missed are some of the visits. -/
theorem missedOf_sublist {ι : Type} (visits : List (ι × Bool)) :
    (missedOf visits).Sublist (visits.map Prod.fst) :=
  List.filter_sublist.map Prod.fst

/-- The reported elements are some of the visited ones, in their order. -/
theorem reportedOf_sublist {ι : Type} (visits : List (ι × Bool)) :
    (reportedOf visits).Sublist (visits.map Prod.fst) :=
  List.filter_sublist.map Prod.fst

namespace Walk

variable {w : Walk batch}

/-- A block at its end: no visit is under way and no elements are to come. -/
def IsEnded (w : Walk batch) : Prop := w.stage = .between ∧ w.rest = []

/-- A walk with nothing left to do has ended. -/
theorem isEnded_of_isFinished (h : w.routine.isFinished = true) : w.IsEnded := by
  obtain ⟨ended, stage, rest⟩ := w
  cases stage with
  | between =>
    cases rest with
    | nil => exact ⟨rfl, rfl⟩
    | cons i rest =>
      rw [routine_between_cons] at h
      cases h
  | found i => cases h
  | warned i => cases h
  | marking i reported => cases h

/-- The elements that a block missed are some of those that it was given. -/
theorem missed_subset_origin (w : Walk batch) : w.missed ⊆ w.origin := fun _ hi =>
  List.mem_append_left _ ((missedOf_sublist w.visits).subset hi)

/-- A block on its own comes to its end without a fault. -/
theorem result_perform_fresh (list : List batch.Index) (m : Marking length) :
    ((Walk.fresh list).routine.perform m : Outcome Fault _ Unit).result = .ok () := by
  induction list generalizing m with
  | nil => rfl
  | cons i rest ih =>
    have hmark (reported : Bool) (m : Marking length) :
        ((⟨[], .marking i reported, rest⟩ : Walk batch).routine.perform m :
          Outcome Fault _ Unit).result = .ok () := ih _
    rw [fresh, routine_between_cons]
    change ((if m.presence.get (batch.place i) ≠ 0 then
        (⟨[], .found i, rest⟩ : Walk batch).routine
      else (⟨[], .marking i false, rest⟩ : Walk batch).routine).perform m :
        Outcome Fault _ Unit).result = .ok ()
    split
    · exact hmark true { m with found := m.found + 1 }
    · exact hmark false m

/-- Blocks one after another come to their ends without a fault. -/
theorem result_forM_perform_fresh (lists : List (List batch.Index)) (m : Marking length) :
    ((lists.map fun list => (Walk.fresh list).routine).forM
      (Routine.perform : _ → Action Fault (Marking length) Unit) m).result = .ok () := by
  induction lists generalizing m with
  | nil => rfl
  | cons list rest ih =>
    exact Action.result_seq_eq_ok_iff.mpr ⟨result_perform_fresh list m, ih _⟩

namespace IsEnded

variable (h : w.IsEnded)

include h

/-- A walk that has ended has nothing left to do. -/
theorem routine_eq : w.routine = .done () := by
  obtain ⟨hstage, hrest⟩ := h
  simp only [routine, hstage, hrest]
  rfl

/-- It has visited all it was given. -/
theorem visited_eq : w.visited = w.origin := by
  rw [origin, h.2, List.append_nil]

/-- It has marked all it was given. -/
theorem marked_eq : w.marked = w.origin := by
  rw [← h.visited_eq, visited, visits, current, h.1, List.append_nil]
  rfl

/-- It has counted what it reported. -/
theorem counted_eq : w.counted = reportedOf w.visits := by
  simp only [counted, visits, current, h.1, List.append_nil]

/-- It has warned about what it reported. -/
theorem warned_eq : w.warned = reportedOf w.visits := by
  simp only [warned, visits, current, h.1, List.append_nil]

/-- Every element of a block was counted or missed. -/
theorem length_counted_add_missed : w.counted.length + w.missed.length = w.origin.length := by
  rw [h.counted_eq, missed, length_reportedOf_add_missedOf, ← h.visited_eq, visited,
    List.length_map]

end IsEnded

end Walk

namespace Walking

variable {p : Presence length} {lists : List (List batch.Index)} {m : Marking length}
  {events : List Event} {walks : List (Walk batch)}

/-- A block misses at most one element for each unmarked value of its own. -/
theorem length_missed_le (h : Walking p lists m events walks) {w : Walk batch} (hw : w ∈ walks) :
    w.missed.length ≤ (p.unmarked (w.origin.map batch.value)).length := by
  have hplaces := h.distinct w.missed (List.mem_map_of_mem hw)
  have hvalues : (w.missed.map batch.value).Nodup := by
    refine List.pairwise_map.mpr ((List.pairwise_map.mp hplaces).imp fun hne hvalue => hne ?_)
    exact Fin.ext (congrArg UInt32.toNat hvalue)
  have hsubset : w.missed.map batch.value ⊆ p.unmarked (w.origin.map batch.value) := by
    intro value hvalue
    obtain ⟨i, hi, rfl⟩ := List.mem_map.mp hvalue
    refine Presence.mem_unmarked.mpr ⟨List.mem_map_of_mem (w.missed_subset_origin hi), ?_⟩
    rw [batch.getElem?_place, h.unmarked i (List.mem_flatMap.mpr ⟨w, hw, hi⟩)]
  have hlength := (List.subperm_of_subset hvalues hsubset).length_le
  rwa [List.length_map] at hlength

section Ended

variable (h : Walking p lists m events walks) (hended : ∀ w ∈ walks, w.IsEnded)

include h hended

/-- The blocks visited what they were given. -/
theorem visited_perm : (walks.flatMap Walk.visited).Perm lists.flatten := by
  rw [List.flatMap_congr fun w hw => (hended w hw).visited_eq, List.flatMap_def]
  exact h.origins.flatten

/-- Of every value that was not marked at the start, some block missed an element. -/
theorem length_unmarked_le :
    (p.unmarked (lists.flatten.map batch.value)).length ≤ (walks.flatMap Walk.missed).length := by
  have hsubset : p.unmarked (lists.flatten.map batch.value) ⊆
      (walks.flatMap Walk.missed).map batch.value := by
    intro value hvalue
    obtain ⟨hmem, hzero⟩ := Presence.mem_unmarked.mp hvalue
    obtain ⟨i, hi, rfl⟩ := List.mem_map.mp hmem
    rw [batch.getElem?_place, Option.some_inj] at hzero
    obtain ⟨j, hj, hplace⟩ := h.first i ((h.visited_perm hended).mem_iff.mpr hi) hzero
    rw [← Batch.value_eq_of_place_eq hplace]
    exact List.mem_map_of_mem hj
  have hlength := (List.subperm_of_subset (p.nodup_unmarked _) hsubset).length_le
  rwa [List.length_map] at hlength

/-- Every element was counted or missed. -/
theorem found_add_missed : m.found + (walks.flatMap Walk.missed).length = lists.flatten.length := by
  have horigin : (walks.flatMap Walk.origin).length = lists.flatten.length := by
    rw [List.flatMap_def]
    exact h.origins.flatten.length_eq
  rw [h.found, ← horigin, List.length_flatMap, List.length_flatMap, List.length_flatMap,
    ← List.sum_map_add]
  exact congrArg List.sum
    (List.map_congr_left fun w hw => (hended w hw).length_counted_add_missed)

/-- There are no more reports than elements beyond the first of each unmarked value. -/
theorem found_le :
    m.found + (p.unmarked (lists.flatten.map batch.value)).length ≤ lists.flatten.length := by
  have hsplit := h.found_add_missed hended
  have hmissed := h.length_unmarked_le hended
  omega

/-- There is a report for every element of a block beyond the first of each unmarked value. -/
theorem le_found :
    (lists.map fun list => list.length - (p.unmarked (list.map batch.value)).length).sum ≤
      m.found := by
  have hsum := (h.origins.map fun list =>
    list.length - (p.unmarked (list.map batch.value)).length).sum_nat
  rw [← hsum, List.map_map, h.found, List.length_flatMap]
  refine List.sum_le_sum fun w hw => ?_
  have hmissed := h.length_missed_le hw
  have hsplit := (hended w hw).length_counted_add_missed
  change w.origin.length - (p.unmarked (w.origin.map batch.value)).length ≤ w.counted.length
  omega

/-- The warnings are about as many elements as were counted, no element twice. -/
theorem exists_warned (hnodup : lists.flatten.Nodup) :
    ∃ indices : List batch.Index, indices.Nodup ∧ indices.length = m.found ∧
      events.Perm (indices.map batch.warning) := by
  refine ⟨walks.flatMap Walk.warned, ?_, ?_, h.warned⟩
  · have hvisited := (h.visited_perm hended).nodup_iff.mpr hnodup
    refine hvisited.sublist (List.Sublist.flatMap_right walks fun w hw => ?_)
    rw [(hended w hw).warned_eq]
    exact reportedOf_sublist w.visits
  · rw [h.found, List.flatMap_congr fun w hw => (hended w hw).warned_eq,
      List.flatMap_congr fun w hw => (hended w hw).counted_eq]

/-- The flags of all elements are marked, and no others have changed. -/
theorem flags :
    (∀ i ∈ lists.flatten, m.presence.get (batch.place i) = 1) ∧
      ∀ place, (∀ i ∈ lists.flatten, batch.place i ≠ place) →
        m.presence.get place = p.get place := by
  have hmarked : (walks.flatMap Walk.marked).Perm lists.flatten := by
    rw [List.flatMap_congr fun w hw => (hended w hw).marked_eq, List.flatMap_def]
    exact h.origins.flatten
  exact ⟨fun i hi => h.flagged i (hmarked.mem_iff.mpr hi), fun place hplace =>
    h.kept place fun i hi => hplace i (hmarked.mem_iff.mp hi)⟩

end Ended

/-- Whatever the schedule, the blocks come to their ends without a fault. -/
theorem exists_together (p : Presence length) (lists : List (List batch.Index))
    (schedule : List Nat) :
    ∃ m events walks,
      Routine.together schedule (lists.map fun list => (Walk.fresh list).routine) ⟨p, 0⟩ =
        ⟨m, events, .ok ()⟩ ∧
      Walking p lists m events walks ∧ ∀ w ∈ walks, w.IsEnded := by
  let start : Crew (Marking length) (Marking.Access length) Marking.Access.Answer Unit :=
    ⟨⟨p, 0⟩, lists.map fun list => (Walk.fresh list).routine, []⟩
  obtain ⟨rest, hrest⟩ := (start.follow schedule).exists_complete_eq_follow
  rw [← Crew.follow_append] at hrest
  have hfinished := (start.follow schedule).isFinished_complete
  rw [hrest] at hfinished
  obtain ⟨walks, hmembers, hwalks⟩ := follow p lists (schedule ++ rest)
  change (start.follow (schedule ++ rest)).members = _ at hmembers
  have hended : ∀ w ∈ walks, w.IsEnded := fun w hw =>
    Walk.isEnded_of_isFinished (hfinished _ (hmembers ▸ List.mem_map_of_mem hw))
  have houtcome : (start.follow (schedule ++ rest)).members.forM Routine.outcome = .ok () := by
    refine forM_eq_ok_iff.mpr fun routine hroutine => ?_
    rw [hmembers] at hroutine
    obtain ⟨w, hw, rfl⟩ := List.mem_map.mp hroutine
    rw [(hended w hw).routine_eq]
    rfl
  refine ⟨_, _, walks, ?_, hwalks, hended⟩
  change (⟨(start.follow schedule).complete.memory, (start.follow schedule).complete.events,
    (start.follow schedule).complete.members.forM Routine.outcome⟩ : Outcome Fault _ Unit) = _
  rw [hrest, houtcome]

end Walking

end Validation

end IdCompaction
