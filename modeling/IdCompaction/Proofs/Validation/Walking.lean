import IdCompaction.Proofs.Crew
import IdCompaction.Proofs.Validation.Walk
import Mathlib.Data.List.Nodup
import Mathlib.Data.List.Perm.Basic

/-!
# The invariant of walks on one presence map

However the steps of several blocks are interleaved, a flag is marked if some block marked it, and
otherwise it is as it was at the start; each count and each warning is a visit's own. Two things
bound the number of visits that found their flags unmarked. One block finds no value unmarked twice,
nor a value that was marked at the start, since it marks every value before it goes on. And of each
value that was not marked at the start, somebody's first visit found it unmarked. Each of the five
things that a block can do keeps this, whatever the other blocks have under way.
-/

namespace IdCompaction.Validation

variable {length : Nat} {batch : Batch length}

/-- Blocks walk over the lists `lists` of a batch's elements, on a map that was `p` at the start. -/
structure Walking (p : Presence length) (lists : List (List batch.Index)) (m : Marking length)
    (events : List Event) (walks : List (Walk batch)) : Prop where
  origins : (walks.map Walk.origin).Perm lists
  flagged : ∀ i ∈ walks.flatMap Walk.marked, m.presence.get (batch.place i) = 1
  kept : ∀ place, (∀ i ∈ walks.flatMap Walk.marked, batch.place i ≠ place) →
    m.presence.get place = p.get place
  found : m.found = (walks.flatMap Walk.counted).length
  warned : events.Perm ((walks.flatMap Walk.warned).map batch.warning)
  /-- One block misses no value twice. -/
  distinct : ∀ missed ∈ walks.map Walk.missed, (missed.map batch.place).Nodup
  /-- What was missed was not marked at the start. -/
  unmarked : ∀ i ∈ walks.flatMap Walk.missed, p.get (batch.place i) = 0
  /-- Of a visited value that was not marked at the start, some block missed an element. -/
  first : ∀ i ∈ walks.flatMap Walk.visited, p.get (batch.place i) = 0 →
    ∃ j ∈ walks.flatMap Walk.missed, batch.place j = batch.place i

namespace Walking

variable {p : Presence length} {lists : List (List batch.Index)} {m : Marking length}
  {events : List Event} {walks others : List (Walk batch)} {ended : List (batch.Index × Bool)}
  {i : batch.Index} {rest : List batch.Index}

/-- The order in which walks are listed does not matter. -/
theorem perm (hperm : walks.Perm others) (h : Walking p lists m events walks) :
    Walking p lists m events others where
  origins := (hperm.map _).symm.trans h.origins
  flagged i hi := h.flagged i ((hperm.flatMap_right Walk.marked).mem_iff.mpr hi)
  kept place hplace := h.kept place fun i hi =>
    hplace i ((hperm.flatMap_right Walk.marked).mem_iff.mp hi)
  found := h.found.trans (hperm.flatMap_right Walk.counted).length_eq
  warned := h.warned.trans ((hperm.flatMap_right Walk.warned).map batch.warning)
  distinct missed hmissed := h.distinct missed ((hperm.map Walk.missed).mem_iff.mpr hmissed)
  unmarked i hi := h.unmarked i ((hperm.flatMap_right Walk.missed).mem_iff.mpr hi)
  first i hi hzero := by
    obtain ⟨j, hj, hplace⟩ := h.first i ((hperm.flatMap_right Walk.visited).mem_iff.mpr hi) hzero
    exact ⟨j, (hperm.flatMap_right Walk.missed).mem_iff.mp hj, hplace⟩

/-! ## The steps of a walk -/

/-- What a step adds to a view of its own walk, it adds to the view of all walks. -/
theorem flatMap_front_perm {β : Type} (others : List (Walk batch)) {view : Walk batch → List β}
    {w w' : Walk batch} {x : β} (hview : view w' = view w ++ [x]) :
    ((w' :: others).flatMap view).Perm ((w :: others).flatMap view ++ [x]) := by
  rw [List.flatMap_cons, List.flatMap_cons, hview, List.append_assoc, List.append_assoc]
  exact List.perm_append_comm.append_left (view w)

/-- Views that a step leaves alone in its own walk stay as they are. -/
theorem flatMap_front_eq {β : Type} (others : List (Walk batch)) {view : Walk batch → List β}
    {w w' : Walk batch} (hview : view w' = view w) :
    (w' :: others).flatMap view = (w :: others).flatMap view := by
  rw [List.flatMap_cons, List.flatMap_cons, hview]

/-- A flag that is not marked: nobody marked it, and it was not marked at the start. -/
theorem readUnmarked (h : Walking p lists m events (⟨ended, .between, i :: rest⟩ :: others))
    (hflag : m.presence.get (batch.place i) = 0) :
    Walking p lists m events (⟨ended, .marking i false, rest⟩ :: others) := by
  have hnobody : ∀ j ∈ (⟨ended, .between, i :: rest⟩ :: others : List (Walk batch)).flatMap
      Walk.marked, batch.place j ≠ batch.place i := by
    intro j hj hplace
    have hone := h.flagged j hj
    rw [hplace, hflag] at hone
    cases hone
  have hstart : p.get (batch.place i) = 0 := by
    rw [← h.kept _ hnobody, hflag]
  have hmissed := flatMap_front_perm others (Walk.missed_marking_false ended i rest)
  have hvisited := flatMap_front_perm others (Walk.visited_marking ended i rest false)
  refine ⟨?_, h.flagged, h.kept, h.found, h.warned, ?_, ?_, ?_⟩
  · rw [List.map_cons, Walk.origin_marking]
    exact h.origins
  · obtain ⟨hfront, hothers⟩ := List.forall_mem_cons.mp h.distinct
    refine List.forall_mem_cons.mpr ⟨?_, hothers⟩
    rw [Walk.missed_marking_false, List.map_append]
    refine List.nodup_append.mpr ⟨hfront, List.nodup_singleton _, ?_⟩
    -- what the block missed before, it has marked since
    intro place hplace other hother
    obtain ⟨j, hj, rfl⟩ := List.mem_map.mp hplace
    rw [List.map_singleton, List.mem_singleton] at hother
    rw [hother]
    refine hnobody j (List.mem_flatMap.mpr ⟨_, List.mem_cons_self, ?_⟩)
    exact Walk.mem_marked_of_mem_missed hj
  · intro j hj
    rcases List.mem_append.mp (hmissed.mem_iff.mp hj) with hj | hj
    · exact h.unmarked j hj
    · rwa [List.mem_singleton.mp hj]
  · intro j hj hzero
    rcases List.mem_append.mp (hvisited.mem_iff.mp hj) with hj | hj
    · obtain ⟨k, hk, hplace⟩ := h.first j hj hzero
      exact ⟨k, hmissed.mem_iff.mpr (List.mem_append_left _ hk), hplace⟩
    · exact ⟨j, hmissed.mem_iff.mpr (List.mem_append_right _ hj), rfl⟩

/-- A flag that is marked: it was marked at the start, or some block found it unmarked. -/
theorem readMarked (h : Walking p lists m events (⟨ended, .between, i :: rest⟩ :: others))
    (hflag : m.presence.get (batch.place i) ≠ 0) :
    Walking p lists m events (⟨ended, .found i, rest⟩ :: others) := by
  have hmissed := flatMap_front_eq others (Walk.missed_found ended i rest)
  have hvisited := flatMap_front_perm others (Walk.visited_found ended i rest)
  refine ⟨?_, h.flagged, h.kept, h.found, h.warned, ?_, ?_, ?_⟩
  · rw [List.map_cons, Walk.origin_found]
    exact h.origins
  · rw [List.map_cons, Walk.missed_found]
    exact h.distinct
  · rw [hmissed]
    exact h.unmarked
  · intro j hj hzero
    rw [hmissed]
    rcases List.mem_append.mp (hvisited.mem_iff.mp hj) with hj | hj
    · exact h.first j hj hzero
    · -- whoever marked the flag visited the value before
      rw [List.mem_singleton.mp hj] at hzero ⊢
      by_contra hnone
      refine hflag ((h.kept _ fun k hk hplace => hnone ?_).trans hzero)
      obtain ⟨w, hw, hk⟩ := List.mem_flatMap.mp hk
      rw [← hplace] at hzero
      obtain ⟨l, hl, hsame⟩ :=
        h.first k (List.mem_flatMap.mpr ⟨w, hw, Walk.mem_visited_of_mem_marked hk⟩) hzero
      exact ⟨l, hl, hsame.trans hplace⟩

/-- A warning is that of the visit under way. -/
theorem warn (h : Walking p lists m events (⟨ended, .found i, rest⟩ :: others)) :
    Walking p lists m (events ++ [batch.warning i]) (⟨ended, .warned i, rest⟩ :: others) := by
  refine ⟨h.origins, h.flagged, h.kept, h.found, ?_, h.distinct, h.unmarked, h.first⟩
  have hwarned := flatMap_front_perm others (Walk.warned_warned ended i rest)
  have hmore := (hwarned.map batch.warning).symm
  rw [List.map_append] at hmore
  exact (h.warned.append_right _).trans hmore

/-- A count is that of the visit under way. -/
theorem count (h : Walking p lists m events (⟨ended, .warned i, rest⟩ :: others)) :
    Walking p lists { m with found := m.found + 1 } events
      (⟨ended, .marking i true, rest⟩ :: others) := by
  refine ⟨h.origins, h.flagged, h.kept, ?_, h.warned, h.distinct, h.unmarked, h.first⟩
  have hcounted := flatMap_front_perm others (Walk.counted_marking_true ended i rest)
  rw [hcounted.length_eq, List.length_append, List.length_singleton, ← h.found]

/-- Marking ends the visit. -/
theorem mark {reported : Bool}
    (h : Walking p lists m events (⟨ended, .marking i reported, rest⟩ :: others)) :
    Walking p lists { m with presence := m.presence.put (batch.place i) 1 } events
      (⟨ended ++ [(i, reported)], .between, rest⟩ :: others) := by
  have hmarked := flatMap_front_perm others (Walk.marked_ended ended i rest reported)
  have hvisited := flatMap_front_eq others (Walk.visited_ended ended i rest reported)
  have hmissed := flatMap_front_eq others (Walk.missed_ended ended i rest reported)
  have hcounted := flatMap_front_eq others (Walk.counted_ended ended i rest reported)
  have hwarned := flatMap_front_eq others (Walk.warned_ended ended i rest reported)
  refine ⟨?_, ?_, ?_, ?_, ?_, ?_, ?_, ?_⟩
  · rw [List.map_cons, Walk.origin_ended]
    exact h.origins
  · intro j hj
    rw [Buffer.get_put]
    -- elements of one value share the flag
    by_cases hsame : batch.place i = batch.place j
    · rw [if_pos hsame]
    · rw [if_neg hsame]
      rcases List.mem_append.mp (hmarked.mem_iff.mp hj) with hj | hj
      · exact h.flagged j hj
      · exact absurd (congrArg batch.place (List.mem_singleton.mp hj).symm) hsame
  · intro place hplace
    have hother : batch.place i ≠ place :=
      hplace i (hmarked.mem_iff.mpr (List.mem_append_right _ List.mem_cons_self))
    rw [Buffer.get_put, if_neg hother]
    exact h.kept place fun j hj =>
      hplace j (hmarked.mem_iff.mpr (List.mem_append_left _ hj))
  · rw [hcounted]
    exact h.found
  · rw [hwarned]
    exact h.warned
  · rw [List.map_cons, Walk.missed_ended]
    exact h.distinct
  · rw [hmissed]
    exact h.unmarked
  · rw [hvisited, hmissed]
    exact h.first

/-! ## Schedules -/

variable {w : Walk batch}

/-- A report of the block whose turn it is. -/
theorem report (h : Walking p lists m events (w :: others)) {event : Event}
    {next : Marking.Routine length Unit} (hroutine : w.routine = .report event next) :
    ∃ w' : Walk batch, next = w'.routine ∧
      Walking p lists m (events ++ [event]) (w' :: others) := by
  obtain ⟨ended, stage, rest⟩ := w
  cases stage with
  | between =>
    cases rest with
    | nil => cases hroutine
    | cons i rest =>
      rw [Walk.routine_between_cons] at hroutine
      cases hroutine
  | found i =>
    rw [Walk.routine_found] at hroutine
    cases hroutine
    exact ⟨_, rfl, h.warn⟩
  | warned i => cases hroutine
  | marking i reported => cases hroutine

/-- An access of the block whose turn it is. -/
theorem access (h : Walking p lists m events (w :: others)) {op : Marking.Access length}
    {next : op.Answer → Marking.Routine length Unit} (hroutine : w.routine = .access op next) :
    ∃ w' : Walk batch, next (op.apply m).1 = w'.routine ∧
      Walking p lists (op.apply m).2 events (w' :: others) := by
  obtain ⟨ended, stage, rest⟩ := w
  cases stage with
  | between =>
    cases rest with
    | nil => cases hroutine
    | cons i rest =>
      rw [Walk.routine_between_cons] at hroutine
      cases hroutine
      by_cases hflag : m.presence.get (batch.place i) = 0
      · exact ⟨_, if_neg (not_not.mpr hflag), h.readUnmarked hflag⟩
      · exact ⟨_, if_pos hflag, h.readMarked hflag⟩
  | found i => cases hroutine
  | warned i =>
    rw [Walk.routine_warned] at hroutine
    cases hroutine
    exact ⟨_, rfl, h.count⟩
  | marking i reported =>
    rw [Walk.routine_marking] at hroutine
    cases hroutine
    exact ⟨_, rfl, h.mark⟩

/-- Blocks that have not begun. -/
theorem begin (p : Presence length) (lists : List (List batch.Index)) :
    Walking p lists ⟨p, 0⟩ [] (lists.map Walk.fresh) := by
  -- a block that has not begun shows nothing
  have hempty {β : Type} (view : Walk batch → List β) (hview : ∀ list, view (.fresh list) = []) :
      (lists.map Walk.fresh).flatMap view = [] := by
    rw [List.flatMap_map]
    exact List.flatMap_eq_nil_iff.mpr fun list _ => hview list
  have hmarked := hempty Walk.marked fun _ => rfl
  have hmissed := hempty Walk.missed fun _ => rfl
  refine ⟨?_, ?_, fun _ _ => rfl, ?_, ?_, ?_, ?_, ?_⟩
  · rw [List.map_map]
    exact .of_eq (List.map_id lists)
  · rw [hmarked]
    exact List.forall_mem_nil _
  · rw [hempty Walk.counted fun _ => rfl]
    rfl
  · rw [hempty Walk.warned fun _ => rfl]
    exact .refl _
  · rw [List.map_map]
    exact List.forall_mem_map.mpr fun _ _ => List.nodup_nil
  · rw [hmissed]
    exact List.forall_mem_nil _
  · rw [hempty Walk.visited fun _ => rfl]
    exact List.forall_mem_nil _

/-- Walks tell where the blocks are after every schedule. -/
theorem follow (p : Presence length) (lists : List (List batch.Index)) (schedule : List Nat) :
    Crew.Told Walk.routine (Walking p lists)
      (Crew.follow ⟨⟨p, 0⟩, lists.map fun list => (Walk.fresh list).routine, []⟩ schedule) := by
  have hmembers : (lists.map fun list => (Walk.fresh list).routine) =
      (lists.map Walk.fresh).map Walk.routine := by
    rw [List.map_map]
    rfl
  refine Crew.follow_induction ⟨_, hmembers, begin p lists⟩ (fun crew turn hcrew => ?_) schedule
  exact Crew.Told.advance (P := Walking p lists) perm (fun h => h.report) (fun h => h.access)
    hcrew turn

end Walking

end IdCompaction.Validation
