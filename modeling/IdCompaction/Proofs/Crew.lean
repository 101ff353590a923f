import IdCompaction.Routine.Crew
import Mathlib.Data.List.Basic
import Mathlib.Data.List.Perm.Basic

/-!
# Crews at work

Two things hold of every crew, whatever its routines do. What a member does with its answer once it
has it makes no access, so it changes nothing for the others. And no member ever waits for another:
each goes on alone to its end, so from every point of its work a crew can come to the end of it.
-/

namespace IdCompaction

namespace Crew

variable {σ Op : Type} {Answer : Op → Type} {α β : Type} [SharedMemory σ Op Answer]

/-- The crew whose members do something with their answers at the end. -/
def bindEach (crew : Crew σ Op Answer α) (f : α → Routine Op Answer β) : Crew σ Op Answer β :=
  ⟨crew.memory, crew.members.map fun routine => routine >>= f, crew.events⟩

/-- What a member does with its answer does not matter to a step if it is no step of its own. -/
theorem advance_bindEach {f : α → Routine Op Answer β} (hf : ∀ a, (f a).isFinished = true)
    (crew : Crew σ Op Answer α) (turn : Nat) :
    (crew.bindEach f).advance turn = (crew.advance turn).bindEach f := by
  have hmember : (crew.bindEach f).members[turn]? =
      crew.members[turn]?.map fun routine => routine >>= f := List.getElem?_map ..
  unfold advance
  rw [hmember]
  obtain _ | routine := crew.members[turn]?
  · rfl
  cases routine with
  | done a =>
    have hfinished := hf a
    rw [Option.map_some, Routine.done_bind]
    rcases hlast : f a with value | fault | ⟨event, next⟩ | ⟨op, next⟩
    · rfl
    · rfl
    · rw [hlast] at hfinished
      cases hfinished
    · rw [hlast] at hfinished
      cases hfinished
  | stop fault => rfl
  | report event next => simp [bindEach, List.map_set]
  | access op next => simp [bindEach, List.map_set]

/-- What the members do with their answers does not matter to a schedule. -/
theorem follow_bindEach {f : α → Routine Op Answer β} (hf : ∀ a, (f a).isFinished = true)
    (crew : Crew σ Op Answer α) (schedule : List Nat) :
    (crew.bindEach f).follow schedule = (crew.follow schedule).bindEach f := by
  induction schedule generalizing crew with
  | nil => rfl
  | cons turn schedule ih => rw [follow_cons, follow_cons, advance_bindEach hf, ih]

omit [SharedMemory σ Op Answer] in
/-- Nor does it matter to whether the members are finished. -/
theorem isFinished_bindEach {f : α → Routine Op Answer β} (hf : ∀ a, (f a).isFinished = true)
    (crew : Crew σ Op Answer α) : (crew.bindEach f).IsFinished ↔ crew.IsFinished := by
  have hmember (routine : Routine Op Answer α) :
      (routine >>= f).isFinished = routine.isFinished := by
    cases routine with
    | done a => exact hf a
    | stop fault => rfl
    | report event next => rfl
    | access op next => rfl
  simp only [IsFinished, bindEach, List.forall_mem_map, hmember]

/-! ## Going on to the end -/

/-- Going on alone is performing what the member has left to do. -/
theorem finish_of_perform {crew : Crew σ Op Answer α} {turn : Nat} {routine : Routine Op Answer α}
    {s : σ} {events : List Event} {result : Except Fault α}
    (h : crew.members[turn]? = some routine)
    (hperform : routine.perform crew.memory = ⟨s, events, result⟩) :
    crew.finish turn =
      ⟨s, crew.members.set turn (Routine.ofExcept result), crew.events ++ events⟩ := by
  rw [finish, h]
  simp only [hperform]

/-- A member that is at its end stays there. -/
theorem finish_of_ofExcept {crew : Crew σ Op Answer α} {turn : Nat} (result : Except Fault α)
    (h : crew.members[turn]? = some (Routine.ofExcept result)) : crew.finish turn = crew := by
  obtain ⟨_, hget⟩ := List.getElem?_eq_some_iff.mp h
  have hset : crew.members.set turn (Routine.ofExcept result) = crew.members := by
    rw [← hget, List.set_getElem_self]
  have hperform : (Routine.ofExcept result : Routine Op Answer α).perform crew.memory =
      (⟨crew.memory, [], result⟩ : Outcome Fault σ α) := by
    cases result <;> rfl
  rw [finish_of_perform h hperform, hset, List.append_nil]

/-- Going on alone is having all the turns for a while. -/
theorem exists_finish_eq_follow (crew : Crew σ Op Answer α) (turn : Nat) :
    ∃ steps, crew.finish turn = crew.follow (List.replicate steps turn) := by
  rcases hmember : crew.members[turn]? with _ | routine
  · refine ⟨0, ?_⟩
    rw [finish, hmember]
    rfl
  have hlt := (List.getElem?_eq_some_iff.mp hmember).1
  -- the routine is the tree of what is still to do, so the induction is on it
  induction routine generalizing crew with
  | done value => exact ⟨0, finish_of_ofExcept (.ok value) hmember⟩
  | stop fault => exact ⟨0, finish_of_ofExcept (.error fault) hmember⟩
  | report event next ih =>
    have hadvance : crew.advance turn =
        { crew with members := crew.members.set turn next, events := crew.events ++ [event] } := by
      rw [advance, hmember]
    have hnext : (crew.advance turn).members[turn]? = some next := by
      rw [hadvance, List.getElem?_set_self hlt]
    obtain ⟨steps, hsteps⟩ := ih (crew.advance turn) hnext (by rwa [length_members_advance])
    refine ⟨steps + 1, ?_⟩
    rw [List.replicate_succ, follow_cons, ← hsteps, finish, finish, hmember, hnext, hadvance]
    simp [Routine.perform, List.set_set]
  | access op next ih =>
    have hadvance : crew.advance turn =
        { crew with
          memory := (SharedMemory.apply op crew.memory).2
          members := crew.members.set turn (next (SharedMemory.apply op crew.memory).1) } := by
      rw [advance, hmember]
    have hnext : (crew.advance turn).members[turn]? =
        some (next (SharedMemory.apply op crew.memory).1) := by
      rw [hadvance, List.getElem?_set_self hlt]
    obtain ⟨steps, hsteps⟩ := ih _ (crew.advance turn) hnext (by rwa [length_members_advance])
    refine ⟨steps + 1, ?_⟩
    rw [List.replicate_succ, follow_cons, ← hsteps, finish, finish, hmember, hnext, hadvance]
    simp [Routine.perform, List.set_set]

/-- Going on to the ends, one member after another, is following a schedule. -/
theorem exists_foldl_finish_eq_follow (crew : Crew σ Op Answer α) (turns : List Nat) :
    ∃ schedule, turns.foldl finish crew = crew.follow schedule := by
  induction turns generalizing crew with
  | nil => exact ⟨[], rfl⟩
  | cons turn turns ih =>
    obtain ⟨steps, hsteps⟩ := crew.exists_finish_eq_follow turn
    obtain ⟨schedule, hschedule⟩ := ih (crew.finish turn)
    refine ⟨List.replicate steps turn ++ schedule, ?_⟩
    rw [List.foldl_cons, hschedule, hsteps, follow_append]

/-- No schedule makes members come or go. -/
theorem length_members_follow (crew : Crew σ Op Answer α) (schedule : List Nat) :
    (crew.follow schedule).members.length = crew.members.length := by
  induction schedule generalizing crew with
  | nil => rfl
  | cons turn schedule ih => rw [follow_cons, ih, length_members_advance]

/-- A result is an end. -/
theorem isFinished_ofExcept (result : Except Fault α) :
    (Routine.ofExcept result : Routine Op Answer α).isFinished = true := by
  cases result <;> rfl

/-- A member that went on alone is finished, and no other member has moved. -/
theorem exists_members_finish {crew : Crew σ Op Answer α} {turn : Nat}
    {routine : Routine Op Answer α} (h : crew.members[turn]? = some routine) :
    ∃ last : Routine Op Answer α, last.isFinished = true ∧
      (crew.finish turn).members = crew.members.set turn last := by
  refine ⟨_, isFinished_ofExcept (routine.perform crew.memory : Outcome Fault σ α).result, ?_⟩
  rw [finish, h]

/-- The first members are finished once they went on to their ends. -/
theorem isFinished_foldl_finish (crew : Crew σ Op Answer α) (count : Nat) :
    ∀ i < count, ∀ routine, ((List.range count).foldl finish crew).members[i]? = some routine →
      routine.isFinished = true := by
  induction count with
  | zero => exact fun i hi => absurd hi (Nat.not_lt_zero i)
  | succ count ih =>
    intro i hi routine hroutine
    rw [List.range_succ, List.foldl_append] at hroutine
    change ((((List.range count).foldl finish crew).finish count).members[i]? = _) at hroutine
    rcases hnext : ((List.range count).foldl finish crew).members[count]? with _ | next
    · rw [finish, hnext] at hroutine
      by_cases heq : i = count
      · rw [heq, hnext] at hroutine
        cases hroutine
      · exact ih i (by omega) routine hroutine
    · obtain ⟨last, hlast, hmembers⟩ := exists_members_finish hnext
      rw [hmembers, List.getElem?_set] at hroutine
      by_cases heq : count = i
      · rw [if_pos heq, if_pos (List.getElem?_eq_some_iff.mp hnext).1] at hroutine
        exact Option.some.inj hroutine ▸ hlast
      · rw [if_neg heq] at hroutine
        exact ih i (by omega) routine hroutine

/-- A complete crew is what some schedule leads to. -/
theorem exists_complete_eq_follow (crew : Crew σ Op Answer α) :
    ∃ schedule, crew.complete = crew.follow schedule :=
  crew.exists_foldl_finish_eq_follow _

/-- In a complete crew all members are finished. -/
theorem isFinished_complete (crew : Crew σ Op Answer α) : crew.complete.IsFinished := by
  intro routine hroutine
  obtain ⟨i, hi, hget⟩ := List.getElem_of_mem hroutine
  have hlength : crew.complete.members.length = crew.members.length := by
    obtain ⟨schedule, hschedule⟩ := crew.exists_complete_eq_follow
    rw [hschedule, length_members_follow]
  rw [hlength] at hi
  exact crew.isFinished_foldl_finish crew.members.length i hi routine
    (List.getElem?_eq_some_iff.mpr ⟨_, hget⟩)

/-- A crew whose members are finished is complete. -/
theorem complete_of_isFinished {crew : Crew σ Op Answer α} (h : crew.IsFinished) :
    crew.complete = crew := by
  refine List.foldl_fixed' (fun turn => ?_) _
  rcases hmember : crew.members[turn]? with _ | routine
  · rw [finish, hmember]
  have hfinished := h routine (List.mem_of_getElem? hmember)
  cases routine with
  | done value => exact finish_of_ofExcept (.ok value) hmember
  | stop fault => exact finish_of_ofExcept (.error fault) hmember
  | report event next => cases hfinished
  | access op next => cases hfinished

/-- A crew whose members are finished stays as it is. -/
theorem follow_of_isFinished {crew : Crew σ Op Answer α} (h : crew.IsFinished)
    (schedule : List Nat) : crew.follow schedule = crew := by
  refine List.foldl_fixed' (fun turn => ?_) schedule
  rw [advance]
  rcases hmember : crew.members[turn]? with _ | routine
  · rfl
  have hfinished := h routine (List.mem_of_getElem? hmember)
  cases routine with
  | done value => rfl
  | stop fault => rfl
  | report event next => cases hfinished
  | access op next => cases hfinished

/-- Every crew can go on until all its members are finished. -/
theorem exists_isFinished (crew : Crew σ Op Answer α) :
    ∃ schedule, (crew.follow schedule).IsFinished := by
  obtain ⟨schedule, hschedule⟩ := crew.exists_complete_eq_follow
  exact ⟨schedule, hschedule ▸ crew.isFinished_complete⟩

/-! ## Crews that are told by views -/

section Told

variable {ω : Type} {routine : ω → Routine Op Answer α} {P : σ → List Event → List ω → Prop}

/-- The members are what their views still have to do, and the views tell the memory and the events.
-/
def Told (routine : ω → Routine Op Answer α) (P : σ → List Event → List ω → Prop)
    (crew : Crew σ Op Answer α) : Prop :=
  ∃ views, crew.members = views.map routine ∧ P crew.memory crew.events views

/-- Views in any order that tell every step of the first of them tell every step of the crew. -/
theorem Told.advance
    (perm : ∀ {m events views views'}, List.Perm views views' → P m events views →
      P m events views')
    (report : ∀ {m events w others event next}, P m events (w :: others) →
      routine w = .report event next →
      ∃ w', next = routine w' ∧ P m (events ++ [event]) (w' :: others))
    (access : ∀ {m events w others op next}, P m events (w :: others) →
      routine w = .access op next →
      ∃ w', next (SharedMemory.apply op m).1 = routine w' ∧
        P (SharedMemory.apply op m).2 events (w' :: others))
    {crew : Crew σ Op Answer α} (h : crew.Told routine P) (turn : Nat) :
    (crew.advance turn).Told routine P := by
  obtain ⟨views, hmembers, hviews⟩ := h
  have hmember : crew.members[turn]? = views[turn]?.map routine := by
    rw [hmembers, List.getElem?_map]
  unfold Crew.advance
  rw [hmember]
  rcases hturn : views[turn]? with _ | w
  · exact ⟨views, hmembers, hviews⟩
  obtain ⟨hlt, hw⟩ := List.getElem?_eq_some_iff.mp hturn
  -- the view whose turn it is comes to the front, makes its step, and goes back to its place
  have hfront : views.Perm (w :: views.eraseIdx turn) := by
    rw [← hw]
    exact (List.getElem_cons_eraseIdx_perm hlt).symm
  have hback (w' : ω) : (w' :: views.eraseIdx turn).Perm (views.set turn w') :=
    (List.set_perm_cons_eraseIdx hlt w').symm
  rw [Option.map_some]
  rcases hroutine : routine w with value | fault | ⟨event, next⟩ | ⟨op, next⟩
  · exact ⟨views, hmembers, hviews⟩
  · exact ⟨views, hmembers, hviews⟩
  · obtain ⟨w', hnext, hstep⟩ := report (perm hfront hviews) hroutine
    refine ⟨views.set turn w', ?_, perm (hback w') hstep⟩
    rw [List.map_set, ← hnext, ← hmembers]
  · obtain ⟨w', hnext, hstep⟩ := access (perm hfront hviews) hroutine
    refine ⟨views.set turn w', ?_, perm (hback w') hstep⟩
    rw [List.map_set, ← hnext, ← hmembers]

end Told

end Crew

end IdCompaction
