import IdCompaction.Proofs.Loop
import IdCompaction.Proofs.Rely

/-!
# Routines at work together

Any interleaving that brings all routines to their ends is the action of its own schedule. What each
of them comes to whatever the others do, they come to together. The empty schedule gives no turns at
all, so its action is that of the routines one after another.
-/

namespace IdCompaction.Routine

variable {σ Op : Type} {Answer : Op → Type} [SharedMemory σ Op Answer]

/-- A schedule that brings all routines to their ends is all that happens. -/
theorem together_of_isFinished {schedule : List Nat} {members : List (Routine Op Answer Unit)}
    {s : σ} {last : Crew σ Op Answer Unit} (h : Crew.follow ⟨s, members, []⟩ schedule = last)
    (hfinished : last.IsFinished) :
    together schedule members s = ⟨last.memory, last.events, last.members.forM outcome⟩ := by
  rw [together, h, Crew.complete_of_isFinished hfinished]

/-- Routines that make no step have nothing to take turns at. -/
theorem together_of_forall_isFinished {members : List (Routine Op Answer Unit)}
    (h : ∀ routine ∈ members, routine.isFinished = true) (schedule : List Nat) (s : σ) :
    together schedule members s = ⟨s, [], members.forM outcome⟩ := by
  have hfinished : (⟨s, members, []⟩ : Crew σ Op Answer Unit).IsFinished := h
  exact together_of_isFinished (Crew.follow_of_isFinished hfinished schedule) hfinished

/-- Routines at their ends answer with the first fault that one of them comes to. -/
theorem forM_outcome_of_settles {inv : σ → Prop} {results : List (Except Fault Unit)}
    {members : List (Routine Op Answer Unit)} (h : List.Forall₂ (Settles inv) results members)
    (hfinished : ∀ routine ∈ members, routine.isFinished = true) :
    members.forM outcome = results.forM id := by
  induction h with
  | nil => rfl
  | @cons result routine results members hfirst _ ih =>
    obtain ⟨hhead, htail⟩ := List.forall_mem_cons.mp hfinished
    have houtcome : routine.outcome = result := by
      rw [hfirst.eq_ofExcept hhead]
      cases result <;> rfl
    change (routine.outcome >>= fun _ => members.forM outcome) =
      (result >>= fun _ => results.forM id)
    rw [houtcome, ih htail]

/-- Routines that keep an invariant keep it together, and the first fault that one of them comes to
is the answer. -/
theorem together_of_settles {inv : σ → Prop} {results : List (Except Fault Unit)}
    {members : List (Routine Op Answer Unit)} {s : σ} (hinv : inv s)
    (h : List.Forall₂ (Settles inv) results members) (schedule : List Nat) :
    inv (together schedule members s).state ∧
      (together schedule members s).result = results.forM id := by
  obtain ⟨rest, hrest⟩ := (Crew.follow ⟨s, members, []⟩ schedule).exists_complete_eq_follow
  rw [← Crew.follow_append] at hrest
  have hfinished := Crew.isFinished_complete (Crew.follow ⟨s, members, []⟩ schedule)
  rw [hrest] at hfinished
  obtain ⟨hlast, hsettles⟩ := Crew.settles_follow ⟨s, members, []⟩ hinv h (schedule ++ rest)
  rw [together, hrest]
  exact ⟨hlast, forM_outcome_of_settles hsettles hfinished⟩

/-- Routines that visit things, each of which comes to a fault of its own or to none, come to the
first of these faults, and keep the invariant that the visits keep. -/
theorem together_of_visits {ι : Type} {inv : σ → Prop} {visit : ι → Routine Op Answer Unit}
    {fault? : ι → Option Fault} {lists : List (List ι)} {s : σ} (hinv : inv s)
    (h : ∀ i ∈ lists.flatten, (visit i).Settles inv ((fault? i).elim (.ok ()) .error))
    (schedule : List Nat) :
    inv (together schedule (lists.map fun list => list.forM visit) s).state ∧
      (together schedule (lists.map fun list => list.forM visit) s).result =
        (lists.flatten.findSome? fault?).elim (.ok ()) .error := by
  have hmembers : List.Forall₂ (Settles inv)
      (lists.map fun list => (list.findSome? fault?).elim (.ok ()) .error)
      (lists.map fun list => list.forM visit) := by
    rw [List.forall₂_map_left_iff, List.forall₂_map_right_iff, List.forall₂_same]
    exact fun list hlist => .forM list fun i hi => h i (List.mem_flatten_of_mem hlist hi)
  rw [← forM_findSome?]
  exact together_of_settles hinv hmembers schedule

/-! ## What every access keeps -/

section Kept

variable {P : σ → Prop} (hop : ∀ (op : Op) (s : σ), P s → P (SharedMemory.apply op s).2)

include hop

/-- What every access keeps, a routine on its own keeps. -/
theorem state_perform_induction {α : Type} (r : Routine Op Answer α) {s : σ} (h : P s) :
    P (r.perform s : Outcome Fault σ α).state := by
  induction r generalizing s with
  | done value => exact h
  | stop fault => exact h
  | report event next ih => exact ih h
  | access op next ih => exact ih _ (hop op s h)

/-- What every access keeps, each step of a crew keeps. -/
theorem memory_advance_induction {α : Type} {crew : Crew σ Op Answer α} (h : P crew.memory)
    (turn : Nat) : P (crew.advance turn).memory := by
  unfold Crew.advance
  split
  · exact h
  · exact hop _ crew.memory h
  · exact h

/-- What every access keeps, routines keep together. -/
theorem state_together_induction (schedule : List Nat) (members : List (Routine Op Answer Unit))
    {s : σ} (h : P s) : P (together schedule members s).state := by
  obtain ⟨rest, hrest⟩ := (Crew.follow ⟨s, members, []⟩ schedule).exists_complete_eq_follow
  rw [together, hrest, ← Crew.follow_append]
  exact Crew.follow_induction (P := fun crew => P crew.memory) h
    (fun _ turn hcrew => memory_advance_induction hop hcrew turn) (schedule ++ rest)

end Kept

/-! ## A single routine at work -/

/-- A member at work among members that are done: what it has left to do is what it would do alone
from here. -/
def Alone (r : Routine Op Answer Unit) (s : σ) (before after : List (Routine Op Answer Unit))
    (crew : Crew σ Op Answer Unit) : Prop :=
  ∃ left : Routine Op Answer Unit, crew.members = before ++ left :: after ∧
    r.perform s = ⟨(left.perform crew.memory : Outcome Fault σ Unit).state,
      crew.events ++ (left.perform crew.memory).events, (left.perform crew.memory).result⟩

section Alone

variable {r : Routine Op Answer Unit} {s : σ} {before after : List (Routine Op Answer Unit)}
  (hbefore : ∀ routine ∈ before, routine = .done ())
  (hafter : ∀ routine ∈ after, routine = .done ())

include hbefore hafter

/-- Only the member at work makes steps. -/
theorem Alone.advance {crew : Crew σ Op Answer Unit} (h : Alone r s before after crew)
    (turn : Nat) : Alone r s before after (crew.advance turn) := by
  obtain ⟨left, hmembers, hperform⟩ := h
  have hset (next : Routine Op Answer Unit) :
      crew.members.set before.length next = before ++ next :: after := by
    rw [hmembers, List.set_append_right _ _ (Nat.le_refl _), Nat.sub_self, List.set_cons_zero]
  by_cases hturn : turn = before.length
  · subst hturn
    have hmember : crew.members[before.length]? = some left := by
      rw [hmembers, List.getElem?_append_right (Nat.le_refl _), Nat.sub_self]
      rfl
    unfold Crew.advance
    rw [hmember]
    cases left with
    | done value => exact ⟨.done value, hmembers, hperform⟩
    | stop fault => exact ⟨.stop fault, hmembers, hperform⟩
    | report event next =>
      refine ⟨next, hset next, ?_⟩
      rw [hperform, List.append_assoc]
      rfl
    | access op next => exact ⟨_, hset _, hperform⟩
  · -- the others are done, so a turn of theirs changes nothing
    have hdone (routine : Routine Op Answer Unit) (hmember : crew.members[turn]? = some routine) :
        routine = .done () := by
      rw [hmembers] at hmember
      rcases Nat.lt_or_gt_of_ne hturn with hlt | hgt
      · rw [List.getElem?_append_left hlt] at hmember
        exact hbefore routine (List.mem_of_getElem? hmember)
      · obtain ⟨offset, rfl⟩ := Nat.exists_eq_add_of_lt hgt
        rw [List.getElem?_append_right (by omega), Nat.add_assoc, Nat.add_sub_cancel_left,
          List.getElem?_cons_succ] at hmember
        exact hafter routine (List.mem_of_getElem? hmember)
    have hsame : crew.advance turn = crew := by
      unfold Crew.advance
      rcases hmember : crew.members[turn]? with _ | routine
      · rfl
      · rw [hdone routine hmember]
    rw [hsame]
    exact ⟨left, hmembers, hperform⟩

/-- A single routine at work does what it does alone, whatever turns it is given. -/
theorem together_of_alone (r : Routine Op Answer Unit) (s : σ) (schedule : List Nat) :
    together schedule (before ++ r :: after) s = r.perform s := by
  obtain ⟨rest, hrest⟩ :=
    (Crew.follow ⟨s, before ++ r :: after, []⟩ schedule).exists_complete_eq_follow
  have hfinished := Crew.isFinished_complete (Crew.follow ⟨s, before ++ r :: after, []⟩ schedule)
  rw [← Crew.follow_append] at hrest
  obtain ⟨left, hmembers, hperform⟩ : Alone r s before after
      (Crew.follow ⟨s, before ++ r :: after, []⟩ schedule).complete := by
    rw [hrest]
    exact Crew.follow_induction ⟨r, rfl, rfl⟩
      (fun _ turn h => h.advance hbefore hafter turn) (schedule ++ rest)
  -- the others are done, so the answer is that of the one at work
  have houtcome : (before ++ left :: after).forM outcome = left.outcome := by
    have hdone {list : List (Routine Op Answer Unit)} (h : ∀ routine ∈ list, routine = .done ()) :
        list.forM outcome = .ok () :=
      forM_eq_ok_iff.mpr fun routine hroutine => h routine hroutine ▸ rfl
    calc (before ++ left :: after).forM outcome
        = (before.forM outcome >>= fun _ => (left :: after).forM outcome) := List.forM_append
      _ = (left.outcome >>= fun _ => after.forM outcome) := by
        rw [hdone hbefore]
        rfl
      _ = left.outcome := by
        rw [hdone hafter]
        rcases left.outcome with fault | _ <;> rfl
  rw [hperform, together, hmembers, houtcome]
  have hend := hfinished left (hmembers ▸ List.mem_append_right before List.mem_cons_self)
  cases left with
  | done value => simp [perform, outcome, Action.pure_apply]
  | stop fault => simp [perform, outcome, Action.fail]
  | report event next => cases hend
  | access op next => cases hend

end Alone

/-! ## Without any turns -/

/-- Routines one after another, each to its own end; the first fault is the answer. -/
def inTurn : List (Routine Op Answer Unit) → Action Fault σ Unit
  | [] => pure ()
  | first :: rest => Action.both first.perform fun _ => inTurn rest

/-- Members that go on to their ends, one after another, do what they do in turn. -/
theorem exists_foldl_finish (members : List (Routine Op Answer Unit)) :
    ∀ (before : List (Routine Op Answer Unit)) (s : σ) (events : List Event),
      ∃ ended : List (Routine Op Answer Unit), ended.forM outcome = (inTurn members s).result ∧
        (List.range' before.length members.length).foldl Crew.finish
            ⟨s, before ++ members, events⟩ =
          ⟨(inTurn members s).state, before ++ ended, events ++ (inTurn members s).events⟩ := by
  -- the induction is on the members still to go; those before them are at their ends
  induction members with
  | nil =>
    intro before s events
    refine ⟨[], rfl, ?_⟩
    rw [List.length_nil, List.range'_zero, List.foldl_nil]
    change (⟨s, before ++ [], events⟩ : Crew σ Op Answer Unit) = ⟨s, before ++ [], events ++ []⟩
    rw [List.append_nil events]
  | cons first rest ih =>
    intro before s events
    rcases hperform : (first.perform s : Outcome Fault σ Unit) with ⟨s', events', result⟩
    have hmember : (before ++ first :: rest)[before.length]? = some first := by simp
    have hset : (before ++ first :: rest).set before.length (ofExcept result) =
        (before ++ [ofExcept result]) ++ rest := by simp
    have hfinish : Crew.finish ⟨s, before ++ first :: rest, events⟩ before.length =
        ⟨s', (before ++ [ofExcept result]) ++ rest, events ++ events'⟩ := by
      rw [Crew.finish_of_perform hmember hperform, hset]
    obtain ⟨ended, houtcome, hlater⟩ := ih (before ++ [ofExcept result]) s' (events ++ events')
    rw [List.length_append, List.length_singleton] at hlater
    have hturn := Action.both_of_apply (inTurn rest) hperform
    refine ⟨ofExcept result :: ended, ?_, ?_⟩
    · rw [inTurn, hturn, ← houtcome]
      cases result <;> rfl
    · rw [inTurn, List.length_cons, List.range'_succ, List.foldl_cons, hfinish, hlater, hturn]
      simp

/-- Without any turns, members go on to their ends one after another. -/
theorem together_nil_eq_inTurn (members : List (Routine Op Answer Unit)) :
    (together [] members : Action Fault σ Unit) = inTurn members := by
  funext s
  obtain ⟨ended, houtcome, hcomplete⟩ := exists_foldl_finish members [] s []
  rw [List.nil_append, List.length_nil, ← List.range_eq_range'] at hcomplete
  rw [together, Crew.follow_nil, Crew.complete, hcomplete]
  change (⟨_, _, ended.forM outcome⟩ : Outcome Fault σ Unit) = _
  rw [houtcome]
  rfl

/-- A single routine has all turns to itself. -/
theorem together_nil_singleton (r : Routine Op Answer Unit) :
    (together [] [r] : Action Fault σ Unit) = r.perform := by
  rw [together_nil_eq_inTurn]
  exact Action.both_pure r.perform

/-- Without a fault, routines in turn are routines in sequence. -/
theorem inTurn_of_ok {members : List (Routine Op Answer Unit)} {s : σ}
    (h : (members.forM (perform : _ → Action Fault σ Unit) s).result = .ok ()) :
    inTurn members s = members.forM perform s := by
  induction members generalizing s with
  | nil => rfl
  | cons first rest ih =>
    obtain ⟨hfirst, hrest⟩ := Action.result_seq_eq_ok_iff.mp h
    have hx := Action.apply_of_result hfirst
    rw [inTurn, Action.both_of_ok hfirst, Action.forM_cons, Action.bind_apply_ok _ hx,
      Action.bind_apply_ok _ hx, ih hrest]

/-- Without any turns, and without a fault, members work in sequence. -/
theorem together_nil {members : List (Routine Op Answer Unit)} {s : σ}
    (h : (members.forM (perform : _ → Action Fault σ Unit) s).result = .ok ()) :
    together [] members s = members.forM perform s := by
  rw [together_nil_eq_inTurn, inTurn_of_ok h]

end IdCompaction.Routine
