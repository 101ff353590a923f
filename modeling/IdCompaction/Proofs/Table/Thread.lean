import IdCompaction.Routine.Crew
import IdCompaction.Table.Access
import Mathlib.Data.List.Basic

/-!
# Threads that claim lists of IDs

A thread claims the IDs of a list one after another until one of its calls faults. Its record keeps
the answers of the calls that returned, which a routine that stops at a fault does not give away,
and the fault. A worker is a thread caught between two of its accesses: what its calls answered so
far, how far the call under way has come, and what is left of its list. Every routine that a thread
can be at is the routine of a worker.
-/

namespace IdCompaction

namespace Routine

variable {Op : Type} {Answer : Op → Type} {α β : Type}

/-- The routine that answers with a fault instead of stopping at it. -/
def settle : Routine Op Answer α → Routine Op Answer (Except Fault α)
  | .done value => .done (.ok value)
  | .stop fault => .done (.error fault)
  | .report event next => .report event next.settle
  | .access op next => .access op fun answer => (next answer).settle

/-- Raising the fault again gives the routine back. -/
theorem settle_bind_ofExcept (r : Routine Op Answer α) :
    (r.settle >>= fun result => ofExcept result) = r := by
  induction r with
  | done value => rfl
  | stop fault => rfl
  | report event next ih => exact congrArg (Routine.report event) ih
  | access op next ih => exact congrArg (Routine.access op) (funext ih)

end Routine

namespace Table

/-- What a thread that claims IDs one after another has seen. -/
structure Record where
  /-- The IDs of the calls that returned, each with its answer. -/
  answers : List (Id × Bool)
  /-- The fault that stopped the thread, if one did. -/
  fault : Option Fault

/-- The IDs whose claims the answers report as made. -/
def wonOf (answers : List (Id × Bool)) : List Id := (answers.filter Prod.snd).map Prod.fst

/-- A call that won adds its ID. -/
@[simp] theorem wonOf_append_won (answers : List (Id × Bool)) (id : Id) :
    wonOf (answers ++ [(id, true)]) = wonOf answers ++ [id] := by
  simp [wonOf, List.filter_append]

/-- A call that lost adds nothing. -/
@[simp] theorem wonOf_append_lost (answers : List (Id × Bool)) (id : Id) :
    wonOf (answers ++ [(id, false)]) = wonOf answers := by
  simp [wonOf, List.filter_append]

/-- An ID that was won is the ID of a call that returned. -/
theorem mem_map_of_mem_wonOf {answers : List (Id × Bool)} {id : Id} (h : id ∈ wonOf answers) :
    id ∈ answers.map Prod.fst := by
  obtain ⟨entry, hentry, rfl⟩ := List.mem_map.mp h
  exact List.mem_map_of_mem (List.mem_of_mem_filter hentry)

variable {capacity : Nat}

/-- Claims IDs one after another up to the first fault, after calls with the answers `answers`. -/
def claimRecorded (answers : List (Id × Bool)) : List Id → Routine capacity Record
  | [] => .done ⟨answers, none⟩
  | id :: rest => do
    match ← (claimId id).settle with
    | .ok won => claimRecorded (answers ++ [(id, won)]) rest
    | .error fault => return ⟨answers, some fault⟩

/-- What is left of a record for a thread that only counts the claims it makes. -/
def tally (record : Record) : Routine capacity Nat :=
  match record.fault with
  | none => .done (wonOf record.answers).length
  | some fault => .stop fault

/-- Counting a record takes no step. -/
theorem isFinished_tally (record : Record) :
    (tally record : Routine capacity Nat).isFinished = true := by
  unfold tally
  cases record.fault <;> rfl

/-- Counting the claims made, or raising the fault again, makes a recorded thread the plain one. -/
theorem claimEach_eq_claimRecorded (answers : List (Id × Bool)) (ids : List Id) :
    (claimEach (wonOf answers).length ids : Routine capacity Nat) =
      claimRecorded answers ids >>= tally := by
  induction ids generalizing answers with
  | nil => rfl
  | cons id rest ih =>
    rw [claimEach, claimRecorded, bind_assoc]
    conv_lhs => rw [← Routine.settle_bind_ofExcept (claimId id), bind_assoc]
    congr 1
    funext result
    obtain fault | _ | _ := result
    · rfl
    · have hrest := ih (answers ++ [(id, false)])
      rw [wonOf_append_lost] at hrest
      exact hrest
    · have hrest := ih (answers ++ [(id, true)])
      rw [wonOf_append_won, List.length_append] at hrest
      exact hrest

/-- A plain thread that has not begun is a recorded one that counts in the end. -/
theorem claimEach_zero (ids : List Id) :
    (claimEach 0 ids : Routine capacity Nat) = claimRecorded [] ids >>= tally :=
  claimEach_eq_claimRecorded [] ids

/-! ## Workers -/

/-- How far the call under way of a thread has come. -/
inductive Phase (capacity : Nat)
  /-- No call is under way. -/
  | idle
  /-- The ID is claimed; its local ID comes next. -/
  | claimed (id : Id) (inRange : id.toNat < capacity)
  /-- The local ID is handed out; the slot comes next. -/
  | numbered (id : Id) (inRange : id.toNat < capacity) (number : Id)
  /-- The slot shows the local ID; the owner comes next. -/
  | published (id : Id) (place : Fin capacity)

/-- A thread between two accesses. -/
structure Worker (capacity : Nat) where
  /-- The calls that returned, with their answers. -/
  answers : List (Id × Bool)
  /-- The call under way. -/
  phase : Phase capacity
  /-- The IDs of the calls to come. -/
  rest : List Id

namespace Worker

/-- A thread that has not begun. -/
def fresh (ids : List Id) : Worker capacity := ⟨[], .idle, ids⟩

/-- What a worker without a call under way has seen, if its next ID is past the capacity. -/
def record (w : Worker capacity) : Record :=
  ⟨w.answers, w.rest.head?.map fun id => .idOutOfRange id capacity⟩

/-- A thread one of whose calls has just returned. -/
def returned (answers : List (Id × Bool)) (id : Id) (won : Bool) (rest : List Id) :
    Worker capacity := ⟨answers ++ [(id, won)], .idle, rest⟩

/-- The store of the owner and all that follows it. -/
def storeOwner (answers : List (Id × Bool)) (id : Id) (place : Fin capacity) (rest : List Id) :
    Routine capacity Record :=
  .access (.writeOwner place id) fun _ => claimRecorded (answers ++ [(id, true)]) rest

/-- The store of the local ID and all that follows it. -/
def storeLocal (answers : List (Id × Bool)) (id : Id) (inRange : id.toNat < capacity) (number : Id)
    (rest : List Id) : Routine capacity Record :=
  .access (.writeLocal ⟨id.toNat, inRange⟩ number) fun _ =>
    if h : number.toNat < capacity then storeOwner answers id ⟨number.toNat, h⟩ rest
    else .done ⟨answers, some (.indexOutOfBounds capacity number.toNat)⟩

/-- What a worker still has to do. -/
def routine (w : Worker capacity) : Routine capacity Record :=
  match w.phase with
  | .idle => claimRecorded w.answers w.rest
  | .claimed id inRange =>
    .access .takeNumber fun number => storeLocal w.answers id inRange number w.rest
  | .numbered id inRange number => storeLocal w.answers id inRange number w.rest
  | .published id place => storeOwner w.answers id place w.rest

variable (answers : List (Id × Bool)) {id : Id} (rest : List Id)

/-- A thread without an ID below the capacity at hand is done before it makes an access. -/
theorem routine_idle_of_le (h : ∀ id ∈ rest.head?, capacity ≤ id.toNat) :
    (⟨answers, .idle, rest⟩ : Worker capacity).routine =
      .done (⟨answers, .idle, rest⟩ : Worker capacity).record := by
  cases rest with
  | nil => rfl
  | cons id rest =>
    change (claimRecorded answers (id :: rest) : Routine capacity Record) = _
    rw [claimRecorded, claimId_of_le (h id rfl)]
    rfl

/-- An ID below the capacity begins a call with the exchange. -/
theorem routine_idle_of_lt (h : id.toNat < capacity) :
    (⟨answers, .idle, id :: rest⟩ : Worker capacity).routine =
      .access (.claim ⟨id.toNat, h⟩ id) fun won =>
        if won then (⟨answers, .claimed id h, rest⟩ : Worker capacity).routine
        else (returned answers id false rest : Worker capacity).routine := by
  change (claimRecorded answers (id :: rest) : Routine capacity Record) = _
  rw [claimRecorded, claimId_eq h]
  refine congrArg (IdCompaction.Routine.access _) (funext fun won => ?_)
  cases won with
  | false => rfl
  | true =>
    refine congrArg (IdCompaction.Routine.access _) (funext fun number => ?_)
    refine congrArg (IdCompaction.Routine.access _) (funext fun _ => ?_)
    by_cases hnumber : number.toNat < capacity
    · rw [dif_pos hnumber, dif_pos hnumber]
      rfl
    · rw [dif_neg hnumber, dif_neg hnumber]
      rfl

/-- A worker without a call under way is done or begins a call. -/
theorem routine_idle_cases :
    ((∀ id ∈ rest.head?, capacity ≤ id.toNat) ∧
        (⟨answers, .idle, rest⟩ : Worker capacity).routine =
          .done (⟨answers, .idle, rest⟩ : Worker capacity).record) ∨
      ∃ (id : Id) (later : List Id) (h : id.toNat < capacity), rest = id :: later ∧
        (⟨answers, .idle, rest⟩ : Worker capacity).routine =
          .access (.claim ⟨id.toNat, h⟩ id) fun won =>
            if won then (⟨answers, .claimed id h, later⟩ : Worker capacity).routine
            else (returned answers id false later : Worker capacity).routine := by
  by_cases h : ∀ id ∈ rest.head?, capacity ≤ id.toNat
  · exact .inl ⟨h, routine_idle_of_le answers rest h⟩
  · cases rest with
    | nil => simp at h
    | cons id later =>
      have hid : id.toNat < capacity := by simpa using h
      exact .inr ⟨id, later, hid, rfl, routine_idle_of_lt answers later hid⟩

/-- After the exchange comes the count. -/
theorem routine_claimed (h : id.toNat < capacity) :
    (⟨answers, .claimed id h, rest⟩ : Worker capacity).routine =
      .access .takeNumber fun number =>
        (⟨answers, .numbered id h number, rest⟩ : Worker capacity).routine := rfl

/-- After the count comes the slot. -/
theorem routine_numbered (h : id.toNat < capacity) {number : Id}
    (hnumber : number.toNat < capacity) :
    (⟨answers, .numbered id h number, rest⟩ : Worker capacity).routine =
      .access (.writeLocal ⟨id.toNat, h⟩ number) fun _ =>
        (⟨answers, .published id ⟨number.toNat, hnumber⟩, rest⟩ : Worker capacity).routine := by
  change storeLocal answers id h number rest = _
  rw [storeLocal, dif_pos hnumber]
  rfl

/-- After the slot comes the owner, and the call returns. -/
theorem routine_published (place : Fin capacity) :
    (⟨answers, .published id place, rest⟩ : Worker capacity).routine =
      .access (.writeOwner place id) fun _ => (returned answers id true rest).routine := rfl

/-- A worker is done or makes an access. -/
theorem routine_cases (w : Worker capacity) :
    (∃ record, w.routine = .done record) ∨ ∃ op next, w.routine = .access op next := by
  obtain ⟨answers, phase, rest⟩ := w
  cases phase with
  | idle =>
    obtain ⟨-, hdone⟩ | ⟨id, later, h, -, haccess⟩ := routine_idle_cases answers rest
    · exact .inl ⟨_, hdone⟩
    · exact .inr ⟨_, _, haccess⟩
  | claimed id inRange => exact .inr ⟨_, _, rfl⟩
  | numbered id inRange number => exact .inr ⟨_, _, rfl⟩
  | published id place => exact .inr ⟨_, _, rfl⟩

/-! ## Views of a worker -/

/-- The IDs of the calls that were begun or are still to come. -/
def origin (w : Worker capacity) : List Id :=
  w.answers.map Prod.fst ++
    match w.phase with
    | .idle => w.rest
    | .claimed id _ => id :: w.rest
    | .numbered id _ _ => id :: w.rest
    | .published id _ => id :: w.rest

/-- The ID that is claimed and waits for its local ID. -/
def claimed (w : Worker capacity) : List Id :=
  match w.phase with
  | .claimed id _ => [id]
  | _ => []

/-- The ID whose slot does not show its local ID yet. -/
def unpublished (w : Worker capacity) : List Id :=
  match w.phase with
  | .numbered id _ _ => [id]
  | _ => []

/-- The ID whose local ID does not show its owner yet. -/
def unowned (w : Worker capacity) : List Id :=
  match w.phase with
  | .published id _ => [id]
  | _ => []

/-- The IDs that the worker has got local IDs for. -/
def taken (w : Worker capacity) : List Id := wonOf w.answers ++ (w.unpublished ++ w.unowned)

section Idle

variable {workers : List (Worker capacity)} (h : ∀ w ∈ workers, w.phase = .idle)

include h

/-- What only a call under way shows, workers without one do not show. -/
theorem flatMap_eq_nil_of_idle (view : Worker capacity → List Id)
    (hview : ∀ w, w.phase = .idle → view w = []) : workers.flatMap view = [] :=
  List.flatMap_eq_nil_iff.mpr fun w hw => hview w (h w hw)

/-- Between their calls workers have no ID claimed but not numbered. -/
theorem flatMap_claimed_of_idle : workers.flatMap claimed = [] :=
  flatMap_eq_nil_of_idle h claimed fun w hw => by rw [claimed, hw]

/-- Nor have they a local ID to publish. -/
theorem flatMap_unpublished_of_idle : workers.flatMap unpublished = [] :=
  flatMap_eq_nil_of_idle h unpublished fun w hw => by rw [unpublished, hw]

/-- Nor have they an owner to enter. -/
theorem flatMap_unowned_of_idle : workers.flatMap unowned = [] :=
  flatMap_eq_nil_of_idle h unowned fun w hw => by rw [unowned, hw]

/-- Workers without a call under way have got local IDs for the IDs that they have won. -/
theorem flatMap_taken_of_idle :
    workers.flatMap taken = workers.flatMap fun w => wonOf w.answers := by
  refine List.flatMap_congr fun w hw => ?_
  rw [taken, unpublished, unowned, h w hw]
  exact List.append_nil _

end Idle

/-- A worker that is done has no call under way, and it has used its list up unless the next ID of
the list is past the capacity. -/
theorem of_routine_eq_done {w : Worker capacity} {record : Record}
    (h : w.routine = .done record) :
    w.phase = .idle ∧ (∀ id ∈ w.rest.head?, capacity ≤ id.toNat) ∧ record = w.record := by
  obtain ⟨answers, phase, rest⟩ := w
  cases phase with
  | idle =>
    obtain ⟨hrest, hdone⟩ | ⟨id, later, hid, -, haccess⟩ := routine_idle_cases answers rest
    · rw [hdone] at h
      cases h
      exact ⟨rfl, hrest, rfl⟩
    · rw [haccess] at h
      cases h
  | claimed id inRange => cases h
  | numbered id inRange number => cases h
  | published id place => cases h

end Worker

end Table

end IdCompaction
