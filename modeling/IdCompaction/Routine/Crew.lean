import IdCompaction.Routine.Basic

/-!
# Crews

A crew is several routines at work on one memory. A schedule names, access by access, the member
that goes next; every interleaving of the members' accesses is the effect of some schedule. Accesses
are taken as sequentially consistent: each is made on the memory that the one before it left.

Routines make one action of the memory together: they take turns as a schedule says, and those that
are not at their ends when the schedule is over go on, one after another.
-/

namespace IdCompaction

/-- Routines at work on one memory, and the events they have reported so far. -/
structure Crew (σ Op : Type) (Answer : Op → Type) (α : Type) where
  memory : σ
  members : List (Routine Op Answer α)
  events : List Event

namespace Routine

variable {Op : Type} {Answer : Op → Type} {α : Type}

/-- A routine that is done or has stopped at a fault. -/
def isFinished : Routine Op Answer α → Bool
  | .done _ => true
  | .stop _ => true
  | .report .. => false
  | .access .. => false

/-- The fault that a routine stopped at, if it did. -/
def outcome : Routine Op Answer Unit → Except Fault Unit
  | .stop fault => .error fault
  | _ => .ok ()

end Routine

namespace Crew

variable {σ Op : Type} {Answer : Op → Type} {α : Type} [SharedMemory σ Op Answer]

/-- The crew after one step of the member at `turn`; a finished or absent member does nothing. -/
def advance (crew : Crew σ Op Answer α) (turn : Nat) : Crew σ Op Answer α :=
  match crew.members[turn]? with
  | some (.report event next) =>
    { crew with members := crew.members.set turn next, events := crew.events ++ [event] }
  | some (.access op next) =>
    { crew with
      memory := (SharedMemory.apply op crew.memory).2
      members := crew.members.set turn (next (SharedMemory.apply op crew.memory).1) }
  | _ => crew

/-- The crew after the steps of a schedule. -/
def follow (crew : Crew σ Op Answer α) (schedule : List Nat) : Crew σ Op Answer α :=
  schedule.foldl advance crew

/-- The crew after the member at `turn` went on alone to its end. -/
def finish (crew : Crew σ Op Answer α) (turn : Nat) : Crew σ Op Answer α :=
  match crew.members[turn]? with
  | some routine =>
    match (routine.perform : Action Fault σ α) crew.memory with
    | ⟨memory, events, result⟩ =>
      ⟨memory, crew.members.set turn (Routine.ofExcept result), crew.events ++ events⟩
  | none => crew

/-- The crew after its members went on to their ends, one after another. -/
def complete (crew : Crew σ Op Answer α) : Crew σ Op Answer α :=
  (List.range crew.members.length).foldl finish crew

/-- Every member is done or has stopped. -/
def IsFinished (crew : Crew σ Op Answer α) : Prop :=
  ∀ routine ∈ crew.members, routine.isFinished = true

/-- Without turns nothing happens. -/
@[simp] theorem follow_nil (crew : Crew σ Op Answer α) : crew.follow [] = crew := rfl

/-- The first turn comes first. -/
@[simp] theorem follow_cons (crew : Crew σ Op Answer α) (turn : Nat) (schedule : List Nat) :
    crew.follow (turn :: schedule) = (crew.advance turn).follow schedule := rfl

/-- Two schedules are followed one after the other. -/
theorem follow_append (crew : Crew σ Op Answer α) (first second : List Nat) :
    crew.follow (first ++ second) = (crew.follow first).follow second :=
  List.foldl_append

/-- A step neither adds nor removes a member. -/
theorem length_members_advance (crew : Crew σ Op Answer α) (turn : Nat) :
    (crew.advance turn).members.length = crew.members.length := by
  unfold advance
  split <;> simp

/-- A property that every step keeps holds after every schedule. -/
theorem follow_induction {P : Crew σ Op Answer α → Prop} {crew : Crew σ Op Answer α}
    (start : P crew) (step : ∀ c turn, P c → P (c.advance turn)) (schedule : List Nat) :
    P (crew.follow schedule) := by
  induction schedule generalizing crew with
  | nil => exact start
  | cons turn schedule ih => exact ih (step crew turn start)

end Crew

/-- Routines that take turns as a schedule says and then go on to their ends, one after another. A
fault ends only the routine that it stops, and the first fault is the answer. -/
def Routine.together {σ Op : Type} {Answer : Op → Type} [SharedMemory σ Op Answer]
    (schedule : List Nat) (members : List (Routine Op Answer Unit)) : Action Fault σ Unit :=
  fun s =>
    let crew := (Crew.follow ⟨s, members, []⟩ schedule).complete
    ⟨crew.memory, crew.events, crew.members.forM Routine.outcome⟩

end IdCompaction
