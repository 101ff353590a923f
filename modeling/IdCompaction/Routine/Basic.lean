import IdCompaction.Action
import IdCompaction.Fault

/-!
# Routines

A routine is what one thread does to a memory that others use too: a tree of single accesses, each
of which happens at once and answers, with the next access chosen by the answer. Between two
accesses any other thread may run. Routines are therefore the one description of an operation from
which both its meaning alone (`Routine.perform`) and its meanings in company (`Crew`) follow.
-/

namespace IdCompaction

/-- A tree of accesses `Op`, each with its kind of answer, that ends in an `α` or at a fault. -/
inductive Routine (Op : Type) (Answer : Op → Type) (α : Type)
  /-- Nothing is left to do. -/
  | done (value : α)
  /-- A precondition is broken. -/
  | stop (fault : Fault)
  /-- Report an event and go on. -/
  | report (event : Event) (next : Routine Op Answer α)
  /-- Make one access and go on with its answer. -/
  | access (op : Op) (next : Answer op → Routine Op Answer α)

/-- A kind of memory: what one access answers and what it leaves. -/
class SharedMemory (σ : Type) (Op : outParam Type) (Answer : outParam (Op → Type)) where
  apply : (op : Op) → σ → Answer op × σ

namespace Routine

variable {Op : Type} {Answer : Op → Type} {σ α β ι : Type}

/-- One routine after another; a fault of the first skips the second. -/
protected def bind (r : Routine Op Answer α) (f : α → Routine Op Answer β) :
    Routine Op Answer β :=
  match r with
  | .done value => f value
  | .stop fault => .stop fault
  | .report event next => .report event (next.bind f)
  | .access op next => .access op fun answer => (next answer).bind f

instance : Monad (Routine Op Answer) where
  pure := .done
  bind := Routine.bind

/-- The routine of one access. -/
def ask (op : Op) : Routine Op Answer (Answer op) := .access op .done

/-- The routine of one event. -/
def emit (event : Event) : Routine Op Answer Unit := .report event (.done ())

/-- A computation that makes no access. -/
def ofExcept : Except Fault α → Routine Op Answer α
  | .ok value => .done value
  | .error fault => .stop fault

/-- The body at `start`, `start + 1`, and so on, `count` times. -/
def forFrom (start : Nat) : (count : Nat) → (Nat → Routine Op Answer Unit) → Routine Op Answer Unit
  | 0, _ => .done ()
  | count + 1, body => (body start).bind fun _ => forFrom (start + 1) count body

/-- What a routine does when nobody else touches the memory. -/
def perform [SharedMemory σ Op Answer] : Routine Op Answer α → Action Fault σ α
  | .done value => pure value
  | .stop fault => Action.fail fault
  | .report event next => fun s =>
    match next.perform s with
    | ⟨s', events, result⟩ => ⟨s', event :: events, result⟩
  | .access op next => fun s =>
    match SharedMemory.apply op s with
    | (answer, s') => (next answer).perform s'

/-! ## Equations -/

/-- An answer is a routine that is done. -/
@[simp] theorem pure_eq (value : α) : (pure value : Routine Op Answer α) = .done value := rfl

/-- A routine that is done goes on with its answer. -/
@[simp] theorem done_bind (value : α) (f : α → Routine Op Answer β) :
    (Routine.done value >>= f) = f value := rfl

/-- A routine that stopped at a fault does not go on. -/
@[simp] theorem stop_bind (fault : Fault) (f : α → Routine Op Answer β) :
    (Routine.stop fault >>= f) = .stop fault := rfl

/-- What comes after a report comes after its routine. -/
@[simp] theorem report_bind (event : Event) (next : Routine Op Answer α)
    (f : α → Routine Op Answer β) :
    (Routine.report event next >>= f) = .report event (next >>= f) := rfl

/-- What comes after an access comes after its routine. -/
@[simp] theorem access_bind (op : Op) (next : Answer op → Routine Op Answer α)
    (f : α → Routine Op Answer β) :
    (Routine.access op next >>= f) = .access op fun answer => next answer >>= f := rfl

/-- What is done with an answer comes after the access. -/
@[simp] theorem ask_bind (op : Op) (f : Answer op → Routine Op Answer β) :
    (ask op >>= f) = .access op f := rfl

/-- Doing nothing more changes nothing. -/
theorem bind_done (r : Routine Op Answer α) : r.bind .done = r := by
  induction r with
  | done value => rfl
  | stop fault => rfl
  | report event next ih => simp only [Routine.bind, ih]
  | access op next ih => simp only [Routine.bind, ih]

/-- Sequences are the same however they are grouped. -/
theorem bind_bind {γ : Type} (r : Routine Op Answer α) (f : α → Routine Op Answer β)
    (g : β → Routine Op Answer γ) : (r.bind f).bind g = r.bind fun a => (f a).bind g := by
  induction r with
  | done value => rfl
  | stop fault => rfl
  | report event next ih => simp only [Routine.bind, ih]
  | access op next ih => simp only [Routine.bind, ih]

instance : LawfulMonad (Routine Op Answer) :=
  LawfulMonad.mk' (Routine Op Answer) bind_done (fun _ _ => rfl) bind_bind

/-- A counted loop is the loop over the numbers it counts. -/
theorem forFrom_eq (start count : Nat) (body : Nat → Routine Op Answer Unit) :
    forFrom start count body = (List.range' start count).forM body := by
  induction count generalizing start with
  | zero => rfl
  | succ count ih =>
    change ((body start).bind fun _ => forFrom (start + 1) count body) = _
    rw [ih]
    rfl

/-- Performing two routines in sequence is performing the first and then the second. -/
theorem perform_bind [SharedMemory σ Op Answer] (r : Routine Op Answer α)
    (f : α → Routine Op Answer β) :
    ((r >>= f).perform : Action Fault σ β) = r.perform >>= fun a => (f a).perform := by
  induction r with
  | done value => exact (pure_bind value fun a => ((f a).perform : Action Fault σ β)).symm
  | stop fault => rfl
  | report event next ih =>
    funext s
    have key := congrFun ih s
    rw [report_bind]
    simp only [perform, key]
    change (match Action.bind next.perform (fun a => (f a).perform) s with
      | ⟨s', events, result⟩ => (⟨s', event :: events, result⟩ : Outcome Fault σ β)) =
      Action.bind (perform (.report event next)) (fun a => (f a).perform) s
    rcases h : (next.perform : Action Fault σ _) s with ⟨s', events, _ | a⟩ <;>
      simp [Action.bind, perform, h]
  | access op next ih =>
    funext s
    rw [access_bind]
    simp only [perform]
    have key := congrFun (ih (SharedMemory.apply op s).1) (SharedMemory.apply op s).2
    exact key

end Routine

end IdCompaction
