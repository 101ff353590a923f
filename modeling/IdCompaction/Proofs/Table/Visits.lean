import IdCompaction.Proofs.Rely
import IdCompaction.Proofs.Table.Later
import IdCompaction.Proofs.Table.Lineage

/-!
# Calls on a table in use

Threads that claim IDs and threads that read single entries are at work on one table. Every call is
a member of its own, so a schedule may begin it, cut it up and end it anywhere; calls that one
thread makes in turn are members whose turns come in turn. At every point the claiming members are
workers that race on the table and all others only read it. So the table only ever becomes a later
one, and what it shows fits together.
-/

namespace IdCompaction.Table

variable {capacity : Nat}

/-- A read of one entry. -/
inductive Query
  /-- Looks a global ID up. -/
  | localOf (id : Id)
  /-- Looks a local ID up. -/
  | globalOf (number : Id)
  deriving DecidableEq

/-- What a read does to a table. -/
def Query.routine : Query → Routine capacity (Option Id)
  | .localOf id => Table.localOf id
  | .globalOf number => Table.globalOf number

/-- A call on a table. -/
inductive Visit
  /-- Claims IDs one after another. -/
  | claims (ids : List Id)
  /-- Reads one entry. -/
  | find (query : Query)
  /-- Reads the counter. -/
  | numItems
  deriving DecidableEq

/-- What a call returns. -/
inductive Reply
  /-- How many of the claims were made by this call. -/
  | claims (won : Nat)
  /-- The entry that was found. -/
  | found (answer : Option Id)
  /-- The number of claims. -/
  | count (items : Nat)
  deriving DecidableEq

/-- What a call does to a table. -/
def Visit.routine : Visit → Routine capacity Reply
  | .claims ids => do return .claims (← claimEach 0 ids)
  | .find query => do return .found (← query.routine)
  | .numItems => do return .count (← ask .readCount).toNat

/-- Calls on one table, none of which has begun. -/
def visited (t : Table capacity) (visits : List Visit) :
    Crew (Table capacity) (Access capacity) Access.Answer Reply :=
  ⟨t, visits.map Visit.routine, []⟩

/-! ## Members -/

/-- A call under way: a worker that claims, or a routine that only reads. -/
inductive Member (capacity : Nat)
  | writer (w : Worker capacity)
  | reader (r : Routine capacity Reply)

namespace Member

/-- What a member still has to do. -/
def routine : Member capacity → Routine capacity Reply
  | .writer w => do
    let record ← w.routine
    let won ← tally record
    return .claims won
  | .reader r => r

/-- The worker that a member is. -/
def worker? : Member capacity → Option (Worker capacity)
  | .writer w => some w
  | .reader _ => none

/-- The member that a call begins as. -/
def ofVisit : Visit → Member capacity
  | .claims ids => .writer (Worker.fresh ids)
  | visit => .reader visit.routine

/-- A member that has not begun has the whole visit to do. -/
theorem routine_ofVisit (visit : Visit) :
    (ofVisit visit : Member capacity).routine = visit.routine := by
  cases visit with
  | claims ids =>
    rw [Visit.routine, claimEach_zero, bind_assoc]
    rfl
  | find query => rfl
  | numItems => rfl

/-- A writer is done or makes the access of its worker. -/
theorem routine_writer_cases (w : Worker capacity) :
    (writer w).routine.isFinished = true ∨
      ∃ op next, w.routine = .access op next ∧
        (writer w).routine = .access op fun answer => do
          let record ← next answer
          let won ← tally record
          return .claims won := by
  obtain ⟨record, hdone⟩ | ⟨op, next, haccess⟩ := w.routine_cases
  · left
    rw [routine, hdone, Routine.done_bind, tally]
    cases record.fault with
    | none => rfl
    | some fault => rfl
  · right
    refine ⟨op, next, haccess, ?_⟩
    rw [routine, haccess]
    rfl

end Member

/-- A routine that only reads still does so if it does something with its answer. -/
theorem ReadsOnly.map {α β : Type} {r : Routine capacity α} (h : ReadsOnly r) (f : α → β) :
    ReadsOnly (r >>= fun value => pure (f value)) := by
  induction r with
  | done value => trivial
  | stop fault => trivial
  | report event next ih => exact ih h
  | access op next ih => exact ⟨h.1, fun answer => ih answer (h.2 answer)⟩

/-- Members are at work on a table that is later than another one. -/
structure AtWork (base : Table capacity) (start : List Id) (earlier t : Table capacity)
    (members : List (Member capacity)) : Prop where
  later : earlier.Later t
  /-- The workers among them race. -/
  racing : ∃ numbered, Racing base start numbered t (members.filterMap Member.worker?)
  /-- All others only read. -/
  reads : ∀ r, .reader r ∈ members → ReadsOnly r

namespace AtWork

variable {base earlier t : Table capacity} {start : List Id}
  {members members' others : List (Member capacity)} {member : Member capacity}

/-- The order of the members does not matter. -/
theorem perm (hperm : members.Perm members') (h : AtWork base start earlier t members) :
    AtWork base start earlier t members' := by
  obtain ⟨numbered, hracing⟩ := h.racing
  exact ⟨h.later, ⟨numbered, hracing.perm (hperm.filterMap _)⟩,
    fun r hr => h.reads r (hperm.mem_iff.mpr hr)⟩

/-- What a member reports does not matter. -/
theorem report {event : Event} {next : Routine capacity Reply}
    (h : AtWork base start earlier t (member :: others))
    (hnext : member.routine = .report event next) :
    ∃ member', next = member'.routine ∧ AtWork base start earlier t (member' :: others) := by
  cases member with
  | writer w =>
    obtain hfinished | ⟨op, next', -, haccess⟩ := Member.routine_writer_cases w
    · rw [hnext] at hfinished
      cases hfinished
    · rw [haccess] at hnext
      cases hnext
  | reader r =>
    have hr : r = .report event next := hnext
    have hreads := h.reads r List.mem_cons_self
    rw [hr] at hreads
    refine ⟨.reader next, rfl, h.later, h.racing, fun r' hr' => ?_⟩
    obtain heq | hr' := List.mem_cons.mp hr'
    · cases heq
      exact hreads
    · exact h.reads r' (List.mem_cons_of_mem _ hr')

/-- The access of a member leads to a later table. -/
theorem access {op : Access capacity} {next : op.Answer → Routine capacity Reply}
    (h : AtWork base start earlier t (member :: others))
    (hnext : member.routine = .access op next) :
    ∃ member', next (op.apply t).1 = member'.routine ∧
      AtWork base start earlier (op.apply t).2 (member' :: others) := by
  have hothers (r : Routine capacity Reply) (hr : .reader r ∈ others) : ReadsOnly r :=
    h.reads r (List.mem_cons_of_mem _ hr)
  cases member with
  | writer w =>
    obtain hfinished | ⟨op', next', hworker, haccess⟩ := Member.routine_writer_cases w
    · rw [hnext] at hfinished
      cases hfinished
    · rw [haccess] at hnext
      cases hnext
      obtain ⟨numbered, hracing⟩ := h.racing
      change Racing base start numbered t (w :: others.filterMap Member.worker?) at hracing
      obtain ⟨numbered', w', hanswer, -, hracing'⟩ := hracing.step hworker
      refine ⟨.writer w', ?_, h.later.trans (hracing.later hworker), ⟨numbered', hracing'⟩,
        fun r hr => hothers r (by simpa using hr)⟩
      rw [Member.routine, ← hanswer]
  | reader r =>
    have hr : r = .access op next := hnext
    have hreads := h.reads r List.mem_cons_self
    rw [hr] at hreads
    rw [Access.apply_of_isRead hreads.1]
    refine ⟨.reader (next (op.apply t).1), rfl, h.later, h.racing, fun r' hr' => ?_⟩
    obtain heq | hr' := List.mem_cons.mp hr'
    · cases heq
      exact hreads.2 _
    · exact hothers r' hr'

end AtWork

/-! ## The crew -/

/-- The members of a crew are at work on a table that is later than another one. -/
def Shared (base : Table capacity) (start : List Id) (earlier : Table capacity)
    (crew : Crew (Table capacity) (Access capacity) Access.Answer Reply) : Prop :=
  crew.Told Member.routine fun t _ members => AtWork base start earlier t members

namespace Shared

variable {base earlier t : Table capacity} {start : List Id}
  {crew : Crew (Table capacity) (Access capacity) Access.Answer Reply}

/-- Calls begin on a table without a claim under way. -/
theorem begin (h : t.Numbers start) (visits : List Visit) :
    Shared t start t (visited t visits) := by
  let lists : List (List Id) := visits.filterMap fun
    | .claims ids => some ids
    | _ => none
  have hworkers : (visits.map (Member.ofVisit : Visit → Member capacity)).filterMap Member.worker? =
      lists.map Worker.fresh := by
    rw [List.filterMap_map, List.map_filterMap]
    refine List.filterMap_congr fun visit _ => ?_
    cases visit <;> rfl
  refine ⟨visits.map Member.ofVisit, ?_, .refl t, ⟨start, ?_⟩, fun r hr => ?_⟩
  · rw [List.map_map]
    exact List.map_congr_left fun visit _ => (Member.routine_ofVisit visit).symm
  · rw [hworkers]
    exact (Underway.begin h lists).racing
  · obtain ⟨visit, -, hvisit⟩ := List.mem_map.mp hr
    cases visit with
    | claims ids => cases hvisit
    | find query =>
      cases hvisit
      cases query with
      | localOf id => exact (readsOnly_localOf id).map _
      | globalOf number => exact (readsOnly_globalOf number).map _
    | numItems =>
      cases hvisit
      exact ⟨rfl, fun _ => trivial⟩

/-- A step of any member keeps them so. -/
theorem advance (h : Shared base start earlier crew) (turn : Nat) :
    Shared base start earlier (crew.advance turn) :=
  Crew.Told.advance (fun hperm hwork => hwork.perm hperm) (fun hwork => hwork.report)
    (fun hwork => hwork.access) h turn

/-- The table is later than that one. -/
theorem later (h : Shared base start earlier crew) : earlier.Later crew.memory := by
  obtain ⟨members, -, hwork⟩ := h
  exact hwork.later

/-- The table is coherent at every point. -/
theorem coherent (h : Shared base start earlier crew) : crew.memory.Coherent := by
  obtain ⟨members, -, hwork⟩ := h
  obtain ⟨numbered, hracing⟩ := hwork.racing
  exact hracing.coherent

/-- What has come before may be forgotten. -/
theorem now (h : Shared base start earlier crew) : Shared base start crew.memory crew := by
  obtain ⟨members, hmembers, hwork⟩ := h
  exact ⟨members, hmembers, .refl _, hwork.racing, hwork.reads⟩

/-- They are so after every schedule. -/
theorem follow (h : Shared base start earlier crew) (schedule : List Nat) :
    Shared base start earlier (crew.follow schedule) :=
  Crew.follow_induction h (fun _ turn hcrew => hcrew.advance turn) schedule

end Shared

end IdCompaction.Table
