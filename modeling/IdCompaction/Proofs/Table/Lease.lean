import IdCompaction.Proofs.Table.Construction
import IdCompaction.Proofs.Table.Restored
import IdCompaction.Proofs.Table.SharedBatch
import IdCompaction.Proofs.Table.SharedRelabel

/-!
# Tables on lease

A table holds two grants of a memory service from its construction until it is dropped. In between
it may be called in any way: calls may fault, and the accesses of threads may interleave. No access
moves an array, so however a table was used it is dropped with the grants that it was built with,
and the service hears of it again only then.
-/

namespace IdCompaction

namespace Table

variable {capacity : Nat} {t t' : Table capacity}

/-! ## Calls on a table -/

/-- An action on a table and an output, as an action on the table. -/
def besideOutput {β : Type} (output : β) (x : Action Fault (Table capacity × β) Unit) :
    Action Fault (Table capacity) Unit := fun t =>
  let outcome := x (t, output)
  ⟨outcome.state.1, outcome.events, outcome.result⟩

/-- A call on a table. -/
inductive Use (capacity : Nat)
  /-- Claims one ID. -/
  | insert (id : Id)
  /-- Claims a batch on a pool. -/
  | insertAll (pool : Pool) (batch : Array Id)
  /-- Claims a batch with a worker for each list. -/
  | insertAllBy (schedule : List Nat) (lists : List (List Id)) (batch : Array Id)
  /-- Lets threads claim and look up, in whatever order their accesses are made. -/
  | threads (schedule : List Nat) (members : List (Routine capacity Unit))
  /-- Looks a global ID up. -/
  | localOf (id : Id)
  /-- Looks a local ID up. -/
  | globalOf (number : Id)
  /-- Lists owners over an output, the positions in this order. -/
  | copyGlobals (order : List Nat) (output : Array Id)
  /-- Relabels edges with a worker for each list of places. -/
  | relabelBy (schedule : List Nat) (edges output : Edges) (lists : List (List Nat))
  /-- Forgets every claim. -/
  | clear (pool : Pool)
  /-- Forgets every claim, the slots and the owners in these orders. -/
  | clearInOrder (slots owners : List (Fin capacity))

/-- Makes a call. -/
def Use.perform : Use capacity → Action Fault (Table capacity) Unit
  | .insert id => discard (Table.insert id)
  | .insertAll pool batch => Table.insertAll pool batch
  | .insertAllBy schedule lists batch => Table.insertAllBy schedule lists batch
  | .threads schedule members => Routine.together schedule members
  | .localOf id => discard (Table.localOf id).perform
  | .globalOf number => discard (Table.globalOf number).perform
  | .copyGlobals order output => do
    let count ← Action.gets numItems
    if count < output.size then Action.fail (.tooManyNodes output.size count)
    else besideOutput output (copyGlobalsLive order)
  | .relabelBy schedule edges output lists =>
    besideOutput output (Table.relabelBy schedule edges lists)
  | .clear pool => Table.clear pool
  | .clearInOrder slots owners => Table.clearInOrder slots owners

/-! ## No access moves an array -/

/-- Two tables lie in the same grants. -/
structure SameGrants (t t' : Table capacity) : Prop where
  slots : t'.slotsGrant = t.slotsGrant
  owners : t'.ownersGrant = t.ownersGrant

namespace SameGrants

/-- An access leaves the arrays where they are. -/
theorem apply (h : t.SameGrants t') (op : Access capacity) : t.SameGrants (op.apply t').2 := by
  cases op with
  | readClaim slot => exact h
  | readLocal slot => exact h
  | readOwner place => exact h
  | readCount => exact h
  | claim slot id =>
    simp only [Access.apply]
    split
    · exact ⟨h.slots, h.owners⟩
    · exact h
  | takeNumber => exact ⟨h.slots, h.owners⟩
  | writeLocal slot number => exact ⟨h.slots, h.owners⟩
  | writeOwner place id => exact ⟨h.slots, h.owners⟩

/-- A routine leaves the arrays where they are. -/
theorem perform {α : Type} (h : t.SameGrants t') (r : Routine capacity α) :
    t.SameGrants (r.perform t' : Outcome Fault _ α).state :=
  Routine.state_perform_induction (P := t.SameGrants) (fun op _ hs => hs.apply op) r h

/-- Threads leave the arrays where they are. -/
theorem together (h : t.SameGrants t') (schedule : List Nat)
    (members : List (Routine capacity Unit)) :
    t.SameGrants (Routine.together schedule members t').state :=
  Routine.state_together_induction (P := t.SameGrants) (fun op _ hs => hs.apply op) schedule
    members h

/-- A batch leaves the arrays where they are. -/
theorem insertAll (h : t.SameGrants t') (pool : Pool) (batch : Array Id) :
    t.SameGrants (Table.insertAll pool batch t').state := by
  have hclaim (i : Fin batch.size) (s : Table capacity) (hs : t.SameGrants s) :
      t.SameGrants ((discard (claimId batch[i]).perform : Action Fault _ Unit) s).state := by
    rw [Action.discard_apply]
    exact hs.perform (claimId batch[i])
  rw [Table.insertAll, (claimAll_apply _ _ t').1]
  exact Pool.state_forEach_induction hclaim pool t' h

/-- Relabelling leaves the arrays where they are. -/
theorem relabelBy (h : t.SameGrants t') (schedule : List Nat) (edges output : Edges)
    (lists : List (List Nat)) :
    t.SameGrants (Table.relabelBy schedule edges lists (t', output)).state.1 := by
  have hop (op : LiveAccess capacity) (s : Table capacity × Edges) (hs : t.SameGrants s.1) :
      t.SameGrants (op.apply s).2.1 := by
    cases op with
    | table op => exact hs.apply op
    | putSrc place number => exact hs
    | putDst place number => exact hs
  by_cases hlengths : edges.SameLengths output
  · rw [Table.relabelBy, relabelOver_of_sameLengths hlengths]
    exact Action.state_bind_induction (P := fun s : Table capacity × Edges => t.SameGrants s.1)
      (Routine.state_together_induction hop schedule _ h) fun _ s hs => hs
  · rw [relabelBy_of_not_sameLengths hlengths]
    exact h

/-- A clearing leaves the arrays where they are. -/
theorem clear (h : t.SameGrants t') (pool : Pool) :
    t.SameGrants (Table.clear pool t').state := by
  rw [Table.clear, Action.bind_apply_silent _ (Action.gets_apply numItems t')]
  refine Action.state_bind_induction (P := t.SameGrants) ?slots fun _ s hs =>
    Action.state_bind_induction (P := t.SameGrants) ?owners fun _ s hs => ⟨hs.slots, hs.owners⟩
  case slots =>
    exact Pool.state_forEach_induction (P := t.SameGrants) (fun _ _ hs => ⟨hs.slots, hs.owners⟩)
      pool t' h
  case owners =>
    refine Pool.state_forEach_induction (P := t.SameGrants) (fun i s hs => ?_) pool s hs
    split
    · exact ⟨hs.slots, hs.owners⟩
    · exact hs

/-- A clearing leaves the arrays where they are, whatever the order. -/
theorem clearInOrder (h : t.SameGrants t') (slots owners : List (Fin capacity)) :
    t.SameGrants (Table.clearInOrder slots owners t').state := by
  refine Action.state_bind_induction (P := t.SameGrants) ?slots fun _ s hs =>
    Action.state_bind_induction (P := t.SameGrants) ?owners fun _ s hs => ⟨hs.slots, hs.owners⟩
  case slots =>
    exact Action.state_forM_induction (P := t.SameGrants) (fun _ _ hs => ⟨hs.slots, hs.owners⟩)
      slots t' h
  case owners =>
    exact Action.state_forM_induction (P := t.SameGrants) (fun _ _ hs => ⟨hs.slots, hs.owners⟩)
      owners s hs

/-- However a table is called, its arrays stay where they are. -/
theorem use (h : t.SameGrants t') (use : Use capacity) :
    t.SameGrants (use.perform t').state := by
  cases use with
  | insert id =>
    rw [Use.perform, Action.discard_apply]
    exact h.perform (claimId id)
  | insertAll pool batch => exact h.insertAll pool batch
  | insertAllBy schedule lists batch =>
    rw [Use.perform, Table.insertAllBy, (claimAll_apply _ _ t').1]
    exact h.together schedule _
  | threads schedule members => exact h.together schedule members
  | localOf id =>
    rw [Use.perform, Action.discard_apply]
    exact h.perform (Table.localOf id)
  | globalOf number =>
    rw [Use.perform, Action.discard_apply]
    exact h.perform (Table.globalOf number)
  | copyGlobals order output =>
    rw [Use.perform, Action.bind_apply_silent _ (Action.gets_apply numItems t')]
    split
    · exact h
    · change t.SameGrants (copyGlobalsLive order (t', output)).state.1
      rwa [state_copyGlobalsLive]
  | relabelBy schedule edges output lists => exact h.relabelBy schedule edges output lists
  | clear pool => exact h.clear pool
  | clearInOrder slots owners => exact h.clearInOrder slots owners

/-- Dropping a table does to the service what dropping any table in its grants does. -/
theorem free_eq {σ : Type} (h : t.SameGrants t') (hfits : capacity ≤ vacant.toNat)
    (service : MemoryService σ) : t'.free service = t.free service := by
  obtain ⟨hcontext, haddress, -⟩ := Grant.mk.inj h.slots
  obtain ⟨hcontext', haddress', -⟩ := Grant.mk.inj h.owners
  rw [Table.free_eq hfits, Table.free_eq hfits, hcontext, haddress, hcontext', haddress']

end SameGrants

/-! ## Leases -/

/-- A table in use, with the service that its grants came from. -/
structure Lease (σ : Type) (capacity : Nat) where
  journal : Journal σ
  table : Table capacity

namespace Lease

variable {σ : Type}

/-- The table of a lease. -/
def tablePart : Part (Lease σ capacity) (Table capacity) where
  get lease := lease.table
  put table lease := { lease with table }

/-- The lease after a call, whether or not the call comes to a fault. -/
def call (lease : Lease σ capacity) (use : Use capacity) : Lease σ capacity :=
  (use.perform.within tablePart lease).state

/-- The lease after several calls. -/
def calls (lease : Lease σ capacity) (uses : List (Use capacity)) : Lease σ capacity :=
  uses.foldl call lease

/-- Drops the table. -/
def drop (service : MemoryService σ) (lease : Lease σ capacity) : Outcome Empty (Journal σ) Unit :=
  lease.table.free service.journaled lease.journal

/-- Nothing passes between a table that is called and the service. -/
theorem journal_calls (lease : Lease σ capacity) (uses : List (Use capacity)) :
    (lease.calls uses).journal = lease.journal := by
  induction uses generalizing lease with
  | nil => rfl
  | cons use rest ih => exact ih (lease.call use)

/-- A table that is called stays in its grants. -/
theorem sameGrants_calls (lease : Lease σ capacity) (uses : List (Use capacity))
    (h : t.SameGrants lease.table) : t.SameGrants (lease.calls uses).table := by
  induction uses generalizing lease with
  | nil => exact h
  | cons use rest ih => exact ih (lease.call use) (h.use use)

/-- Dropping a table gives back the grants that it lies in. -/
theorem drop_eq (service : MemoryService σ) {lease : Lease σ capacity}
    (h : t.SameGrants lease.table) (hfits : capacity ≤ vacant.toNat) :
    lease.drop service =
      (t.free service lease.journal.memory).withDealings (lease.journal.dealings ++
        [.gaveBack t.slotsGrant, .gaveBack t.ownersGrant]) := by
  rw [drop, h.free_eq hfits]
  exact free_journaled hfits service t lease.journal.memory lease.journal.dealings

end Lease

/-! ## All or nothing -/

section AllOrNothing

variable {σ : Type}

/-- What is promised of a construction that starts with the service in state `s`: everything that
passes between the table and the service, and what is left in the counts of a service that counts
what is out. -/
structure AllOrNothing (service : MemoryService σ) (context : Context) (capacity : Nat) (s : σ)
    (dealings : List Dealing) (outcome : Outcome Failure σ (Table capacity)) : Prop where
  /-- The construction ends in one of the four ways. -/
  constructs : Constructs service context capacity s dealings outcome
  /-- Nothing else passes until it has ended. -/
  journaled : ∀ before, allocate service.journaled context capacity ⟨s, before⟩ =
    outcome.withDealings (before ++ dealings)
  /-- A construction that fails leaves the counts as they were. -/
  failed : ∀ failure, outcome.result = .error failure → ∀ tally, service.Counts tally →
    tally outcome.state = tally s
  /-- A table that was built has added both of its arrays to the counts. -/
  counted : ∀ t, outcome.result = .ok t → ∀ tally, service.Counts tally →
    tally outcome.state = ((tally s).add (slotsLayout capacity)).add (ownersLayout capacity)
  /-- An empty table leaves the counts as they were, built or not. -/
  empty : capacity = 0 → ∀ tally, service.Counts tally → tally outcome.state = tally s
  /-- Nothing passes while the table is called. -/
  used : ∀ t, outcome.result = .ok t → ∀ before uses,
    (Lease.calls ⟨⟨outcome.state, before⟩, t⟩ uses).journal = ⟨outcome.state, before⟩
  /-- When the table is dropped, both of its grants go back and nothing else passes. -/
  dropped : ∀ t, outcome.result = .ok t → ∀ before uses,
    (Lease.calls ⟨⟨outcome.state, before⟩, t⟩ uses).drop service =
      (t.free service outcome.state).withDealings
        (before ++ [.gaveBack t.slotsGrant, .gaveBack t.ownersGrant])
  /-- Then the counts are again as they were before the construction. -/
  restored : ∀ t, outcome.result = .ok t → ∀ before uses tally, service.Counts tally →
    tally ((Lease.calls ⟨⟨outcome.state, before⟩, t⟩ uses).drop service).state.memory = tally s
  /-- If others have used the service in the meantime, the drop takes off both arrays. -/
  released : ∀ t, outcome.result = .ok t → ∀ before uses later tally, service.Counts tally →
    let last := Lease.drop service ⟨later, (Lease.calls ⟨⟨outcome.state, before⟩, t⟩ uses).table⟩
    tally last.state.memory =
      ((tally later.memory).remove (slotsLayout capacity)).remove (ownersLayout capacity)

/-- Whatever the service grants or refuses, and whatever is called on a table that was built, the
memory of a table is either granted as a whole until the table is dropped, or not at all. -/
theorem construction_all_or_nothing (service : MemoryService σ) (context : Context)
    (capacity : Nat) (s : σ) :
    ∃ dealings, AllOrNothing service context capacity s dealings
      (allocate service context capacity s) := by
  obtain ⟨dealings, hconstructs, hjournaled⟩ := exists_constructs service context capacity s
  refine ⟨dealings, ?_⟩
  generalize allocate service context capacity s = outcome at hconstructs hjournaled ⊢
  -- calls change the table, but not its grants, and a drop looks at nothing else
  have hkept (t : Table capacity) (before : List Dealing) (uses : List (Use capacity)) :
      t.SameGrants (Lease.calls ⟨⟨outcome.state, before⟩, t⟩ uses).table :=
    Lease.sameGrants_calls _ uses ⟨rfl, rfl⟩
  have hdropped (t : Table capacity) (hbuilt : outcome.result = .ok t) (before : List Dealing)
      (uses : List (Use capacity)) :
      (Lease.calls ⟨⟨outcome.state, before⟩, t⟩ uses).drop service =
        (t.free service outcome.state).withDealings
          (before ++ [.gaveBack t.slotsGrant, .gaveBack t.ownersGrant]) := by
    rw [Lease.drop_eq service (hkept t before uses) (hconstructs.fits_of_ok hbuilt),
      Lease.journal_calls]
  constructor
  case constructs => exact hconstructs
  case journaled => exact hjournaled
  case failed => exact fun _ hfailed _ counts => hconstructs.tally_of_error counts hfailed
  case counted => exact fun _ hbuilt _ counts => hconstructs.tally_of_ok counts hbuilt
  case empty => exact fun hempty _ counts => hconstructs.tally_of_empty counts hempty
  case used => exact fun _ _ _ uses => Lease.journal_calls _ uses
  case dropped => exact hdropped
  case restored =>
    intro t hbuilt before uses tally counts
    rw [hdropped t hbuilt before uses]
    exact hconstructs.tally_free counts hbuilt
  case released =>
    intro t hbuilt before uses later tally counts last
    have hlast : last = _ :=
      Lease.drop_eq service (hkept t before uses) (hconstructs.fits_of_ok hbuilt)
    rw [hlast]
    exact tally_free counts (hconstructs.fits_of_ok hbuilt) t later.memory

/-- With a hundred bytes out already, a quota of one request grants the slots of a table and refuses
the owners, so the slots go back. A host memory grants both; whatever is called on the table, it is
asked for nothing else, and dropping the table gives both grants back. On a heap with room for them,
the largest table is built as well, and its twelve bytes for each slot are counted. -/
theorem construction_all_or_nothing_four :
    (∃ (heap : Heap Arena) (s : Guarded Quota Arena),
      (allocate (Quota.service heap) .cpu 4 s).result = .error (.refused ⟨.cpu, 16⟩) ∧
      (allocate (Quota.service heap).journaled .cpu 4 ⟨s, []⟩).state.dealings =
        [.asked .cpu ⟨32, 4⟩ (.ok 4096), .asked .cpu ⟨16, 4⟩ (.error ⟨.cpu, 16⟩),
          .gaveBack ⟨.cpu, 4096, ⟨32, 4⟩⟩] ∧
      (allocate (Quota.service heap) .cpu 4 s).state.memory.tally = s.memory.tally) ∧
    ∃ heap : Heap Arena,
      (∃ t, (allocate (HostMemory.service heap) (.gpu 0) 4 (.fresh {})).result = .ok t ∧ ∀ uses,
        let lease : Lease (HostMemory Arena) 4 :=
          ⟨⟨(allocate (HostMemory.service heap) (.gpu 0) 4 (.fresh {})).state, []⟩, t⟩
        ((lease.calls uses).drop (HostMemory.service heap)).state.dealings =
            [.gaveBack ⟨.gpu 0, 4096, ⟨32, 4⟩⟩, .gaveBack ⟨.gpu 0, 4128, ⟨16, 4⟩⟩] ∧
          ((lease.calls uses).drop (HostMemory.service heap)).state.memory.tally = {}) ∧
      (allocate (HostMemory.service heap) .cpu 4294967295 (.fresh {})).state.tally =
        ⟨51539607540, 2⟩ := by
  refine ⟨⟨Arena.heap 4096, ⟨{ maxCalls := some 1 }, ⟨⟨100, 1⟩, {}⟩⟩, rfl, rfl, ?refused⟩,
    Arena.heap 1099511627776, ⟨_, rfl, fun uses => ?built⟩, ?large⟩
  case refused =>
    obtain ⟨_, h⟩ := construction_all_or_nothing (Quota.service (Arena.heap 4096)) .cpu 4
      ⟨{ maxCalls := some 1 }, ⟨⟨100, 1⟩, {}⟩⟩
    exact h.failed _ rfl _ (Guarded.counts _ Quota.judge)
  case built =>
    obtain ⟨_, h⟩ := construction_all_or_nothing
      (HostMemory.service (Arena.heap 1099511627776)) (.gpu 0) 4 (.fresh {})
    refine ⟨?_, h.restored _ rfl [] uses _ (HostMemory.counts _)⟩
    rw [h.dropped _ rfl [] uses]
    rfl
  case large =>
    obtain ⟨_, h⟩ := construction_all_or_nothing
      (HostMemory.service (Arena.heap 1099511627776)) .cpu 4294967295 (.fresh {})
    exact h.counted _ (congrArg Outcome.result (allocate_of_granted (by decide) rfl rfl)) _
      (HostMemory.counts _)

end AllOrNothing

end Table

end IdCompaction
