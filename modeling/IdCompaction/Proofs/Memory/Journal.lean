import IdCompaction.Proofs.Memory.Ledger

/-!
# Journals

A journal stands in front of a memory service and tells everything that passes there: each request
with its answer, granted or refused, and each grant that goes back. A ledger lists what changed
hands, so it does not tell a client that was refused from one that never asked; a journal does. What
the service does and answers is not changed by it.
-/

namespace IdCompaction

variable {ε σ α : Type}

/-- What passes between a memory service and those who use it. -/
inductive Dealing
  /-- A request and its answer. -/
  | asked (context : Context) (layout : Layout) (answer : Except AllocError Address)
  /-- A grant that goes back. -/
  | gaveBack (grant : Grant)

/-- A service's state with the dealings so far. -/
structure Journal (σ : Type) where
  memory : σ
  dealings : List Dealing := []

/-- The outcome, with the dealings up to there. -/
def Outcome.withDealings (outcome : Outcome ε σ α) (dealings : List Dealing) :
    Outcome ε (Journal σ) α :=
  ⟨⟨outcome.state, dealings⟩, outcome.events, outcome.result⟩

/-- The service with a journal kept in front of it. -/
def MemoryService.journaled (service : MemoryService σ) : MemoryService (Journal σ) where
  allocate context layout := fun journal =>
    let outcome := service.allocate context layout journal.memory
    outcome.withDealings (journal.dealings ++ [.asked context layout outcome.result])
  deallocate context address layout := fun journal =>
    (service.deallocate context address layout journal.memory).withDealings
      (journal.dealings ++ [.gaveBack ⟨context, address, layout⟩])

variable {service : MemoryService σ} {context : Context} {layout : Layout} {s s' : σ}
  {events : List Event}

/-- A request is noted with its answer, whatever that is. -/
theorem journaled_allocate {answer : Except AllocError Address}
    (h : service.allocate context layout s = ⟨s', events, answer⟩) (before : List Dealing) :
    service.journaled.allocate context layout ⟨s, before⟩ =
      ⟨⟨s', before ++ [.asked context layout answer]⟩, events, answer⟩ := by
  simp only [MemoryService.journaled, Outcome.withDealings, h]

/-- A grant that goes back is noted as it was named to the service. -/
theorem journaled_deallocate {address : Address} {result : Except Empty Unit}
    (h : service.deallocate context address layout s = ⟨s', events, result⟩)
    (before : List Dealing) :
    service.journaled.deallocate context address layout ⟨s, before⟩ =
      ⟨⟨s', before ++ [.gaveBack ⟨context, address, layout⟩]⟩, events, result⟩ := by
  simp only [MemoryService.journaled, Outcome.withDealings, h]

end IdCompaction
