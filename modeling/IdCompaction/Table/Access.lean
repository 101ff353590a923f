import IdCompaction.Routine.Crew
import IdCompaction.Table.Basic

/-!
# Accesses to a table

Threads that share a table touch it by single atomic accesses. Claiming an ID takes four of them:
the exchange that claims its slot, the count that hands out a local ID, and the stores that publish
the local ID in the slot and the owner at the local ID. The point reads take at most two. `claimId`,
`localOf` and `globalOf` spell these out; everything else that touches a shared table is made of
them.
-/

namespace IdCompaction.Table

/-- One atomic access to a table. -/
inductive Access (capacity : Nat)
  /-- The claim flag of a slot. -/
  | readClaim (slot : Fin capacity)
  /-- The local ID of a slot. -/
  | readLocal (slot : Fin capacity)
  /-- The owner of a local ID. -/
  | readOwner (place : Fin capacity)
  /-- The number of local IDs handed out. -/
  | readCount
  /-- Puts the ID into a vacant claim flag; answers whether it was vacant. -/
  | claim (slot : Fin capacity) (id : Id)
  /-- Hands out the next local ID. -/
  | takeNumber
  /-- Publishes the local ID of a slot. -/
  | writeLocal (slot : Fin capacity) (number : Id)
  /-- Publishes the owner of a local ID. -/
  | writeOwner (place : Fin capacity) (id : Id)

/-- What an access answers. -/
@[reducible] def Access.Answer {capacity : Nat} : Access capacity → Type
  | .readClaim _ => Id
  | .readLocal _ => Id
  | .readOwner _ => Id
  | .readCount => Id
  | .claim _ _ => Bool
  | .takeNumber => Id
  | .writeLocal _ _ => Unit
  | .writeOwner _ _ => Unit

variable {capacity : Nat}

/-- The table with one slot changed. -/
def putSlot (t : Table capacity) (slot : Fin capacity) (value : Slot) : Table capacity :=
  { t with slots := t.slots.put slot value }

/-- The table with one owner changed. -/
def putOwner (t : Table capacity) (place : Fin capacity) (value : Id) : Table capacity :=
  { t with owners := t.owners.put place value }

/-- The effect of one access. -/
def Access.apply : (op : Access capacity) → Table capacity → op.Answer × Table capacity
  | .readClaim slot, t => ((t.slots.get slot).claim, t)
  | .readLocal slot, t => ((t.slots.get slot).localId, t)
  | .readOwner place, t => (t.owners.get place, t)
  | .readCount, t => (t.count, t)
  | .claim slot id, t =>
    let old := t.slots.get slot
    match Cell.compareAndSwap old.claim vacant id with
    | (.ok _, cell) => (true, t.putSlot slot { old with claim := cell })
    | (.error _, _) => (false, t)
  | .takeNumber, t =>
    let (number, count) := Cell.fetchAdd t.count 1
    (number, { t with count })
  | .writeLocal slot number, t =>
    ((), t.putSlot slot { t.slots.get slot with localId := number })
  | .writeOwner place id, t => ((), t.putOwner place id)

instance : SharedMemory (Table capacity) (Access capacity) Access.Answer := ⟨Access.apply⟩

/-- What a thread does to a table. -/
abbrev Routine (capacity : Nat) (α : Type) := IdCompaction.Routine (Access capacity) Access.Answer α

/-- The routine of one access. -/
def ask (op : Access capacity) : Routine capacity op.Answer := IdCompaction.Routine.ask op

/-- The slot of a global ID, which must be below the capacity. -/
def slotOf (id : Id) : Routine capacity (Fin capacity) :=
  if h : id.toNat < capacity then .done ⟨id.toNat, h⟩ else .stop (.idOutOfRange id capacity)

/-- The place of a local ID among the owners. -/
def placeOf (number : Id) : Routine capacity (Fin capacity) :=
  if h : number.toNat < capacity then .done ⟨number.toNat, h⟩
  else .stop (.indexOutOfBounds capacity number.toNat)

/-- Claims an ID and gives it the next local ID, unless it is claimed already. Answers whether this
call made the claim; of any number of racing calls for one ID exactly one does. -/
def claimId (id : Id) : Routine capacity Bool := do
  let slot ← slotOf id
  let won ← ask (.claim slot id)
  if won then
    let number ← ask .takeNumber
    ask (.writeLocal slot number)
    let place ← placeOf number
    ask (.writeOwner place id)
    return true
  else return false

/-- A claim is four accesses: the exchange, the count, and the two stores. -/
theorem claimId_eq {id : Id} (h : id.toNat < capacity) :
    (claimId id : Routine capacity Bool) =
      .access (.claim ⟨id.toNat, h⟩ id) fun won =>
        if won then
          .access .takeNumber fun number =>
            .access (.writeLocal ⟨id.toNat, h⟩ number) fun _ =>
              if h' : number.toNat < capacity then
                .access (.writeOwner ⟨number.toNat, h'⟩ id) fun _ => .done true
              else .stop (.indexOutOfBounds capacity number.toNat)
        else .done false := by
  simp only [claimId, slotOf, h, dite_true, Routine.done_bind, ask, Routine.ask_bind, placeOf]
  congr 1
  funext won
  split
  · congr 1
    funext number
    congr 1
    funext _
    split <;> rfl
  · rfl

/-- An ID past the capacity stops its thread before the first access. -/
theorem claimId_of_le {id : Id} (h : capacity ≤ id.toNat) :
    (claimId id : Routine capacity Bool) = .stop (.idOutOfRange id capacity) := by
  simp [claimId, slotOf, Nat.not_lt.mpr h]

/-- Claims several IDs one after another, and answers how many of the claims this thread has made,
with `won` of them made before. -/
def claimEach (won : Nat) : List Id → Routine capacity Nat
  | [] => .done won
  | id :: rest => do
    let isFirst ← claimId id
    claimEach (if isFirst then won + 1 else won) rest

/-- The local ID of a global ID. A claim whose local ID is not published yet reads as none. -/
def localOf (id : Id) : Routine capacity (Option Id) := do
  let slot ← slotOf id
  let claim ← ask (.readClaim slot)
  if claim ≠ id then return none
  else
    let number ← ask (.readLocal slot)
    return if number ≠ vacant then some number else none

/-- The global ID that owns a local ID. A local ID whose owner is not published yet reads as none.
-/
def globalOf (number : Id) : Routine capacity (Option Id) := do
  let count ← ask .readCount
  if count.toNat ≤ number.toNat then return none
  else
    let place ← placeOf number
    let id ← ask (.readOwner place)
    return if id ≠ vacant then some id else none

/-- The local ID of an edge's endpoint, which must be claimed. -/
def endpoint (id : Id) : Routine capacity Id := do
  let slot ← slotOf id
  let claim ← ask (.readClaim slot)
  if claim ≠ id then .stop (.neverPopulated id) else ask (.readLocal slot)

/-- The owner at a position below the number of local IDs. -/
def ownerAt (position : Nat) : Routine capacity Id :=
  if h : position < capacity then ask (.readOwner ⟨position, h⟩)
  else .stop (.indexOutOfBounds capacity position)

end IdCompaction.Table
