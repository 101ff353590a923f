import IdCompaction.Session.State

/-!
# Steps on pools

Opening pools, and running loops on them that record what they visit.
-/

namespace IdCompaction.Session

/-- The numbers of IDs or words. -/
def numbersOf (ids : Array Id) : List Nat := ids.toList.map UInt32.toNat

/-- Raises the fault of a callback at one place. -/
def raiseIf {σ : Type} (here : Bool) (message : String) : Action Fault σ Unit :=
  if here then Action.fail (.raised message) else pure ()

/-- An action on a state of its own. A fault leaves what the state shows; so does success. -/
def recorded {σ : Type} (x : Action Fault σ Unit) (start : σ) (answer : σ → Answer) : Work Answer :=
  fun s =>
    match x start with
    | ⟨last, events, .ok _⟩ => ⟨s, events, .ok (answer last)⟩
    | ⟨last, events, .error fault⟩ => ⟨s, events, .error ⟨.fault fault, some (answer last)⟩⟩

/-- Opens a pool. -/
def openPool (name : String) (config : ParallelConfig) : Work Answer := do
  let pool ← Pool.create config
  Action.modify fun s => { s with pools := s.pools.put name pool }
  return .pool pool

/-- The name of a pool's first worker. -/
def poolWorker (poolName : String) : Work Answer := do
  let _ ← pool poolName
  return .text (Pool.workerName 0)

/-- Records the indices that a loop visits. -/
def visitIndices (poolName : String) (count : Nat) (raiseAt : Option Nat) : Work Answer := do
  let pool ← pool poolName
  let visit (i : Fin count) : Action Fault (Array Nat) Unit := do
    raiseIf (raiseAt == some i.val) s!"stopped at {i}"
    Action.modify fun seen => seen.push i
  recorded (pool.forEach count visit) #[] fun seen => .counts seen.toList

/-- Changes every element of an array in place: element `x` at `i` becomes `x * factor + i`, as a
checked size. -/
def updateElements (poolName : String) (data : IdSource) (factor : Nat) (raiseAt : Option Nat) :
    Work Answer := do
  let pool ← pool poolName
  let words := (← data.resolve).map UInt32.toNat
  let visit (i : Fin words.size) : Action Fault (Array Nat) Unit := do
    raiseIf (raiseAt == some i.val) s!"stopped at {i}"
    let word ← Action.gets fun words => words.getD i 0
    let product ← Action.ofExcept (Size.mul word factor)
    let sum ← Action.ofExcept (Size.add product i)
    Action.modify fun words => words.setIfInBounds i sum
  recorded (pool.forEach words.size visit) words fun words => .counts words.toList

end IdCompaction.Session
