import IdCompaction.Memory.Service

/-!
# Buffers

A buffer is a fixed number of elements in one grant of a memory service. It is built element by
element: if the initialiser of an element faults, the elements already built are let go and the
grant goes back before the fault is passed on. A buffer goes back as it came, on its own context and
with its own layout, after its elements are let go.
-/

namespace IdCompaction

/-- What a buffer knows about its elements: their layout, and what letting go of one does. -/
structure Element (σ α : Type) where
  layout : Layout
  release : α → σ → σ

namespace Element

variable {σ α : Type}

/-- Elements that nothing happens to when they are let go. -/
def plain (size align : Nat) : Element σ α := ⟨⟨size, align⟩, fun _ s => s⟩

/-- Lets go of several elements, from the first on. -/
def releaseAll (element : Element σ α) (elements : List α) (s : σ) : σ :=
  elements.foldl (fun s x => element.release x s) s

/-- Plain elements leave nothing behind to be released. -/
@[simp] theorem releaseAll_plain (size align : Nat) (elements : List α) (s : σ) :
    (plain size align).releaseAll elements s = s := by
  unfold releaseAll plain
  induction elements with
  | nil => rfl
  | cons x rest ih => exact ih

end Element

/-- `length` elements in one grant. -/
structure Buffer (α : Type) (length : Nat) where
  context : Context
  address : Address
  cells : Vector α length

namespace Buffer

variable {σ α : Type} {length : Nat}

/-- Builds `count` more elements; a fault stops the building and leaves those before it. -/
def fill (init : Nat → Except Fault α) : (count : Nat) → Array α → Array α × Option Fault
  | 0, built => (built, none)
  | count + 1, built =>
    match init built.size with
    | .ok x => fill init count (built.push x)
    | .error fault => (built, some fault)

/-- A building that no fault stops builds all elements. -/
theorem size_fill (init : Nat → Except Fault α) (count : Nat) (built : Array α)
    (h : (fill init count built).2 = none) :
    (fill init count built).1.size = built.size + count := by
  induction count generalizing built with
  | zero => rfl
  | succ count ih =>
    unfold fill at h ⊢
    split
    · rename_i x hx
      simp only [hx] at h
      rw [ih _ h, Array.size_push]
      omega
    · rename_i fault hx
      simp [hx] at h

/-- Asks for the grant of `length` elements and builds element `i` as `init i`. -/
def build (service : MemoryService σ) (element : Element σ α) (context : Context) (length : Nat)
    (init : Nat → Except Fault α) : Action Failure σ (Buffer α length) :=
  match element.layout.array length with
  | none => Action.fail (.refused ⟨context, Size.limit - 1⟩)
  | some layout => do
    let address ← (service.allocate context layout).mapError .refused
    match h : fill init length #[] with
    | (built, none) =>
      have size_eq : built.size = length := by
        have := size_fill init length #[] (by rw [h])
        rw [h] at this
        simpa using this
      return ⟨context, address, ⟨built, size_eq⟩⟩
    | (built, some fault) =>
      Action.modify (element.releaseAll built.toList)
      (service.deallocate context address layout).safely
      Action.fail (.fault fault)

/-- Lets go of the elements and gives the grant back. -/
def free (service : MemoryService σ) (element : Element σ α) (b : Buffer α length) :
    Action Empty σ Unit := do
  Action.modify (element.releaseAll b.cells.toList)
  match element.layout.array length with
  | some layout => service.deallocate b.context b.address layout
  | none => pure ()

/-- Replaces one element and lets go of the old one. Past the end, the new one is let go. -/
def assign (element : Element σ α) (b : Buffer α length) (index : Nat) (value : α) :
    Action Fault σ (Buffer α length) :=
  if h : index < length then do
    Action.modify (element.release b.cells[index])
    return { b with cells := b.cells.set index value h }
  else do
    Action.modify (element.release value)
    Action.fail (.indexOutOfBounds length index)

/-- The contents of one place. -/
def get (b : Buffer α length) (place : Fin length) : α := b.cells[place]

/-- The buffer with other contents in one place. -/
def put (b : Buffer α length) (place : Fin length) (value : α) : Buffer α length :=
  { b with cells := b.cells.set place value place.isLt }

/-- The long form of a buffer. -/
def describe (b : Buffer α length) : String :=
  Text.openRecord "DeviceBuffer" [("context", b.context.describe), ("len", toString length)]

/-- An element that was put is found in its place, and the others are as they were. -/
theorem get_put (b : Buffer α length) (place other : Fin length) (value : α) :
    (b.put place value).get other = if place = other then value else b.get other := by
  simp only [get, put, Fin.getElem_fin, Vector.getElem_set, Fin.ext_iff]

end Buffer

end IdCompaction
