import IdCompaction.Proofs.Memory.Built
import IdCompaction.Proofs.Memory.Ledger
import Mathlib.Data.List.Perm.Basic

/-!
# Holders of buffers

A holder builds buffers on one memory service, assigns elements of them and drops them, in any
order and over elements of any kinds. What each operation does to the ledger is said once, by
`Ends`: a buffer that was built has a grant that came to it, a building that the service refuses or
that is too large moves nothing, a building that a fault stops gives back the grant that it got,
assignments move nothing, and dropping a buffer gives back its grant.

Everything else follows by induction on the run of operations. The grants that were given are those
that came back and those of the buffers that are held, and the elements that were made are those
that were let go and those in the buffers that are held. If the service counts what is out, its
counts are those of the buffers that are held.
-/

namespace IdCompaction

variable {σ ν : Type}

namespace Buffer

variable {α : Type} {length : Nat} {service : MemoryService σ} {element : Element σ α}
  {context : Context} {init : Nat → Except Fault α} {s : σ}

/-- A buffer that was built is not larger than any layout. -/
theorem fits_of_build {b : Buffer α length}
    (h : (build service element context length init s).result = .ok b) :
    element.layout.size * length ≤ Layout.largest := by
  rcases hlayout : element.layout.array length with _ | layout
  · simp only [build, hlayout] at h
    cases h
  · exact (Layout.array_eq_some_iff.mp hlayout).1

end Buffer

/-- A kind of elements: their layout, and a name for each. -/
structure Kind (ν : Type) where
  Carrier : Type
  layout : Layout
  name : Carrier → ν

/-- Elements of a kind are noted when they are let go. -/
def Kind.element (kind : Kind ν) : Element (Ledger σ ν) kind.Carrier where
  layout := kind.layout
  release x ledger := { ledger with dropped := ledger.dropped ++ [kind.name x] }

/-- Releasing elements notes them as dropped. -/
theorem Kind.releaseAll_element (kind : Kind ν) (elements : List kind.Carrier)
    (ledger : Ledger σ ν) :
    kind.element.releaseAll elements ledger =
      { ledger with dropped := ledger.dropped ++ elements.map kind.name } := by
  unfold Element.releaseAll
  induction elements generalizing ledger with
  | nil => simp
  | cons x rest ih =>
    rw [List.foldl_cons, ih]
    simp [element]

/-- A buffer that is held. -/
structure Holding (ν : Type) where
  kind : Kind ν
  length : Nat
  buffer : Buffer kind.Carrier length
  fits : kind.layout.size * length ≤ Layout.largest

namespace Holding

/-- The layout of the whole buffer. -/
def layout (holding : Holding ν) : Layout :=
  ⟨holding.kind.layout.size * holding.length, holding.kind.layout.align⟩

/-- The grant that the buffer occupies. -/
def grant (holding : Holding ν) : Grant :=
  ⟨holding.buffer.context, holding.buffer.address, holding.layout⟩

/-- The names of the buffer's elements. -/
def names (holding : Holding ν) : List ν := holding.buffer.cells.toList.map holding.kind.name

/-- The buffer with another element in one place. -/
def put (holding : Holding ν) (place : Fin holding.length) (value : holding.kind.Carrier) :
    Holding ν :=
  { holding with buffer := holding.buffer.put place value }

/-- The layout of a holding is the one of its array. -/
theorem array_layout (holding : Holding ν) :
    holding.kind.layout.array holding.length = some holding.layout :=
  Layout.array_eq_some_iff.mpr ⟨holding.fits, rfl⟩

end Holding

/-- What one does with the buffers `live`. -/
inductive Operation (live : List (Holding ν))
  /-- Builds one more, whose element `i` is `init i`. -/
  | build (kind : Kind ν) (context : Context) (length : Nat)
      (init : Nat → Except Fault kind.Carrier)
  /-- Replaces an element of one of them. -/
  | assign (which : Fin live.length) (index : Nat) (value : (live.get which).kind.Carrier)
  /-- Drops one of them. -/
  | drop (which : Fin live.length)

/-- A holder of buffers. -/
structure Holder (σ ν : Type) where
  ledger : Ledger σ ν
  live : List (Holding ν) := []
  /-- The names of all elements that were ever made. -/
  created : List ν := []

namespace Holder

/-- The bytes of the buffers that are held. -/
def bytes (holder : Holder σ ν) : Nat :=
  (holder.live.map fun holding => holding.kind.layout.size * holding.length).sum

/-- How many of the buffers that are held have bytes. -/
def occupied (holder : Holder σ ν) : Nat :=
  holder.live.countP fun holding => holding.kind.layout.size * holding.length != 0

/-- Does one operation. A building that is refused makes no elements; one that meets a fault made
those before it. A value to assign is made before the index is looked at. -/
def perform (service : MemoryService σ) (holder : Holder σ ν) :
    Operation holder.live → Holder σ ν
  | .build kind context length init =>
    match h : Buffer.build service.recorded kind.element context length init holder.ledger with
    | ⟨ledger, _, .ok buffer⟩ =>
      { ledger
        live := holder.live ++ [⟨kind, length, buffer, Buffer.fits_of_build (by rw [h])⟩]
        created := holder.created ++ (Buffer.made init 0 length).map kind.name }
    | ⟨ledger, _, .error (.fault _)⟩ =>
      { holder with
        ledger, created := holder.created ++ (Buffer.made init 0 length).map kind.name }
    | ⟨ledger, _, .error (.refused _)⟩ => { holder with ledger }
  | .assign which index value =>
    let held := holder.live.get which
    match held.buffer.assign held.kind.element index value holder.ledger with
    | ⟨ledger, _, .ok buffer⟩ =>
      { ledger
        live := holder.live.set which { held with buffer }
        created := holder.created ++ [held.kind.name value] }
    | ⟨ledger, _, .error _⟩ =>
      { holder with ledger, created := holder.created ++ [held.kind.name value] }
  | .drop which =>
    let held := holder.live.get which
    { holder with
      ledger := (held.buffer.free service.recorded held.kind.element holder.ledger).state
      live := holder.live.eraseIdx which }

/-- The holders that any operations may leave that start from nothing held, with the service in
state `s`. -/
inductive Run (service : MemoryService σ) (s : σ) : Holder σ ν → Prop
  | start : Run service s { ledger := { memory := s } }
  | step {holder : Holder σ ν} (h : Run service s holder) (operation : Operation holder.live) :
      Run service s (holder.perform service operation)

/-- The holder after an operation that left the service in state `memory`: what changed hands, which
elements were let go, which were made, and which buffers are held now. -/
def after (holder : Holder σ ν) (memory : σ) (transfers : List Transfer) (dropped made : List ν)
    (live : List (Holding ν)) : Holder σ ν where
  ledger := ⟨memory, holder.ledger.transfers ++ transfers, holder.ledger.dropped ++ dropped⟩
  live := live
  created := holder.created ++ made

/-- The ways for an operation to end, and what it leaves then. -/
inductive Ends (holder : Holder σ ν) : Operation holder.live → Holder σ ν → Prop
  /-- No layout is as large as the buffer: nothing happens. -/
  | tooLarge {kind : Kind ν} {context : Context} {length : Nat}
      {init : Nat → Except Fault kind.Carrier}
      (h : Layout.largest < kind.layout.size * length) :
      Ends holder (.build kind context length init) holder
  /-- The service refuses: no memory changes hands. -/
  | refused {kind : Kind ν} {context : Context} {length : Nat}
      {init : Nat → Except Fault kind.Carrier} (s : σ) :
      Ends holder (.build kind context length init) (holder.after s [] [] [] holder.live)
  /-- An element cannot be made: those before it are let go, and the grant that came goes back. -/
  | faulted {kind : Kind ν} {context : Context} {length : Nat}
      {init : Nat → Except Fault kind.Carrier} (s : σ) (grant : Grant)
      (elements : List kind.Carrier) (fault : Fault)
      (hcontext : grant.context = context)
      (hlayout : kind.layout.array length = some grant.layout)
      (hmade : ∀ place : Fin elements.length, init place = .ok (elements.get place))
      (hlength : elements.length < length) (hfault : init elements.length = .error fault) :
      Ends holder (.build kind context length init)
        (holder.after s [.granted grant, .returned grant] (elements.map kind.name)
          (elements.map kind.name) holder.live)
  /-- The buffer is built: its grant came. -/
  | built (holding : Holding ν) {init : Nat → Except Fault holding.kind.Carrier} (s : σ)
      (hmade : ∀ place, init place.val = .ok (holding.buffer.get place)) :
      Ends holder (.build holding.kind holding.buffer.context holding.length init)
        (holder.after s [.granted holding.grant] [] holding.names (holder.live ++ [holding]))
  /-- The index is past the end: the new element is let go. -/
  | missed {which : Fin holder.live.length} {index : Nat}
      {value : (holder.live.get which).kind.Carrier}
      (h : (holder.live.get which).length ≤ index) :
      Ends holder (.assign which index value)
        (holder.after holder.ledger.memory [] [(holder.live.get which).kind.name value]
          [(holder.live.get which).kind.name value] holder.live)
  /-- The new element takes the place of the old one, which is let go. -/
  | replaced {which : Fin holder.live.length} {value : (holder.live.get which).kind.Carrier}
      (place : Fin (holder.live.get which).length) :
      Ends holder (.assign which place value)
        (holder.after holder.ledger.memory []
          [(holder.live.get which).kind.name ((holder.live.get which).buffer.get place)]
          [(holder.live.get which).kind.name value]
          (holder.live.set which ((holder.live.get which).put place value)))
  /-- The elements are let go and the grant goes back. -/
  | dropped {which : Fin holder.live.length} (s : σ) :
      Ends holder (.drop which)
        (holder.after s [.returned (holder.live.get which).grant] (holder.live.get which).names []
          (holder.live.eraseIdx which))

section Build

variable {service : MemoryService σ} {kind : Kind ν} {context : Context} {length : Nat}
  {init : Nat → Except Fault kind.Carrier} {layout : Layout} (ledger : Ledger σ ν) {s : σ}
  {events : List Event} {address : Address} {built : Array kind.Carrier}

/-- A refused building reports the refusal. -/
theorem build_of_refused {error : AllocError} (hlayout : kind.layout.array length = some layout)
    (hs : service.allocate context layout ledger.memory = ⟨s, events, .error error⟩) :
    Buffer.build service.recorded kind.element context length init ledger =
      ⟨{ ledger with memory := s }, events, .error (.refused error)⟩ := by
  have hlayout' : (kind.element : Element (Ledger σ ν) _).layout.array length = some layout :=
    hlayout
  simp only [Buffer.build, hlayout']
  apply Action.bind_apply_error
  simp [Action.mapError, recorded_allocate_of_error hs]

/-- A building that no fault stops notes its grant. -/
theorem build_of_granted (hlayout : kind.layout.array length = some layout)
    (hs : service.allocate context layout ledger.memory = ⟨s, events, .ok address⟩)
    (hfill : Buffer.fill init length #[] = (built, none)) (size_eq : built.size = length) :
    Buffer.build service.recorded kind.element context length init ledger =
      ⟨{ ledger with memory := s }.note (.granted ⟨context, address, layout⟩), events,
        .ok ⟨context, address, ⟨built, size_eq⟩⟩⟩ := by
  have hlayout' : (kind.element : Element (Ledger σ ν) _).layout.array length = some layout :=
    hlayout
  have hgrant := recorded_allocate_of_ok hs
  rw [Buffer.build_of_fill hlayout' hfill size_eq]
  simp [Action.bind_apply, Action.mapError, hgrant, Action.pure_apply]

/-- A building that a fault stops notes its grant and gives it back, after it let go of what was
built. -/
theorem build_of_stopped {fault : Fault} (hlayout : kind.layout.array length = some layout)
    (hs : service.allocate context layout ledger.memory = ⟨s, events, .ok address⟩)
    (hfill : Buffer.fill init length #[] = (built, some fault)) :
    ∃ s' events',
      Buffer.build service.recorded kind.element context length init ledger =
        ⟨⟨s', ledger.transfers ++
            [.granted ⟨context, address, layout⟩, .returned ⟨context, address, layout⟩],
          ledger.dropped ++ built.toList.map kind.name⟩, events', .error (.fault fault)⟩ := by
  have hlayout' : (kind.element : Element (Ledger σ ν) _).layout.array length = some layout :=
    hlayout
  have hgrant := recorded_allocate_of_ok hs
  rw [Buffer.build_of_fault hlayout' hfill]
  simp [Action.bind_apply, Action.mapError, hgrant, Action.modify, Action.safely,
    recorded_deallocate, Action.fail, Kind.releaseAll_element, Ledger.note]

end Build

section Perform

variable {service : MemoryService σ} {holder : Holder σ ν} {ledger : Ledger σ ν}
  {events : List Event}

section

variable {kind : Kind ν} {context : Context} {length : Nat} {init : Nat → Except Fault kind.Carrier}

/-- A build that succeeds adds a live buffer. -/
theorem perform_build_of_ok {buffer : Buffer kind.Carrier length}
    (h : Buffer.build service.recorded kind.element context length init holder.ledger =
      ⟨ledger, events, .ok buffer⟩) :
    holder.perform service (.build kind context length init) =
      { ledger
        live := holder.live ++ [⟨kind, length, buffer, Buffer.fits_of_build (by rw [h])⟩]
        created := holder.created ++ (Buffer.made init 0 length).map kind.name } := by
  simp only [perform]
  split <;> next heq => cases h.symm.trans heq <;> rfl

/-- A build whose initialiser faults adds none, but it has created elements. -/
theorem perform_build_of_fault {fault : Fault}
    (h : Buffer.build service.recorded kind.element context length init holder.ledger =
      ⟨ledger, events, .error (.fault fault)⟩) :
    holder.perform service (.build kind context length init) =
      { holder with
        ledger, created := holder.created ++ (Buffer.made init 0 length).map kind.name } := by
  simp only [perform]
  split <;> next heq => cases h.symm.trans heq <;> rfl

/-- A build that was refused changes nothing but what was noted. -/
theorem perform_build_of_refused {error : AllocError}
    (h : Buffer.build service.recorded kind.element context length init holder.ledger =
      ⟨ledger, events, .error (.refused error)⟩) :
    holder.perform service (.build kind context length init) = { holder with ledger } := by
  simp only [perform]
  split <;> next heq => cases h.symm.trans heq <;> rfl

variable {layout : Layout} {s : σ} {address : Address} {built : Array kind.Carrier}

/-- A building that no fault stops ends with the buffer in its grant. -/
theorem ends_build_of_granted (hlayout : kind.layout.array length = some layout)
    (hs : service.allocate context layout holder.ledger.memory = ⟨s, events, .ok address⟩)
    (hfill : Buffer.fill init length #[] = (built, none)) :
    holder.Ends (.build kind context length init)
      (holder.perform service (.build kind context length init)) := by
  have size_eq := Buffer.size_of_fill hfill
  have hbuild := build_of_granted holder.ledger hlayout hs hfill size_eq
  obtain ⟨hfits, rfl⟩ := Layout.array_eq_some_iff.mp hlayout
  let holding : Holding ν := ⟨kind, length, ⟨context, address, ⟨built, size_eq⟩⟩, hfits⟩
  have hnames : (Buffer.made init 0 length).map kind.name = holding.names := by
    rw [← Buffer.toList_of_fill hfill]
    rfl
  have hafter : holder.perform service (.build kind context length init) =
      holder.after s [.granted holding.grant] [] holding.names (holder.live ++ [holding]) := by
    rw [perform_build_of_ok hbuild, hnames]
    simp [after, Ledger.note, holding, Holding.grant, Holding.layout]
  rw [hafter]
  exact .built holding s fun place => Buffer.get_of_build (by rw [hbuild]) place

/-- A building that a fault stops ends with its grant gone back and its elements let go. -/
theorem ends_build_of_stopped {fault : Fault} (hlayout : kind.layout.array length = some layout)
    (hs : service.allocate context layout holder.ledger.memory = ⟨s, events, .ok address⟩)
    (hfill : Buffer.fill init length #[] = (built, some fault)) :
    holder.Ends (.build kind context length init)
      (holder.perform service (.build kind context length init)) := by
  obtain ⟨s', events', hbuild⟩ := build_of_stopped holder.ledger hlayout hs hfill
  obtain ⟨hlength, hfault⟩ := Buffer.fault_of_fill (by rw [hfill])
  have hafter : holder.perform service (.build kind context length init) =
      holder.after s' [.granted ⟨context, address, layout⟩, .returned ⟨context, address, layout⟩]
        ((Buffer.made init 0 length).map kind.name) ((Buffer.made init 0 length).map kind.name)
        holder.live := by
    rw [perform_build_of_fault hbuild, Buffer.toList_of_fill hfill]
    rfl
  rw [hafter]
  refine .faulted s' ⟨context, address, layout⟩ _ fault rfl hlayout (fun place => ?_) hlength ?_
  · have hget := Buffer.getElem?_made init 0 length (List.getElem?_eq_getElem place.isLt)
    simpa using hget
  · simpa using hfault

/-- A building ends in one of four ways. -/
theorem ends_build :
    holder.Ends (.build kind context length init)
      (holder.perform service (.build kind context length init)) := by
  rcases hlayout : kind.layout.array length with _ | layout
  · have hlayout' : (kind.element : Element (Ledger σ ν) _).layout.array length = none := hlayout
    have hlarge : Layout.largest < kind.layout.size * length := by
      by_contra hle
      rw [Layout.array, if_pos (Nat.not_lt.mp hle)] at hlayout
      cases hlayout
    rw [perform_build_of_refused (by simp only [Buffer.build, hlayout']; rfl)]
    exact .tooLarge hlarge
  rcases hs : service.allocate context layout holder.ledger.memory with ⟨s, events, error | address⟩
  · rw [perform_build_of_refused (build_of_refused holder.ledger hlayout hs)]
    have hafter : { holder with ledger.memory := s } = holder.after s [] [] [] holder.live := by
      simp [after]
    rw [hafter]
    exact .refused s
  rcases hfill : Buffer.fill init length #[] with ⟨built, _ | fault⟩
  · exact ends_build_of_granted hlayout hs hfill
  · exact ends_build_of_stopped hlayout hs hfill

end

section

variable {which : Fin holder.live.length} {index : Nat}
  {value : (holder.live.get which).kind.Carrier}

/-- An assignment replaces an element or misses. -/
theorem ends_assign :
    holder.Ends (.assign which index value)
      (holder.perform service (.assign which index value)) := by
  by_cases hindex : index < (holder.live.get which).length
  · have hassign : (holder.live.get which).buffer.assign (holder.live.get which).kind.element index
        value holder.ledger =
        ⟨{ holder.ledger with
            dropped := holder.ledger.dropped ++
              [(holder.live.get which).kind.name
                ((holder.live.get which).buffer.get ⟨index, hindex⟩)] },
          [], .ok ((holder.live.get which).buffer.put ⟨index, hindex⟩ value)⟩ := by
      rw [Buffer.assign, dif_pos hindex]
      rfl
    have hafter : holder.perform service (.assign which index value) =
        holder.after holder.ledger.memory []
          [(holder.live.get which).kind.name
            ((holder.live.get which).buffer.get ⟨index, hindex⟩)]
          [(holder.live.get which).kind.name value]
          (holder.live.set which ((holder.live.get which).put ⟨index, hindex⟩ value)) := by
      simp only [perform, hassign, after, List.append_nil, Holding.put]
    rw [hafter]
    exact .replaced ⟨index, hindex⟩
  · have hassign : (holder.live.get which).buffer.assign (holder.live.get which).kind.element index
        value holder.ledger =
        ⟨{ holder.ledger with
            dropped := holder.ledger.dropped ++ [(holder.live.get which).kind.name value] },
          [], .error (.indexOutOfBounds (holder.live.get which).length index)⟩ := by
      rw [Buffer.assign, dif_neg hindex]
      rfl
    have hafter : holder.perform service (.assign which index value) =
        holder.after holder.ledger.memory [] [(holder.live.get which).kind.name value]
          [(holder.live.get which).kind.name value] holder.live := by
      simp only [perform, hassign, after, List.append_nil]
    rw [hafter]
    exact .missed (Nat.not_lt.mp hindex)

/-- A drop lets go of the elements and gives the grant back. -/
theorem ends_drop : holder.Ends (.drop which) (holder.perform service (.drop which)) := by
  have hlayout : ((holder.live.get which).kind.element : Element (Ledger σ ν) _).layout.array
      (holder.live.get which).length = some (holder.live.get which).layout :=
    (holder.live.get which).array_layout
  have hafter : ∃ s, holder.perform service (.drop which) =
      holder.after s [.returned (holder.live.get which).grant] (holder.live.get which).names []
        (holder.live.eraseIdx which) := by
    simp only [perform, Buffer.free, hlayout, Action.bind_apply, Action.modify,
      recorded_deallocate, Kind.releaseAll_element, after, List.append_nil]
    exact ⟨_, rfl⟩
  obtain ⟨s, hafter⟩ := hafter
  rw [hafter]
  exact .dropped s

end

/-- Every operation ends in one of the ways to end. -/
theorem ends_perform (operation : Operation holder.live) :
    holder.Ends operation (holder.perform service operation) := by
  cases operation with
  | build kind context length init => exact ends_build
  | assign which index value => exact ends_assign
  | drop which => exact ends_drop

end Perform

end Holder

end IdCompaction
