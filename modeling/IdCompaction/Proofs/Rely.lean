import IdCompaction.Proofs.Crew

/-!
# Members that rely on the others

Between two accesses of one member of a crew the others may change the memory. What the member can
rely on is a relation that every step of the crew keeps to: the memory that it sees next is related
to the one that it last saw. A routine that comes to a good end whatever happens within this
relation comes to a good end in the crew, after no more turns than it has steps, whatever turns the
others take.

Where all members keep one invariant that decides what each of them comes to, what they come to is
known before they start.
-/

namespace IdCompaction

/-- Lists stay related if an entry gives way to another that is related too. -/
theorem forall₂_set {ι κ : Type} {R : ι → κ → Prop} {first : List ι} {second : List κ}
    (h : List.Forall₂ R first second) {place : Nat} {b : κ}
    (hb : ∀ a, first[place]? = some a → R a b) : List.Forall₂ R first (second.set place b) := by
  induction h generalizing place with
  | nil => exact .nil
  | cons hhead htail ih =>
    cases place with
    | zero => exact .cons (hb _ rfl) htail
    | succ place => exact .cons hhead (ih hb)

namespace Routine

variable {Op : Type} {Answer : Op → Type} {σ α β : Type} [SharedMemory σ Op Answer]
  {rely : σ → σ → Prop} {post : σ → Except Fault α → Prop}

/-- How a routine ended, if it is at its end. -/
def result? : Routine Op Answer α → Option (Except Fault α)
  | .done value => some (.ok value)
  | .stop fault => some (.error fault)
  | .report .. => none
  | .access .. => none

/-- The routine ends within `count` steps, and `post` holds of the memory and of how it ended, if
the memory changes before each of its accesses as `rely` says. -/
def Ensures (rely : σ → σ → Prop) (post : σ → Except Fault α → Prop) :
    Routine Op Answer α → (count : Nat) → σ → Prop
  | .done value, _, s => post s (.ok value)
  | .stop fault, _, s => post s (.error fault)
  | .report _ next, count + 1, s => next.Ensures rely post count s
  | .access op next, count + 1, s => ∀ s', rely s s' →
    (next (SharedMemory.apply op s').1).Ensures rely post count (SharedMemory.apply op s').2
  | .report .., 0, _ => False
  | .access .., 0, _ => False

/-- Several changes that may be relied on are one such change, and none of them undoes the
condition. -/
structure IsStable (rely : σ → σ → Prop) (post : σ → Except Fault α → Prop) : Prop where
  trans : ∀ {s s' s''}, rely s s' → rely s' s'' → rely s s''
  kept : ∀ {s s' result}, post s result → rely s s' → post s' result

/-- What a routine ensures it still ensures after a change that it relies on. -/
theorem Ensures.mono (stable : IsStable rely post) {r : Routine Op Answer α} {count : Nat}
    {s s' : σ} (h : r.Ensures rely post count s) (hs : rely s s') :
    r.Ensures rely post count s' := by
  induction r generalizing count with
  | done value => exact stable.kept h hs
  | stop fault => exact stable.kept h hs
  | report event next ih =>
    cases count with
    | zero => exact h
    | succ count => exact ih h
  | access op next ih =>
    cases count with
    | zero => exact h
    | succ count => exact fun last hlast => h last (stable.trans hs hlast)

/-- A routine that does something with its answer ensures what the answer makes of it. -/
theorem Ensures.map {post : σ → Except Fault β → Prop} {f : α → β} {r : Routine Op Answer α}
    {count : Nat} {s : σ} (h : r.Ensures rely (fun s result => post s (result.map f)) count s) :
    (r >>= fun value => pure (f value)).Ensures rely post count s := by
  induction r generalizing count s with
  | done value => exact h
  | stop fault => exact h
  | report event next ih =>
    cases count with
    | zero => exact h
    | succ count => exact ih h
  | access op next ih =>
    cases count with
    | zero => exact h
    | succ count => exact fun last hlast => ih _ (h last hlast)

/-- At the end of a routine, what it ensures holds. -/
theorem Ensures.of_result {r : Routine Op Answer α} {count : Nat} {s : σ}
    (h : r.Ensures rely post count s) {result : Except Fault α}
    (hresult : r.result? = some result) : post s result := by
  cases r with
  | done value =>
    cases hresult
    exact h
  | stop fault =>
    cases hresult
    exact h
  | report event next => cases hresult
  | access op next => cases hresult

/-- A routine without any steps left is at its end. -/
theorem Ensures.exists_result {r : Routine Op Answer α} {s : σ} (h : r.Ensures rely post 0 s) :
    ∃ result, r.result? = some result := by
  cases r with
  | done value => exact ⟨.ok value, rfl⟩
  | stop fault => exact ⟨.error fault, rfl⟩
  | report event next => exact h.elim
  | access op next => exact h.elim

/-! ## Routines that keep an invariant -/

section Settles

variable {inv : σ → Prop} {result : Except Fault α}

/-- The routine comes to the result and keeps the invariant, if the others keep it too. -/
def Settles (inv : σ → Prop) (result : Except Fault α) : Routine Op Answer α → Prop
  | .done value => result = .ok value
  | .stop fault => result = .error fault
  | .report _ next => next.Settles inv result
  | .access op next => ∀ s, inv s → inv (SharedMemory.apply op s).2 ∧
    (next (SharedMemory.apply op s).1).Settles inv result

/-- What follows a routine that comes to a value is what that value makes it. -/
theorem Settles.bind_ok {r : Routine Op Answer α} {f : α → Routine Op Answer β} {value : α}
    {result : Except Fault β} (h : r.Settles inv (.ok value)) (hf : (f value).Settles inv result) :
    (r >>= f).Settles inv result := by
  induction r with
  | done other =>
    cases h
    exact hf
  | stop fault => cases h
  | report event next ih => exact ih h
  | access op next ih => exact fun s hs => ⟨(h s hs).1, ih _ (h s hs).2⟩

/-- Nothing follows a routine that comes to a fault. -/
theorem Settles.bind_error {r : Routine Op Answer α} {f : α → Routine Op Answer β} {fault : Fault}
    (h : r.Settles inv (.error fault)) : (r >>= f).Settles inv (.error fault) := by
  induction r with
  | done value => cases h
  | stop other =>
    cases h
    rfl
  | report event next ih => exact ih h
  | access op next ih => exact fun s hs => ⟨(h s hs).1, ih _ (h s hs).2⟩

/-- A loop comes to the first fault that one of its numbers comes to, if there is one. -/
theorem Settles.forM {ι : Type} {visit : ι → Routine Op Answer Unit} {fault? : ι → Option Fault}
    (list : List ι) (h : ∀ i ∈ list, (visit i).Settles inv ((fault? i).elim (.ok ()) .error)) :
    (list.forM visit).Settles inv ((list.findSome? fault?).elim (.ok ()) .error) := by
  induction list with
  | nil => rfl
  | cons i rest ih =>
    obtain ⟨hfirst, hrest⟩ := List.forall_mem_cons.mp h
    change (visit i >>= fun _ => rest.forM visit).Settles inv _
    rw [List.findSome?_cons]
    rcases hfault : fault? i with _ | fault
    · rw [hfault] at hfirst
      exact hfirst.bind_ok (ih hrest)
    · rw [hfault] at hfirst
      exact hfirst.bind_error

/-- At its end, a routine is at the result. -/
theorem Settles.eq_ofExcept {r : Routine Op Answer α} (h : r.Settles inv result)
    (hfinished : r.isFinished = true) : r = ofExcept result := by
  cases r with
  | done value =>
    cases h
    rfl
  | stop fault =>
    cases h
    rfl
  | report event next => cases hfinished
  | access op next => cases hfinished

end Settles

end Routine

namespace Crew

variable {σ Op : Type} {Answer : Op → Type} {α : Type} [SharedMemory σ Op Answer]
  {rely : σ → σ → Prop} {post : σ → Except Fault α → Prop}

/-- How the member at a place ended, if it is at its end. -/
def result? (crew : Crew σ Op Answer α) (place : Nat) : Option (Except Fault α) :=
  crew.members[place]?.bind Routine.result?

/-- A step of another member leaves a member as it is. -/
theorem getElem?_members_advance_of_ne (crew : Crew σ Op Answer α) {turn place : Nat}
    (h : turn ≠ place) : (crew.advance turn).members[place]? = crew.members[place]? := by
  unfold advance
  split
  · exact List.getElem?_set_ne h
  · exact List.getElem?_set_ne h
  · rfl

/-- A member that has had no turn is as it was. -/
theorem getElem?_members_follow_of_notMem (crew : Crew σ Op Answer α) {schedule : List Nat}
    {place : Nat} (h : place ∉ schedule) :
    (crew.follow schedule).members[place]? = crew.members[place]? := by
  induction schedule generalizing crew with
  | nil => rfl
  | cons turn rest ih =>
    obtain ⟨hturn, hrest⟩ := List.ne_and_not_mem_of_not_mem_cons h
    rw [follow_cons, ih _ hrest, getElem?_members_advance_of_ne crew (Ne.symm hturn)]

section Rely

variable (stable : Routine.IsStable rely post)

include stable

/-- After a step of the crew, a member ensures what it ensured, with one step less if it was its
own. -/
theorem exists_ensures_advance {crew : Crew σ Op Answer α} {turn place count : Nat}
    {r : Routine Op Answer α} (hself : rely crew.memory crew.memory)
    (hstep : rely crew.memory (crew.advance turn).memory)
    (hmember : crew.members[place]? = some r) (h : r.Ensures rely post count crew.memory) :
    ∃ r', (crew.advance turn).members[place]? = some r' ∧
      r'.Ensures rely post (count - if turn = place then 1 else 0) (crew.advance turn).memory := by
  by_cases hturn : turn = place
  · subst hturn
    rw [if_pos rfl]
    have hlt := (List.getElem?_eq_some_iff.mp hmember).1
    unfold advance
    rw [hmember]
    cases r with
    | done value => exact ⟨_, hmember, h⟩
    | stop fault => exact ⟨_, hmember, h⟩
    | report event next =>
      cases count with
      | zero => exact h.elim
      | succ count => exact ⟨next, List.getElem?_set_self hlt, h⟩
    | access op next =>
      cases count with
      | zero => exact h.elim
      | succ count => exact ⟨_, List.getElem?_set_self hlt, h _ hself⟩
  · refine ⟨r, ?_, ?_⟩
    · rw [getElem?_members_advance_of_ne crew hturn, hmember]
    · rw [if_neg hturn]
      exact h.mono stable hstep

/-- Along every schedule a member comes to the end that it ensures, at the latest after its own
turns are as many as its steps. -/
theorem result_follow {P : Crew σ Op Answer α → Prop}
    (step : ∀ crew turn, P crew → P (crew.advance turn))
    (self : ∀ crew, P crew → rely crew.memory crew.memory)
    (relies : ∀ crew turn, P crew → rely crew.memory (crew.advance turn).memory)
    {crew : Crew σ Op Answer α} (hcrew : P crew) {place count : Nat} {r : Routine Op Answer α}
    (hmember : crew.members[place]? = some r) (h : r.Ensures rely post count crew.memory)
    (schedule : List Nat) :
    (∀ result, (crew.follow schedule).result? place = some result →
        post (crew.follow schedule).memory result) ∧
      (count ≤ schedule.count place →
        ∃ result, (crew.follow schedule).result? place = some result) := by
  induction schedule generalizing crew count r with
  | nil =>
    rw [follow_nil, result?, hmember]
    refine ⟨fun result hresult => h.of_result hresult, fun hcount => ?_⟩
    -- without turns it has come to its end only if it had no steps to make
    rw [Nat.le_zero.mp hcount] at h
    exact h.exists_result
  | cons turn rest ih =>
    obtain ⟨r', hmember', h'⟩ :=
      exists_ensures_advance stable (self crew hcrew) (relies crew turn hcrew) hmember h
    obtain ⟨hpost, hend⟩ := ih (step crew turn hcrew) hmember' h'
    refine ⟨hpost, fun hcount => hend ?_⟩
    by_cases hturn : turn = place
    · subst hturn
      rw [List.count_cons_self] at hcount
      rw [if_pos rfl]
      omega
    · rw [List.count_cons_of_ne hturn] at hcount
      rw [if_neg hturn]
      omega

end Rely

section Settles

variable {inv : σ → Prop} {results : List (Except Fault α)}

/-- A step keeps the invariant, and what the members come to stays the same. -/
theorem settles_advance {crew : Crew σ Op Answer α} (hinv : inv crew.memory)
    (h : List.Forall₂ (Routine.Settles inv) results crew.members) (turn : Nat) :
    inv (crew.advance turn).memory ∧
      List.Forall₂ (Routine.Settles inv) results (crew.advance turn).members := by
  have hturn (result : Except Fault α) (routine : Routine Op Answer α)
      (hresult : results[turn]? = some result) (hroutine : crew.members[turn]? = some routine) :
      routine.Settles inv result := by
    obtain ⟨hlt, rfl⟩ := List.getElem?_eq_some_iff.mp hresult
    obtain ⟨hlt', rfl⟩ := List.getElem?_eq_some_iff.mp hroutine
    exact h.get hlt hlt'
  unfold advance
  split
  · next event next hmember =>
    refine ⟨hinv, forall₂_set h fun result hresult => ?_⟩
    exact hturn result (.report event next) hresult hmember
  · next op next hmember =>
    have hstep (result : Except Fault α) (hresult : results[turn]? = some result) :=
      hturn result (.access op next) hresult hmember crew.memory hinv
    have hlt := (List.getElem?_eq_some_iff.mp hmember).1
    obtain ⟨result, hresult⟩ : ∃ result, results[turn]? = some result :=
      ⟨_, List.getElem?_eq_getElem (h.length_eq.symm ▸ hlt)⟩
    exact ⟨(hstep result hresult).1, forall₂_set h fun result hresult => (hstep result hresult).2⟩
  · exact ⟨hinv, h⟩

/-- Along every schedule the invariant holds, and what the members come to stays the same. -/
theorem settles_follow (crew : Crew σ Op Answer α) (hinv : inv crew.memory)
    (h : List.Forall₂ (Routine.Settles inv) results crew.members) (schedule : List Nat) :
    inv (crew.follow schedule).memory ∧
      List.Forall₂ (Routine.Settles inv) results (crew.follow schedule).members :=
  follow_induction (P := fun crew => inv crew.memory ∧
      List.Forall₂ (Routine.Settles inv) results crew.members) ⟨hinv, h⟩
    (fun _ turn hcrew => settles_advance hcrew.1 hcrew.2 turn) schedule

end Settles

end Crew

end IdCompaction
