import IdCompaction.Event

/-!
# Actions

An action reads and changes a state, reports events, and ends in an answer or an error. The state
and the events survive an error: what was written before it stays written, what was reported before
it stays reported. Sequencing stops at the first error.
-/

namespace IdCompaction

/-- A part of a state: how to look at it, and how to put back a changed one. -/
structure Part (σ τ : Type) where
  get : σ → τ
  put : τ → σ → σ

/-- What an action leaves behind. -/
structure Outcome (ε σ α : Type) where
  state : σ
  events : List Event
  result : Except ε α

/-- A change of a state `σ` that reports events and ends in an `α` or an error `ε`. -/
def Action (ε σ α : Type) : Type := σ → Outcome ε σ α

namespace Action

variable {ε ε' σ τ α β : Type}

/-- The action that only answers. -/
protected def pure (a : α) : Action ε σ α := fun s => ⟨s, [], .ok a⟩

/-- One action after another; an error of the first skips the second. -/
protected def bind (x : Action ε σ α) (f : α → Action ε σ β) : Action ε σ β := fun s =>
  match x s with
  | ⟨s', events, .error e⟩ => ⟨s', events, .error e⟩
  | ⟨s', events, .ok a⟩ =>
    match f a s' with
    | ⟨s'', later, result⟩ => ⟨s'', events ++ later, result⟩

instance : Monad (Action ε σ) where
  pure := Action.pure
  bind := Action.bind

/-- The state as it is. -/
def get : Action ε σ σ := fun s => ⟨s, [], .ok s⟩

/-- Something seen in the state. -/
def gets (f : σ → α) : Action ε σ α := fun s => ⟨s, [], .ok (f s)⟩

/-- A change of the state that cannot fail. -/
def modify (f : σ → σ) : Action ε σ Unit := fun s => ⟨f s, [], .ok ()⟩

/-- A report of one event. -/
def emit (event : Event) : Action ε σ Unit := fun s => ⟨s, [event], .ok ()⟩

/-- The action that fails and changes nothing. -/
def fail (e : ε) : Action ε σ α := fun s => ⟨s, [], .error e⟩

/-- A computation that does not look at the state. -/
def ofExcept : Except ε α → Action ε σ α
  | .ok a => Action.pure a
  | .error e => fail e

/-- The same action with its errors renamed. -/
def mapError (f : ε → ε') (x : Action ε σ α) : Action ε' σ α := fun s =>
  match x s with
  | ⟨s', events, .ok a⟩ => ⟨s', events, .ok a⟩
  | ⟨s', events, .error e⟩ => ⟨s', events, .error (f e)⟩

/-- An action without errors, where errors of any kind may occur. -/
def safely (x : Action Empty σ α) : Action ε σ α := x.mapError Empty.elim

/-- An action on a part, as an action on the whole. -/
def within (part : Part σ τ) (x : Action ε τ α) : Action ε σ α := fun s =>
  match x (part.get s) with
  | ⟨t, events, result⟩ => ⟨part.put t s, events, result⟩

/-- The same action, with a clean-up after any error; the error is still the answer. -/
def onError (x : Action ε σ α) (cleanUp : Action Empty σ Unit) : Action ε σ α := fun s =>
  match x s with
  | ⟨s', events, .ok a⟩ => ⟨s', events, .ok a⟩
  | ⟨s', events, .error e⟩ =>
    match cleanUp s' with
    | ⟨s'', later, _⟩ => ⟨s'', events ++ later, .error e⟩

/-! ## Equations -/

/-- An answer leaves the state as it is and reports nothing. -/
theorem pure_apply (a : α) (s : σ) : (pure a : Action ε σ α) s = ⟨s, [], .ok a⟩ := rfl

/-- After an answer the sequence goes on from the state that it left. -/
theorem bind_apply_ok {x : Action ε σ α} {s s' : σ} {events : List Event} {a : α}
    (f : α → Action ε σ β) (h : x s = ⟨s', events, .ok a⟩) :
    (x >>= f) s = ⟨(f a s').state, events ++ (f a s').events, (f a s').result⟩ := by
  change Action.bind x f s = _
  simp only [Action.bind, h]

/-- A fault ends the sequence. -/
theorem bind_apply_error {x : Action ε σ α} {s s' : σ} {events : List Event} {e : ε}
    (f : α → Action ε σ β) (h : x s = ⟨s', events, .error e⟩) :
    (x >>= f) s = ⟨s', events, .error e⟩ := by
  change Action.bind x f s = _
  simp only [Action.bind, h]

/-- Mapping the answers to themselves changes nothing. -/
theorem id_map_eq (x : Action ε σ α) : id <$> x = x := by
  funext s
  change Action.bind x (fun a => Action.pure (id a)) s = x s
  rcases h : x s with ⟨s', events, _ | a⟩ <;> simp [Action.bind, Action.pure, h]

/-- What comes after an answer is what is done with it. -/
theorem pure_bind_eq (a : α) (f : α → Action ε σ β) : pure a >>= f = f a := by
  funext s
  change Action.bind (Action.pure a) f s = f a s
  simp [Action.bind, Action.pure]

/-- Sequences are the same however they are grouped. -/
theorem bind_assoc_eq (x : Action ε σ α) (f : α → Action ε σ β) (g : β → Action ε σ γ) :
    x >>= f >>= g = x >>= fun a => f a >>= g := by
  funext s
  change Action.bind (Action.bind x f) g s = Action.bind x (fun a => Action.bind (f a) g) s
  rcases h : x s with ⟨s', events, _ | a⟩
  · simp [Action.bind, h]
  · rcases h' : f a s' with ⟨s'', later, _ | b⟩ <;> simp [Action.bind, h, h']

instance : LawfulMonad (Action ε σ) :=
  LawfulMonad.mk' (Action ε σ) id_map_eq pure_bind_eq bind_assoc_eq

end Action

end IdCompaction
