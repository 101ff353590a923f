import IdCompaction.Action

/-!
# Loops

A loop performs its body for every number below a count, in runs of consecutive numbers. A run makes
its numbers in order and ends at the first error. An error ends its own run only, and of several
errors the first is the answer.

A worker cuts a loop in two and makes one half after the other. A second half that follows an error
is taken up as if another worker had left it, and so it is cut more finely: with errors in both
halves, numbers that come after the second error are still made if they are in a run of their own.

A run goes on from what it has done, not towards what is left to do: `Action.forRun` stores nothing
for the numbers still to come, so a run of any size may be cut short by an early error.
`forRun_eq_forM` says that it is the plain loop over the numbers of the run.
-/

namespace IdCompaction

/-- Consecutive numbers below `count`: `size` of them, from `start` on. -/
structure Run (count : Nat) where
  start : Nat
  size : Nat
  bound : start + size ≤ count

namespace Run

variable {count : Nat}

/-- All numbers below `count`. -/
def all (count : Nat) : Run count := ⟨0, count, by omega⟩

/-- The first half of a run, the smaller one if they differ. -/
def front (run : Run count) : Run count :=
  ⟨run.start, run.size / 2, by have := run.bound; omega⟩

/-- The second half of a run. -/
def back (run : Run count) : Run count :=
  ⟨run.start + run.size / 2, run.size - run.size / 2, by have := run.bound; omega⟩

/-- The next `size` numbers from `start` on. -/
def numbersFrom : (size start : Nat) → start + size ≤ count → List (Fin count)
  | 0, _, _ => []
  | size + 1, start, bound =>
    ⟨start, by omega⟩ :: numbersFrom size (start + 1) (by omega)

/-- The numbers of a run, in order. -/
def numbers (run : Run count) : List (Fin count) := numbersFrom run.size run.start run.bound

/-- The numbers from a start on, as plain numbers. -/
theorem map_val_numbersFrom (size start : Nat) (bound : start + size ≤ count) :
    (numbersFrom size start bound).map Fin.val = List.range' start size := by
  induction size generalizing start with
  | zero => rfl
  | succ size ih => simp [numbersFrom, ih, List.range'_succ]

/-- The numbers of a run as plain numbers. -/
theorem map_val_numbers (run : Run count) :
    run.numbers.map Fin.val = List.range' run.start run.size :=
  map_val_numbersFrom run.size run.start run.bound

/-- The run of everything leaves nothing out. -/
theorem numbers_all (count : Nat) : (all count).numbers = List.finRange count := by
  refine (List.map_inj_right fun _ _ => Fin.eq_of_val_eq).mp ?_
  rw [map_val_numbers]
  apply List.ext_getElem <;> simp [all]

end Run

namespace Action

variable {ε σ : Type} {count : Nat}

/-- The body at the next `size` numbers from `start` on, after the events `before`, latest first. -/
def loop (body : Fin count → Action ε σ Unit) :
    (size start : Nat) → start + size ≤ count → List Event → σ → Outcome ε σ Unit
  | 0, _, _, before, s => ⟨s, before.reverse, .ok ()⟩
  | size + 1, start, bound, before, s =>
    match body ⟨start, by omega⟩ s with
    | ⟨s', events, .error e⟩ => ⟨s', before.reverse ++ events, .error e⟩
    | ⟨s', events, .ok _⟩ =>
      loop body size (start + 1) (by omega) (events.reverse ++ before) s'

/-- The body at every number of a run. -/
def forRun (run : Run count) (body : Fin count → Action ε σ Unit) : Action ε σ Unit :=
  loop body run.size run.start run.bound []

/-- Both actions, the second whether or not the first failed, but by what the first came to. The
first error is the answer. -/
def both (x : Action ε σ Unit) (y : Except ε Unit → Action ε σ Unit) : Action ε σ Unit := fun s =>
  match x s with
  | ⟨s', events, result⟩ =>
    match y result s' with
    | ⟨s'', later, result'⟩ =>
      ⟨s'', events ++ later, match result with | .error e => .error e | .ok _ => result'⟩

/-- How often a second half is cut, by what the first half came to. -/
def cutsAfter (cuts : Nat) : Except ε Unit → Nat
  | .ok _ => cuts
  | .error _ => 2

/-- Makes a run, cut in two `cuts` times over, but not into halves of less than `least` numbers. -/
def forHalves (least : Nat) (body : Fin count → Action ε σ Unit) :
    (cuts : Nat) → (run : Run count) → Action ε σ Unit
  | 0, run => forRun run body
  | cuts + 1, run =>
    if _h : max least 1 ≤ run.size / 2 then
      both (forHalves least body cuts run.front) fun result =>
        forHalves least body (cutsAfter cuts result) run.back
    else forRun run body
termination_by _ run => run.size
decreasing_by all_goals simp only [Run.front, Run.back]; omega

/-- The loop of one worker over all numbers. -/
def forAll (least : Nat) (body : Fin count → Action ε σ Unit) : Action ε σ Unit :=
  forHalves least body 1 (Run.all count)

/-! ## Equations -/

/-- The loop does what going through the list of its numbers does. -/
theorem loop_eq (body : Fin count → Action ε σ Unit) (size start : Nat)
    (bound : start + size ≤ count) (before : List Event) (s : σ) :
    loop body size start bound before s =
      match (Run.numbersFrom size start bound).forM body s with
      | ⟨s', events, result⟩ => ⟨s', before.reverse ++ events, result⟩ := by
  induction size generalizing start before s with
  | zero =>
    change _ = (⟨s, before.reverse ++ [], .ok ()⟩ : Outcome ε σ Unit)
    rw [loop, List.append_nil]
  | succ size ih =>
    let first : Fin count := ⟨start, by omega⟩
    let rest (_ : Unit) : Action ε σ Unit := (Run.numbersFrom size (start + 1) (by omega)).forM body
    change loop body (size + 1) start bound before s = match (body first >>= rest) s with
      | ⟨s', events, result⟩ => ⟨s', before.reverse ++ events, result⟩
    rcases h : body first s with ⟨s', events, e | a⟩
    · rw [bind_apply_error rest h, loop, h]
    · rw [bind_apply_ok rest h, loop, h]
      simp [ih, rest]

/-- A run of a loop is the plain loop over its numbers. -/
theorem forRun_eq_forM (run : Run count) (body : Fin count → Action ε σ Unit) :
    forRun run body = run.numbers.forM body := by
  funext s
  simp [forRun, loop_eq, Run.numbers]

end Action

end IdCompaction
