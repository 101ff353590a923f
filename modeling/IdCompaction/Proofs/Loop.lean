import IdCompaction.Pool
import Mathlib.Data.List.Basic

/-!
# Loops cut into runs

One worker makes a loop in runs, one after another, and a fault ends its own run only. How finely it
cuts what is left depends on the faults that it meets, so the runs are those of the loop on one
state (`Action.runsOf`). Two things hold whatever they are. A property that the body keeps at every
number, faults included, holds after the loop. And a loop is without faults exactly if the plain
loop over its numbers is, in which case cutting makes no difference at all.
-/

namespace IdCompaction

section Results

variable {ε ι : Type}

/-- A result without a value is an error or is the good one. -/
theorem exists_eq_error_iff {result : Except ε Unit} :
    (∃ e, result = .error e) ↔ result ≠ .ok () := by
  obtain e | _ := result <;> simp

/-- What may have an error is good exactly if it has none. -/
theorem elim_ok_error_eq_ok_iff {error : Option ε} :
    (error.elim (.ok ()) .error : Except ε Unit) = .ok () ↔ error = none := by
  cases error <;> simp

/-- The first error of several results is none exactly if all of them are good. -/
theorem forM_eq_ok_iff {f : ι → Except ε Unit} {list : List ι} :
    list.forM f = .ok () ↔ ∀ i ∈ list, f i = .ok () := by
  induction list with
  | nil => simp [pure, Except.pure]
  | cons first rest ih =>
    rw [List.forall_mem_cons, ← ih]
    change (f first >>= fun _ => rest.forM f) = .ok () ↔ f first = .ok () ∧ rest.forM f = .ok ()
    obtain e | _ := f first
    · simp [bind, Except.bind]
    · exact ⟨fun h => ⟨rfl, h⟩, And.right⟩

/-- The first error of several searches is what one search through all of them finds. -/
theorem forM_findSome? {f : ι → Option ε} (lists : List (List ι)) :
    (lists.map fun list => ((list.findSome? f).elim (.ok ()) .error : Except ε Unit)).forM id =
      (lists.flatten.findSome? f).elim (.ok ()) .error := by
  induction lists with
  | nil => rfl
  | cons list rest ih =>
    rw [List.flatten_cons, List.findSome?_append, List.map_cons]
    rcases list.findSome? f with _ | error
    · exact ih
    · rfl

end Results

namespace Action

variable {ε σ α β ι : Type}

/-- A sequence, as it runs. -/
theorem bind_apply (x : Action ε σ α) (f : α → Action ε σ β) (s : σ) :
    (x >>= f) s =
      match x s with
      | ⟨s', events, .error e⟩ => ⟨s', events, .error e⟩
      | ⟨s', events, .ok a⟩ =>
        match f a s' with
        | ⟨s'', later, result⟩ => ⟨s'', events ++ later, result⟩ := rfl

/-- A look at the state changes nothing. -/
theorem gets_apply (f : σ → α) (s : σ) : (gets f : Action ε σ α) s = ⟨s, [], .ok (f s)⟩ := rfl

/-- What follows a part that goes well and reports nothing starts from the state it leaves. -/
theorem bind_apply_silent {x : Action ε σ α} {s s' : σ} {a : α} (f : α → Action ε σ β)
    (h : x s = ⟨s', [], .ok a⟩) : (x >>= f) s = f a s' := by
  rw [bind_apply_ok f h]
  rfl

/-- What follows a computation that gives a value starts from the same state. -/
theorem ofExcept_bind_apply {e : Except ε α} {a : α} (h : e = .ok a) (f : α → Action ε σ β)
    (s : σ) : ((ofExcept e : Action ε σ α) >>= f) s = f a s := by
  subst h
  exact bind_apply_silent f rfl

/-- An outcome is told by its result. -/
theorem apply_of_result {x : Action ε σ α} {s : σ} {result : Except ε α}
    (h : (x s).result = result) : x s = ⟨(x s).state, (x s).events, result⟩ := by
  rw [← h]

/-- After a part that goes well, the rest decides what is left and what is answered. -/
theorem bind_of_ok {x : Action ε σ α} {s : σ} {a : α} (f : α → Action ε σ β)
    (h : (x s).result = .ok a) :
    ((x >>= f) s).result = (f a (x s).state).result ∧
      ((x >>= f) s).state = (f a (x s).state).state := by
  rw [bind_apply_ok f (apply_of_result h)]
  exact ⟨rfl, rfl⟩

/-- Where the rest only looks and reports, the part before it decides what is left and answered. -/
theorem bind_of_looking {x : Action ε σ Unit} {f : Unit → Action ε σ Unit}
    (hf : ∀ s, (f () s).state = s ∧ (f () s).result = .ok ()) (s : σ) :
    ((x >>= f) s).state = (x s).state ∧ ((x >>= f) s).result = (x s).result := by
  rcases hx : x s with ⟨last, events, error | _⟩
  · rw [bind_apply_error _ hx]
    exact ⟨rfl, rfl⟩
  · rw [bind_apply_ok _ hx]
    exact hf last

/-- Mapping the answer changes nothing else. -/
theorem map_apply (f : α → β) (x : Action ε σ α) (s : σ) :
    (f <$> x) s = ⟨(x s).state, (x s).events, (x s).result.map f⟩ := by
  rw [← bind_pure_comp, bind_apply]
  obtain ⟨last, events, _ | a⟩ := x s
  · rfl
  · simp [pure_apply, Except.map]

/-- Doing something with the answer of an action makes no difference to where the action works. -/
theorem within_map {τ : Type} (part : Part σ τ) (f : α → β) (x : Action ε τ α) :
    (f <$> x).within part = f <$> x.within part := by
  funext s
  rw [map_apply, within, map_apply]
  rfl

/-- Discarding the answer changes nothing else. -/
theorem discard_apply (x : Action ε σ α) (s : σ) :
    discard x s = ⟨(x s).state, (x s).events, (x s).result.map fun _ => ()⟩ := by
  change Action.bind x (fun _ => Action.pure ()) s = _
  rcases h : x s with ⟨s', events, _ | a⟩ <;> simp [Action.bind, Action.pure, h, Except.map]

/-- A sequence is without faults exactly if both parts are. -/
theorem result_bind_eq_ok_iff {x : Action ε σ α} {f : α → Action ε σ β} {s : σ} {b : β} :
    ((x >>= f) s).result = .ok b ↔
      ∃ a, (x s).result = .ok a ∧ (f a (x s).state).result = .ok b := by
  rw [bind_apply]
  rcases x s with ⟨s', events, _ | a⟩ <;> simp

/-- The same for a first part whose answer nobody asks for. -/
theorem result_seq_eq_ok_iff {x : Action ε σ Unit} {y : Action ε σ β} {s : σ} {b : β} :
    ((x >>= fun _ => y) s).result = .ok b ↔
      (x s).result = .ok () ∧ (y (x s).state).result = .ok b := by
  rw [result_bind_eq_ok_iff]
  exact ⟨fun ⟨_, hx, hy⟩ => ⟨hx, hy⟩, fun ⟨hx, hy⟩ => ⟨(), hx, hy⟩⟩

/-- A clean-up runs only after an error, so it makes no answer. -/
theorem result_onError_eq_ok_iff {x : Action ε σ α} {cleanUp : Action Empty σ Unit} {s : σ}
    {a : α} : (x.onError cleanUp s).result = .ok a ↔ (x s).result = .ok a := by
  unfold onError
  rcases x s with ⟨s', events, _ | a⟩ <;> simp

/-- A clean-up that is meant for errors does not mind what is made of an answer. -/
theorem onError_bind_pure (x : Action ε σ α) (f : α → β) (cleanUp : Action Empty σ Unit) :
    (x >>= fun a => pure (f a)).onError cleanUp = x.onError cleanUp >>= fun a => pure (f a) := by
  funext s
  rcases h : x s with ⟨s', events, e | a⟩ <;>
    simp [onError, bind_apply, h, pure_apply]

/-- Renaming the errors of an action changes no state. -/
theorem state_mapError {ε' : Type} (f : ε → ε') (x : Action ε σ α) (s : σ) :
    (x.mapError f s).state = (x s).state := by
  unfold mapError
  rcases x s with ⟨s', events, _ | a⟩ <;> rfl

/-- A property that both parts keep is kept by their sequence. -/
theorem state_bind_induction {P : σ → Prop} {x : Action ε σ α} {f : α → Action ε σ β} {s : σ}
    (hx : P (x s).state) (hf : ∀ a s', P s' → P (f a s').state) : P ((x >>= f) s).state := by
  rw [bind_apply]
  rcases h : x s with ⟨s', events, _ | a⟩
  · rwa [h] at hx
  · rw [h] at hx
    exact hf a s' hx

/-- A loop does its first element and goes on with the others. -/
theorem forM_cons (i : ι) (rest : List ι) (body : ι → Action ε σ Unit) :
    (i :: rest).forM body = body i >>= fun _ => rest.forM body := rfl

/-- A loop over two lists does one after the other. -/
theorem forM_append (first second : List ι) (body : ι → Action ε σ Unit) :
    (first ++ second).forM body = first.forM body >>= fun _ => second.forM body :=
  List.forM_append

/-- A loop that comes to an error goes no further. -/
theorem forM_append_cons_of_error {body : ι → Action ε σ Unit} {before : List ι} {i : ι}
    {s mid last : σ} {events later : List Event} {e : ε} (after : List ι)
    (hbefore : before.forM body s = ⟨mid, events, .ok ()⟩)
    (hi : body i mid = ⟨last, later, .error e⟩) :
    (before ++ i :: after).forM body s = ⟨last, events ++ later, .error e⟩ := by
  rw [forM_append, bind_apply_ok _ hbefore, forM_cons, bind_apply_error _ hi]

/-- A property that the body keeps holds after a loop, whether or not the loop ends early. -/
theorem state_forM_induction {P : σ → Prop} {body : ι → Action ε σ Unit}
    (hbody : ∀ i s, P s → P (body i s).state) (list : List ι) (s : σ) (hs : P s) :
    P (list.forM body s).state := by
  induction list generalizing s with
  | nil => exact hs
  | cons i rest ih => exact state_bind_induction (hbody i s hs) fun _ s' hs' => ih s' hs'

/-- A loop whose body never fails only changes the state, step by step. -/
theorem forM_eq_foldl {body : ι → Action ε σ Unit} {step : σ → ι → σ} (list : List ι)
    (hbody : ∀ i ∈ list, ∀ s, body i s = ⟨step s i, [], .ok ()⟩) (s : σ) :
    list.forM body s = ⟨list.foldl step s, [], .ok ()⟩ := by
  induction list generalizing s with
  | nil => rfl
  | cons i rest ih =>
    rw [forM_cons, bind_apply_silent _ (hbody i List.mem_cons_self s)]
    exact ih (fun j hj => hbody j (List.mem_cons_of_mem i hj)) (step s i)

/-- A loop over the places of a list is the loop over its elements. -/
theorem forM_finRange_get (list : List ι) (body : ι → Action ε σ Unit) :
    (List.finRange list.length).forM (fun i => body (list.get i)) = list.forM body := by
  conv_rhs => rw [← List.map_get_finRange list]
  exact (List.forM_map ..).symm

section Both

variable {x : Action ε σ Unit} {s : σ}

/-- Both halves are done, the second from where the first left off, and the first fault is kept. -/
theorem both_apply (x : Action ε σ Unit) (y : Except ε Unit → Action ε σ Unit) (s : σ) :
    both x y s =
      ⟨(y (x s).result (x s).state).state, (x s).events ++ (y (x s).result (x s).state).events,
        match (x s).result with
        | .error e => .error e
        | .ok _ => (y (x s).result (x s).state).result⟩ := rfl

/-- Both halves end without a fault if each does. -/
theorem result_both_eq_ok_iff {y : Action ε σ Unit} :
    (both x (fun _ => y) s).result = .ok () ↔
      (x s).result = .ok () ∧ (y (x s).state).result = .ok () := by
  rw [both_apply]
  rcases (x s).result with e | a <;> simp

/-- The second part starts from what the first one left, and answers if the first one was good. -/
theorem both_of_apply {s' : σ} {events : List Event} {result : Except ε Unit}
    (y : Action ε σ Unit) (h : x s = ⟨s', events, result⟩) :
    both x (fun _ => y) s =
      ⟨(y s').state, events ++ (y s').events, result >>= fun _ => (y s').result⟩ := by
  rw [both_apply, h]
  cases result <;> rfl

/-- An action and nothing after it are the action alone. -/
theorem both_pure (x : Action ε σ Unit) : (both x fun _ => pure ()) = x := by
  funext s
  rcases hx : x s with ⟨last, events, e | _⟩ <;> rw [both_of_apply _ hx] <;>
    simp [pure_apply, bind, Except.bind]

/-- Of three actions it does not matter which two are taken together. -/
theorem both_assoc (x y z : Action ε σ Unit) :
    (both (both x fun _ => y) fun _ => z) = both x fun _ => both y fun _ => z := by
  funext s
  simp only [both_apply, List.append_assoc]
  rcases (x s).result <;> rfl

/-- Without a fault in the first part, both parts are just one after the other. -/
theorem both_of_ok {y : Action ε σ Unit} (h : (x s).result = .ok ()) :
    both x (fun _ => y) s = (x >>= fun _ => y) s := by
  rw [bind_apply_ok (fun _ => y) (apply_of_result h), both_apply, h]

end Both

section Runs

variable {count : Nat} {body : Fin count → Action ε σ Unit}

/-- Makes every run in turn. An error ends its own run only, and the first error is the answer. -/
def forRuns (body : Fin count → Action ε σ Unit) : List (Run count) → Action ε σ Unit
  | [] => pure ()
  | run :: rest => both (run.numbers.forM body) fun _ => forRuns body rest

/-- The first run is done, and the others whatever it came to. -/
theorem forRuns_cons (run : Run count) (rest : List (Run count)) :
    forRuns body (run :: rest) = (both (run.numbers.forM body) fun _ => forRuns body rest) := rfl

/-- A single run is a loop over its numbers. -/
theorem forRuns_singleton (run : Run count) : forRuns body [run] = run.numbers.forM body :=
  both_pure _

/-- Runs in two lists are done as one half and the other. -/
theorem forRuns_append (first second : List (Run count)) :
    forRuns body (first ++ second) =
      (both (forRuns body first) fun _ => forRuns body second) := by
  induction first with
  | nil => rfl
  | cons run rest ih => rw [List.cons_append, forRuns_cons, ih, forRuns_cons, both_assoc]

/-- A loop cut into runs is without faults exactly if the loop over all numbers is. -/
theorem result_forRuns_eq_ok_iff (runs : List (Run count)) (s : σ) :
    (forRuns body runs s).result = .ok () ↔
      ((runs.flatMap Run.numbers).forM body s).result = .ok () := by
  induction runs generalizing s with
  | nil => exact Iff.rfl
  | cons run rest ih =>
    rw [forRuns_cons, result_both_eq_ok_iff, ih, List.flatMap_cons, forM_append,
      result_seq_eq_ok_iff]

/-- A loop without faults is the same however it is cut. -/
theorem forRuns_of_ok (runs : List (Run count)) (s : σ)
    (h : ((runs.flatMap Run.numbers).forM body s).result = .ok ()) :
    forRuns body runs s = (runs.flatMap Run.numbers).forM body s := by
  induction runs generalizing s with
  | nil => rfl
  | cons run rest ih =>
    rw [List.flatMap_cons, forM_append] at h ⊢
    obtain ⟨hfirst, hlater⟩ := result_seq_eq_ok_iff.mp h
    have hx := apply_of_result hfirst
    rw [forRuns_cons, both_of_ok hfirst, bind_apply_ok _ hx, bind_apply_ok _ hx, ih _ hlater]

/-- A property that the body keeps holds after a loop that is cut into runs. -/
theorem state_forRuns_induction {P : σ → Prop} (hbody : ∀ i s, P s → P (body i s).state)
    (runs : List (Run count)) (s : σ) (hs : P s) : P (forRuns body runs s).state := by
  induction runs generalizing s with
  | nil => exact hs
  | cons run rest ih => exact ih _ (state_forM_induction hbody run.numbers s hs)

end Runs

end Action

namespace Run

variable {count : Nat}

/-- A run is its two halves. -/
theorem numbers_front_append_back (run : Run count) :
    run.front.numbers ++ run.back.numbers = run.numbers := by
  refine (List.map_inj_right fun _ _ => Fin.eq_of_val_eq).mp ?_
  rw [List.map_append, map_val_numbers, map_val_numbers, map_val_numbers]
  have h := List.range'_append_1 (s := run.start) (m := run.size / 2) (n := run.size - run.size / 2)
  rwa [Nat.add_sub_cancel' (Nat.div_le_self run.size 2)] at h

/-- What holds of a run that is too short to be cut, and of a run if it holds of both its halves,
holds of every run. -/
@[elab_as_elim]
theorem halves_induction (least : Nat) {P : Run count → Prop} (run : Run count)
    (short : ∀ run : Run count, run.size / 2 < max least 1 → P run)
    (long : ∀ run : Run count, max least 1 ≤ run.size / 2 → P run.front → P run.back → P run) :
    P run := by
  induction hsize : run.size using Nat.strongRecOn generalizing run with
  | _ size ih =>
    subst hsize
    by_cases h : max least 1 ≤ run.size / 2
    · refine long run h (ih _ ?_ _ rfl) (ih _ ?_ _ rfl) <;> simp only [front, back] <;> omega
    · exact short run (Nat.lt_of_not_le h)

end Run

namespace Action

variable {ε σ : Type} {count : Nat} {least : Nat} {body : Fin count → Action ε σ Unit}
  {run : Run count}

/-- A run that is not cut any more is the plain loop over its numbers. -/
theorem forHalves_zero : forHalves least body 0 run = run.numbers.forM body := by
  rw [forHalves, forRun_eq_forM]

/-- A run that is too short to be cut is the plain loop over its numbers. -/
theorem forHalves_of_lt (h : run.size / 2 < max least 1) (cuts : Nat) :
    forHalves least body cuts run = run.numbers.forM body := by
  cases cuts with
  | zero => exact forHalves_zero
  | succ cuts => rw [forHalves, dif_neg (Nat.not_le.mpr h), forRun_eq_forM]

/-- A run that is long enough to be cut is its first half and then its second half. -/
theorem forHalves_of_le (h : max least 1 ≤ run.size / 2) (cuts : Nat) :
    forHalves least body (cuts + 1) run =
      both (forHalves least body cuts run.front) fun result =>
        forHalves least body (cutsAfter cuts result) run.back := by
  rw [forHalves, dif_pos h]

/-- The runs that `forHalves` makes on a state. -/
def runsOf (least : Nat) (body : Fin count → Action ε σ Unit) :
    (cuts : Nat) → (run : Run count) → σ → List (Run count)
  | 0, run, _ => [run]
  | cuts + 1, run, s =>
    if _h : max least 1 ≤ run.size / 2 then
      let first := forHalves least body cuts run.front s
      runsOf least body cuts run.front s ++
        runsOf least body (cutsAfter cuts first.result) run.back first.state
    else [run]
termination_by _ run => run.size
decreasing_by all_goals simp only [Run.front, Run.back]; omega

/-- A run too short to be cut is done whole. -/
theorem runsOf_of_lt (h : run.size / 2 < max least 1) (cuts : Nat) (s : σ) :
    runsOf least body cuts run s = [run] := by
  cases cuts with
  | zero => rw [runsOf]
  | succ cuts => rw [runsOf, dif_neg (Nat.not_le.mpr h)]

/-- A longer one is cut in two, and the second half is cut again as the first half ended. -/
theorem runsOf_of_le (h : max least 1 ≤ run.size / 2) (cuts : Nat) (s : σ) :
    runsOf least body (cuts + 1) run s =
      runsOf least body cuts run.front s ++
        runsOf least body (cutsAfter cuts (forHalves least body cuts run.front s).result) run.back
          (forHalves least body cuts run.front s).state := by
  rw [runsOf, dif_pos h]

/-- The runs of a loop have every number of the loop, in order. -/
theorem numbers_runsOf (cuts : Nat) (s : σ) :
    (runsOf least body cuts run s).flatMap Run.numbers = run.numbers := by
  induction run using Run.halves_induction least generalizing cuts s with
  | short run h => rw [runsOf_of_lt h, List.flatMap_singleton]
  | long run h ihfront ihback =>
    cases cuts with
    | zero => rw [runsOf, List.flatMap_singleton]
    | succ cuts =>
      rw [runsOf_of_le h, List.flatMap_append, ihfront, ihback, Run.numbers_front_append_back]

/-- A loop by halves is its runs in turn. -/
theorem forHalves_eq_forRuns (cuts : Nat) (s : σ) :
    forHalves least body cuts run s = forRuns body (runsOf least body cuts run s) s := by
  induction run using Run.halves_induction least generalizing cuts s with
  | short run h => rw [forHalves_of_lt h, runsOf_of_lt h, forRuns_singleton]
  | long run h ihfront ihback =>
    cases cuts with
    | zero => rw [forHalves_zero, runsOf, forRuns_singleton]
    | succ cuts =>
      rw [forHalves_of_le h, runsOf_of_le h, forRuns_append, both_apply, both_apply, ← ihfront,
        ← ihback]

/-- The runs of the loop over all numbers list every number once, in order. -/
theorem numbers_runsOf_all (s : σ) :
    (runsOf least body 1 (Run.all count) s).flatMap Run.numbers = List.finRange count := by
  rw [numbers_runsOf, Run.numbers_all]

/-- On each state the loop over everything is a loop over runs. -/
theorem forAll_eq_forRuns (s : σ) :
    forAll least body s = forRuns body (runsOf least body 1 (Run.all count) s) s :=
  forHalves_eq_forRuns 1 s

/-- That loop ends without a fault exactly if going through the numbers in order does. -/
theorem result_forAll_eq_ok_iff (s : σ) :
    (forAll least body s).result = .ok () ↔
      ((List.finRange count).forM body s).result = .ok () := by
  rw [forAll_eq_forRuns, result_forRuns_eq_ok_iff, numbers_runsOf_all]

/-- A loop without faults makes every number in order. -/
theorem forAll_of_ok (s : σ) (h : ((List.finRange count).forM body s).result = .ok ()) :
    forAll least body s = (List.finRange count).forM body s := by
  have hall : (runsOf least body 1 (Run.all count) s).flatMap Run.numbers = List.finRange count :=
    numbers_runsOf_all s
  rw [← hall] at h
  rw [forAll_eq_forRuns, forRuns_of_ok _ s h, hall]

end Action

namespace Pool

variable {ε σ : Type} {count : Nat} {body : Fin count → Action ε σ Unit}

/-- A loop that is not cut is the plain loop over its numbers. -/
theorem forEach_of_lt {p : Pool} (h : count / 2 < p.minChunk) :
    p.forEach count body = (List.finRange count).forM body := by
  have hshort : (Run.all count).size / 2 < max p.minChunk 1 := by
    change count / 2 < _
    omega
  rw [forEach, Action.forAll, Action.forHalves_of_lt hshort, Run.numbers_all]

/-- A loop of a pool ends without a fault exactly if going through its numbers in order does. -/
theorem result_forEach_eq_ok_iff (p : Pool) (s : σ) :
    (p.forEach count body s).result = .ok () ↔
      ((List.finRange count).forM body s).result = .ok () :=
  Action.result_forAll_eq_ok_iff s

/-- A loop without faults makes every number in order. -/
theorem forEach_of_ok (p : Pool) (s : σ)
    (h : ((List.finRange count).forM body s).result = .ok ()) :
    p.forEach count body s = (List.finRange count).forM body s :=
  Action.forAll_of_ok s h

/-- A loop whose body never fails only changes the state, number by number. -/
theorem forEach_eq_foldl (p : Pool) {step : σ → Fin count → σ}
    (hbody : ∀ i s, body i s = ⟨step s i, [], .ok ()⟩) (s : σ) :
    p.forEach count body s = ⟨(List.finRange count).foldl step s, [], .ok ()⟩ := by
  have h := Action.forM_eq_foldl (List.finRange count) (fun i _ => hbody i) s
  rw [forEach_of_ok p s (by rw [h]), h]

/-- What the body keeps at every number, the pool keeps. -/
theorem state_forEach_induction {P : σ → Prop} (hbody : ∀ i s, P s → P (body i s).state)
    (p : Pool) (s : σ) (hs : P s) : P (p.forEach count body s).state := by
  rw [forEach, Action.forAll_eq_forRuns]
  exact Action.state_forRuns_induction hbody _ s hs

end Pool

end IdCompaction
