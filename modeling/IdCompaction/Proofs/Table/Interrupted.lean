import IdCompaction.Proofs.Table.RaceEnd
import Mathlib.Data.List.TakeWhile

/-!
# Batches cut short by a fault

A run of a batch makes its calls up to the first ID past the capacity, and an ID past the capacity
ends its own run only. So a batch that faults still claims the IDs that its runs call for before
they end, in the order of the runs, and it leaves the table that numbers these as well. Which IDs
are past the capacity does not depend on the table, so neither do the runs. A batch whose IDs are
all below the capacity calls for all of them, however it is cut.
-/

namespace IdCompaction

namespace Run

variable {count : Nat} {least : Nat} {fails : Fin count → Bool} {run : Run count}

/-- The runs of a loop by halves whose body fails at these numbers, on whatever state. -/
def pieces (least : Nat) (fails : Fin count → Bool) : (cuts : Nat) → Run count → List (Run count)
  | 0, run => [run]
  | cuts + 1, run =>
    if _h : max least 1 ≤ run.size / 2 then
      pieces least fails cuts run.front ++
        pieces least fails (if run.front.numbers.any fails then 2 else cuts) run.back
    else [run]
termination_by _ run => run.size
decreasing_by all_goals simp only [front, back]; omega

/-- A run too short to be cut is one piece. -/
theorem pieces_of_lt (h : run.size / 2 < max least 1) (cuts : Nat) :
    pieces least fails cuts run = [run] := by
  cases cuts with
  | zero => rw [pieces]
  | succ cuts => rw [pieces, dif_neg (Nat.not_le.mpr h)]

/-- A longer one is cut in two, and its second half finer if the first half has failed. -/
theorem pieces_of_le (h : max least 1 ≤ run.size / 2) (cuts : Nat) :
    pieces least fails (cuts + 1) run =
      pieces least fails cuts run.front ++
        pieces least fails (if run.front.numbers.any fails then 2 else cuts) run.back := by
  rw [pieces, dif_pos h]

/-- The pieces of a run have every number of the run, in order. -/
theorem numbers_pieces (cuts : Nat) :
    (pieces least fails cuts run).flatMap numbers = run.numbers := by
  induction run using halves_induction least generalizing cuts with
  | short run h => rw [pieces_of_lt h, List.flatMap_singleton]
  | long run h ihfront ihback =>
    cases cuts with
    | zero => rw [pieces, List.flatMap_singleton]
    | succ cuts =>
      rw [pieces_of_le h, List.flatMap_append, ihfront, ihback, numbers_front_append_back]

end Run

namespace Action

variable {ε σ : Type} {count : Nat} {least : Nat} {body : Fin count → Action ε σ Unit}
  {P : σ → Prop} {fails : Fin count → Bool} (hkept : ∀ i s, P s → P (body i s).state)
  (hfails : ∀ i s, P s → ((body i s).result = .ok () ↔ fails i = false))

include hkept hfails

/-- If it depends on the number alone whether the body fails, a loop is without faults exactly if no
number of it fails. -/
theorem result_forM_eq_ok_iff_of_fails {s : σ} (hs : P s) (list : List (Fin count)) :
    (list.forM body s).result = .ok () ↔ list.any fails = false := by
  induction list generalizing s with
  | nil => simp [pure_apply]
  | cons i rest ih =>
    rw [forM_cons, result_seq_eq_ok_iff, hfails i s hs, ih (hkept i s hs), List.any_cons,
      Bool.or_eq_false_iff]

/-- If it depends on the number alone whether the body fails, so do the runs of a loop. -/
theorem runsOf_eq_pieces {s : σ} (hs : P s) (cuts : Nat) (run : Run count) :
    runsOf least body cuts run s = run.pieces least fails cuts := by
  induction run using Run.halves_induction least generalizing cuts s with
  | short run h => rw [runsOf_of_lt h, Run.pieces_of_lt h]
  | long run h ihfront ihback =>
    cases cuts with
    | zero => rw [runsOf, Run.pieces]
    | succ cuts =>
      have hstate : P (forHalves least body cuts run.front s).state := by
        rw [forHalves_eq_forRuns]
        exact state_forRuns_induction hkept _ s hs
      have hresult : (forHalves least body cuts run.front s).result = .ok () ↔
          run.front.numbers.any fails = false := by
        rw [forHalves_eq_forRuns, result_forRuns_eq_ok_iff, numbers_runsOf,
          result_forM_eq_ok_iff_of_fails hkept hfails hs]
      have hcuts : cutsAfter cuts (forHalves least body cuts run.front s).result =
          if run.front.numbers.any fails then 2 else cuts := by
        cases hany : run.front.numbers.any fails with
        | false => rw [hresult.mpr hany]; rfl
        | true =>
          obtain ⟨e, herror⟩ := exists_eq_error_iff.mpr (hresult.not.mpr (by simp [hany]))
          rw [herror]
          rfl
      rw [runsOf_of_le h, Run.pieces_of_le h, ihfront hs, ihback hstate, hcuts]

end Action

namespace Table

variable {capacity : Nat} {t : Table capacity} {ids : List Id}

/-- An ID in range is called for, and those behind it too. -/
theorem called_cons_of_lt {id : Id} (rest : List Id) (h : id.toNat < capacity) :
    called capacity (id :: rest) = id :: called capacity rest :=
  List.takeWhile_cons_of_pos (by simpa using h)

/-- Nothing is called for from an ID past the capacity on. -/
theorem called_cons_of_le {id : Id} (rest : List Id) (h : capacity ≤ id.toNat) :
    called capacity (id :: rest) = [] :=
  List.takeWhile_cons_of_neg (by simpa using h)

/-- IDs that are called for are below the capacity. -/
theorem toNat_lt_of_mem_called {list : List Id} {id : Id} (h : id ∈ called capacity list) :
    id.toNat < capacity := by
  simpa using List.mem_takeWhile_imp h

/-- A list of IDs below the capacity is called for as a whole. -/
theorem called_of_inRange {list : List Id} (h : ∀ id ∈ list, id.toNat < capacity) :
    called capacity list = list :=
  List.takeWhile_eq_self_iff.mpr (by simpa using h)

/-- The IDs that a batch calls for: those of each run before the first one past the capacity. -/
def calledIn (capacity : Nat) (pool : Pool) (batch : List Id) : List Id :=
  ((Run.all batch.length).pieces pool.minChunk
    (fun i => decide (capacity ≤ (batch.get i).toNat)) 1).flatMap fun run =>
      called capacity (run.numbers.map batch.get)

/-- A batch calls for IDs below the capacity only. -/
theorem toNat_lt_of_mem_calledIn {pool : Pool} {batch : List Id} {id : Id}
    (h : id ∈ calledIn capacity pool batch) : id.toNat < capacity := by
  obtain ⟨run, -, hid⟩ := List.mem_flatMap.mp h
  exact toNat_lt_of_mem_called hid

/-- A batch whose IDs are below the capacity calls for all of them, however it is cut. -/
theorem calledIn_of_inRange (pool : Pool) {batch : List Id}
    (h : ∀ id ∈ batch, id.toNat < capacity) : calledIn capacity pool batch = batch := by
  have hrun (run : Run batch.length) :
      called capacity (run.numbers.map batch.get) = run.numbers.map batch.get := by
    refine called_of_inRange fun id hid => ?_
    obtain ⟨place, -, rfl⟩ := List.mem_map.mp hid
    exact h _ (batch.get_mem place)
  rw [calledIn, funext hrun, ← List.map_flatMap, Run.numbers_pieces, Run.numbers_all,
    List.map_get_finRange]

/-- Claims one after another leave the table with the IDs before the first fault. -/
theorem Numbers.state_insertList (h : t.Numbers ids) (batch : List Id) :
    (insertList batch t).state =
      t.showing (.settled ((called capacity batch).foldl appendNew ids)) := by
  induction batch generalizing t ids with
  | nil => exact h.contents.symm
  | cons id rest ih =>
    by_cases hid : id.toNat < capacity
    · have hfirst : discard (insert id) t =
          ⟨t.showing (.settled (appendNew ids id)), [], .ok ()⟩ := by
        rw [Action.discard_apply, h.insert_eq hid]
        rfl
      rw [insertList_cons, Action.bind_apply_silent _ hfirst, ih (h.append hid),
        called_cons_of_lt rest hid]
      rfl
    · have hle := Nat.le_of_not_lt hid
      have hfault : discard (insert id) t = ⟨t, [], .error (.idOutOfRange id capacity)⟩ := by
        rw [Action.discard_apply, insert_of_le t hle]
        rfl
      rw [insertList_cons, Action.bind_apply_error _ hfault, called_cons_of_le rest hle]
      exact h.contents.symm

/-- Runs of claims leave the table with the IDs that each calls for before its first fault. -/
theorem Numbers.state_forRuns (h : t.Numbers ids) {batch : List Id}
    (runs : List (Run batch.length)) :
    (Action.forRuns (fun i => discard (insert (batch.get i))) runs t).state =
      t.showing (.settled ((runs.flatMap fun run =>
        called capacity (run.numbers.map batch.get)).foldl appendNew ids)) := by
  have hrun (run : Run batch.length) : (run.numbers.forM fun i => discard (insert (batch.get i)) :
      Action Fault (Table capacity) Unit) = insertList (run.numbers.map batch.get) := by
    rw [insertList]
    exact (List.forM_map (l := run.numbers) (g := batch.get)
      (f := fun id => discard (insert id))).symm
  induction runs generalizing t ids with
  | nil => exact h.contents.symm
  | cons run rest ih =>
    have hnumbers := h.foldl_append fun id (hid : id ∈ called capacity
      (run.numbers.map batch.get)) => toNat_lt_of_mem_called hid
    rw [Action.forRuns_cons, Action.both_apply, hrun, h.state_insertList, ih hnumbers,
      List.flatMap_cons, List.foldl_append]
    rfl

/-- Whether a claim fails depends on its ID alone. -/
theorem Numbers.result_discard_insert_iff (h : t.Numbers ids) (id : Id) :
    (discard (insert id) t : Outcome Fault (Table capacity) Unit).result = .ok () ↔
      decide (capacity ≤ id.toNat) = false := by
  rw [decide_eq_false_iff_not, Nat.not_le]
  by_cases hid : id.toNat < capacity
  · rw [Action.discard_apply, h.insert_eq hid]
    simp [hid, Except.map]
  · rw [Action.discard_apply, insert_of_le t (Nat.le_of_not_lt hid)]
    simp [hid, Except.map]

/-- The runs of a batch are those of its IDs past the capacity. -/
theorem Numbers.runsOf_claims (h : t.Numbers ids) (least : Nat) (batch : List Id) :
    Action.runsOf least (fun i => (discard (insert (batch.get i)) : Action Fault _ Unit)) 1
      (Run.all batch.length) t = (Run.all batch.length).pieces least
        (fun i => decide (capacity ≤ (batch.get i).toNat)) 1 := by
  refine Action.runsOf_eq_pieces (P := fun t => ∃ ids, Numbers t ids)
    (fun _ _ hs => Numbers.state_discard_insert hs _) ?_ ⟨ids, h⟩ 1 _
  rintro i t ⟨ids, h⟩
  exact h.result_discard_insert_iff (batch.get i)

/-- A batch leaves the table with the IDs that its runs call for, whether or not it faults. -/
theorem Numbers.state_insertAll_eq (h : t.Numbers ids) (pool : Pool) (batch : Array Id) :
    (Table.insertAll pool batch t).state =
      t.showing (.settled ((calledIn capacity pool batch.toList).foldl appendNew ids)) := by
  rw [Table.state_insertAll, claimLoop, Pool.forEach, Action.forAll_eq_forRuns, h.runsOf_claims]
  exact h.state_forRuns _

end Table

end IdCompaction
