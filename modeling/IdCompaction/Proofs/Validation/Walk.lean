import IdCompaction.Routine.Crew
import IdCompaction.Validation.Kernel
import Mathlib.Data.List.Basic

/-!
# Walks over a batch

A block of the duplicate kernel walks over the elements of its tile. For each it reads the flag of
the value; if the flag is marked it warns and counts; and it marks the flag. A walk is caught
between two of its steps: the visits that came to their end, the visit under way, and the elements
still to come. Every routine that a block can be at is the routine of a walk.
-/

namespace IdCompaction.Validation

variable {length : Nat}

/-- The value of the element at a place. -/
def valueAt (input : Array Id) : Fin input.size → Id
  | ⟨i, _⟩ => input[i]

/-- The value of an element is one of the values. -/
theorem valueAt_mem (input : Array Id) (i : Fin input.size) : valueAt input i ∈ input :=
  Array.getElem_mem i.isLt

/-- Visiting an element whose value has a flag reads the flag, which decides whether the element is
reported, and marks it. -/
theorem markElement_of_lt {input : Array Id} {i : Nat} (hi : i < input.size)
    (h : input[i].toNat < length) :
    markElement input i =
      (.access (.readFlag ⟨input[i].toNat, h⟩) fun flag =>
        if flag ≠ 0 then
          .report (.duplicateValue i input[i])
            (.access .countFound fun _ => .access (.mark ⟨input[i].toNat, h⟩) fun _ => .done ())
        else .access (.mark ⟨input[i].toNat, h⟩) fun _ => .done () :
        Marking.Routine length Unit) := by
  have helement : (elementAt input i : Marking.Routine length Id) = .done input[i] := dif_pos hi
  have hflag : flagOf input[i] i = .done ⟨input[i].toNat, h⟩ := dif_pos h
  rw [markElement, helement, Routine.done_bind, hflag, Routine.done_bind, Marking.ask,
    Routine.ask_bind]
  refine congrArg (Routine.access _) (funext fun flag => ?_)
  by_cases hzero : flag = 0
  · rw [if_neg (not_not.mpr hzero), if_neg (not_not.mpr hzero)]
    rfl
  · rw [if_pos hzero, if_pos hzero]
    rfl

/-- Visiting an element whose value has no flag is a fault. -/
theorem markElement_of_le {input : Array Id} {i : Nat} (hi : i < input.size)
    (h : length ≤ input[i].toNat) :
    (markElement input i : Marking.Routine length Unit) =
      .stop (.beyondPresence input[i] i length) := by
  have helement : (elementAt input i : Marking.Routine length Id) = .done input[i] := dif_pos hi
  have hflag : (flagOf input[i] i : Marking.Routine length _) =
      .stop (.beyondPresence input[i] i length) := dif_neg (Nat.not_lt.mpr h)
  rw [markElement, helement, Routine.done_bind, hflag]
  rfl

/-- A batch all of whose values have flags. -/
structure Batch (length : Nat) where
  values : Array Id
  inRange : ∀ value ∈ values, value.toNat < length

namespace Batch

/-- The places of a batch's elements. -/
abbrev Index (batch : Batch length) := Fin batch.values.size

/-- The value of an element. -/
def value (batch : Batch length) (i : batch.Index) : Id := batch.values[i]

/-- The value of an element is one of the batch. -/
theorem value_mem (batch : Batch length) (i : batch.Index) : batch.value i ∈ batch.values :=
  Array.getElem_mem _

/-- The flag of an element. -/
def place (batch : Batch length) (i : batch.Index) : Fin length :=
  ⟨(batch.value i).toNat, batch.inRange _ (batch.value_mem i)⟩

/-- The warning about an element. -/
def warning (batch : Batch length) (i : batch.Index) : Event :=
  .duplicateValue i (batch.value i)

/-- Elements with one flag have one value. -/
theorem value_eq_of_place_eq {batch : Batch length} {i j : batch.Index}
    (h : batch.place i = batch.place j) : batch.value i = batch.value j := by
  have hval : (batch.place i).val = (batch.place j).val := congrArg Fin.val h
  exact UInt32.toNat_inj.mp hval

end Batch

/-- Visiting an element of a batch reads its flag, and the flag decides whether it is reported. -/
theorem markElement_eq (batch : Batch length) (i : batch.Index) :
    markElement batch.values i =
      (.access (.readFlag (batch.place i)) fun flag =>
        if flag ≠ 0 then
          .report (batch.warning i)
            (.access .countFound fun _ => .access (.mark (batch.place i)) fun _ => .done ())
        else .access (.mark (batch.place i)) fun _ => .done () : Marking.Routine length Unit) :=
  markElement_of_lt i.isLt (batch.inRange _ (batch.value_mem i))

variable {batch : Batch length}

/-- What is under way of a visit. -/
inductive Stage (batch : Batch length)
  /-- No visit is under way. -/
  | between
  /-- The flag was marked; the warning comes next. -/
  | found (i : batch.Index)
  /-- The warning is out; the count comes next. -/
  | warned (i : batch.Index)
  /-- The flag comes next; an element that was found marked is counted. -/
  | marking (i : batch.Index) (reported : Bool)

/-- A block between two of its steps. -/
structure Walk (batch : Batch length) where
  /-- The elements whose visits came to their end, each with whether it was reported. -/
  ended : List (batch.Index × Bool)
  /-- The visit under way. -/
  stage : Stage batch
  /-- The elements to come. -/
  rest : List batch.Index

/-- The elements of some visits that were reported. -/
def reportedOf {ι : Type} (visits : List (ι × Bool)) : List ι :=
  (visits.filter Prod.snd).map Prod.fst

/-- The elements of some visits that were not reported. -/
def missedOf {ι : Type} (visits : List (ι × Bool)) : List ι :=
  (visits.filter fun visit => !visit.2).map Prod.fst

section Visits

variable {ι : Type} (visits : List (ι × Bool)) (i : ι)

/-- A visit that reports adds its element to the reported ones. -/
@[simp] theorem reportedOf_concat_true :
    reportedOf (visits ++ [(i, true)]) = reportedOf visits ++ [i] := by
  simp [reportedOf, List.filter_append]

/-- A visit that does not report adds nothing to them. -/
@[simp] theorem reportedOf_concat_false :
    reportedOf (visits ++ [(i, false)]) = reportedOf visits := by
  simp [reportedOf, List.filter_append]

/-- A visit that reports adds nothing to the missed ones. -/
@[simp] theorem missedOf_concat_true : missedOf (visits ++ [(i, true)]) = missedOf visits := by
  simp [missedOf, List.filter_append]

/-- A visit that does not report adds its element to them. -/
@[simp] theorem missedOf_concat_false :
    missedOf (visits ++ [(i, false)]) = missedOf visits ++ [i] := by
  simp [missedOf, List.filter_append]

/-- Every visit was either reported or missed. -/
theorem length_reportedOf_add_missedOf :
    (reportedOf visits).length + (missedOf visits).length = visits.length := by
  rw [reportedOf, missedOf, List.length_map, List.length_map]
  exact (List.length_eq_length_filter_add Prod.snd).symm

end Visits

namespace Walk

/-- A block that has not begun. -/
def fresh (elements : List batch.Index) : Walk batch := ⟨[], .between, elements⟩

/-- The visit under way, with whether it will have been reported. -/
def current (w : Walk batch) : List (batch.Index × Bool) :=
  match w.stage with
  | .between => []
  | .found i => [(i, true)]
  | .warned i => [(i, true)]
  | .marking i reported => [(i, reported)]

/-- The visits that read their flags. -/
def visits (w : Walk batch) : List (batch.Index × Bool) := w.ended ++ w.current

/-- The elements whose flags were read. -/
def visited (w : Walk batch) : List batch.Index := w.visits.map Prod.fst

/-- The elements that the block was given. -/
def origin (w : Walk batch) : List batch.Index := w.visited ++ w.rest

/-- The elements that the block marked. -/
def marked (w : Walk batch) : List batch.Index := w.ended.map Prod.fst

/-- The elements that the block found unmarked. -/
def missed (w : Walk batch) : List batch.Index := missedOf w.visits

/-- The elements that the block counted. -/
def counted (w : Walk batch) : List batch.Index :=
  reportedOf w.ended ++
    match w.stage with
    | .marking i true => [i]
    | _ => []

/-- The elements that the block warned about. -/
def warned (w : Walk batch) : List batch.Index :=
  reportedOf w.ended ++
    match w.stage with
    | .warned i => [i]
    | .marking i true => [i]
    | _ => []

/-- What a block still has to do. -/
def routine (w : Walk batch) : Marking.Routine length Unit :=
  let later : Marking.Routine length Unit := w.rest.forM fun i => markElement batch.values i
  let mark (i : batch.Index) : Marking.Routine length Unit :=
    .access (.mark (batch.place i)) fun _ => later
  match w.stage with
  | .between => later
  | .found i => .report (batch.warning i) (.access .countFound fun _ => mark i)
  | .warned i => .access .countFound fun _ => mark i
  | .marking i _ => mark i

variable (ended : List (batch.Index × Bool)) (i : batch.Index) (rest : List batch.Index)

/-- A visit begins with the flag, and the flag decides whether the element is reported. -/
theorem routine_between_cons :
    (⟨ended, .between, i :: rest⟩ : Walk batch).routine =
      .access (.readFlag (batch.place i)) fun flag =>
        if flag ≠ 0 then (⟨ended, .found i, rest⟩ : Walk batch).routine
        else (⟨ended, .marking i false, rest⟩ : Walk batch).routine := by
  change (markElement batch.values i >>= fun _ => rest.forM fun i => markElement batch.values i) = _
  rw [markElement_eq, Routine.access_bind]
  refine congrArg (Routine.access _) (funext fun flag => ?_)
  by_cases hzero : flag = 0
  · rw [if_neg (not_not.mpr hzero), if_neg (not_not.mpr hzero)]
    rfl
  · rw [if_pos hzero, if_pos hzero]
    rfl

/-- After a marked flag the warning goes out. -/
theorem routine_found :
    (⟨ended, .found i, rest⟩ : Walk batch).routine =
      .report (batch.warning i) (⟨ended, .warned i, rest⟩ : Walk batch).routine := rfl

/-- After the warning the element is counted. -/
theorem routine_warned :
    (⟨ended, .warned i, rest⟩ : Walk batch).routine =
      .access .countFound fun _ => (⟨ended, .marking i true, rest⟩ : Walk batch).routine := rfl

/-- The visit ends with the mark. -/
theorem routine_marking (reported : Bool) :
    (⟨ended, .marking i reported, rest⟩ : Walk batch).routine =
      .access (.mark (batch.place i)) fun _ =>
        (⟨ended ++ [(i, reported)], .between, rest⟩ : Walk batch).routine := rfl

/-! ## What the steps do to the views -/

/-- Between visits, the visits are those that came to their end. -/
theorem visits_between :
    (⟨ended, .between, rest⟩ : Walk batch).visits = ended := List.append_nil ended

/-- Reading an unmarked flag adds the element to the missed ones. -/
theorem missed_marking_false :
    (⟨ended, .marking i false, rest⟩ : Walk batch).missed =
      (⟨ended, .between, i :: rest⟩ : Walk batch).missed ++ [i] := by
  rw [missed, missed, visits_between]
  exact missedOf_concat_false ended i

/-- Reading a marked flag adds nothing to them. -/
theorem missed_found :
    (⟨ended, .found i, rest⟩ : Walk batch).missed =
      (⟨ended, .between, i :: rest⟩ : Walk batch).missed := by
  rw [missed, missed, visits_between]
  exact missedOf_concat_true ended i

/-- Reading an unmarked flag adds the element to the visited ones. -/
theorem visited_marking (reported : Bool) :
    (⟨ended, .marking i reported, rest⟩ : Walk batch).visited =
      (⟨ended, .between, i :: rest⟩ : Walk batch).visited ++ [i] := by
  rw [visited, visited, visits_between]
  exact List.map_append

/-- So does reading a marked one. -/
theorem visited_found :
    (⟨ended, .found i, rest⟩ : Walk batch).visited =
      (⟨ended, .between, i :: rest⟩ : Walk batch).visited ++ [i] :=
  visited_marking ended i rest true

/-- Reading an unmarked flag takes the element from those to come, not from those given. -/
theorem origin_marking (reported : Bool) :
    (⟨ended, .marking i reported, rest⟩ : Walk batch).origin =
      (⟨ended, .between, i :: rest⟩ : Walk batch).origin := by
  rw [origin, origin, visited_marking, List.append_assoc]
  rfl

/-- Nor does reading a marked flag change what the block was given. -/
theorem origin_found :
    (⟨ended, .found i, rest⟩ : Walk batch).origin =
      (⟨ended, .between, i :: rest⟩ : Walk batch).origin :=
  origin_marking ended i rest true

/-- The warning adds the element to those warned about. -/
theorem warned_warned :
    (⟨ended, .warned i, rest⟩ : Walk batch).warned =
      (⟨ended, .found i, rest⟩ : Walk batch).warned ++ [i] := by
  rw [warned, warned, List.append_assoc]
  rfl

/-- The count adds the element to the counted ones. -/
theorem counted_marking_true :
    (⟨ended, .marking i true, rest⟩ : Walk batch).counted =
      (⟨ended, .warned i, rest⟩ : Walk batch).counted ++ [i] := by
  rw [counted, counted, List.append_assoc]
  rfl

/-- The mark adds the element to the marked ones. -/
theorem marked_ended (reported : Bool) :
    (⟨ended ++ [(i, reported)], .between, rest⟩ : Walk batch).marked =
      (⟨ended, .marking i reported, rest⟩ : Walk batch).marked ++ [i] :=
  List.map_append

/-- The mark ends the visit, but the visits are the same. -/
theorem visits_ended (reported : Bool) :
    (⟨ended ++ [(i, reported)], .between, rest⟩ : Walk batch).visits =
      (⟨ended, .marking i reported, rest⟩ : Walk batch).visits := List.append_nil _

/-- The mark changes nothing in what was visited. -/
theorem visited_ended (reported : Bool) :
    (⟨ended ++ [(i, reported)], .between, rest⟩ : Walk batch).visited =
      (⟨ended, .marking i reported, rest⟩ : Walk batch).visited :=
  congrArg (List.map Prod.fst) (visits_ended ended i rest reported)

/-- It changes nothing in what was found unmarked. -/
theorem missed_ended (reported : Bool) :
    (⟨ended ++ [(i, reported)], .between, rest⟩ : Walk batch).missed =
      (⟨ended, .marking i reported, rest⟩ : Walk batch).missed :=
  congrArg missedOf (visits_ended ended i rest reported)

/-- It changes nothing in what the block was given. -/
theorem origin_ended (reported : Bool) :
    (⟨ended ++ [(i, reported)], .between, rest⟩ : Walk batch).origin =
      (⟨ended, .marking i reported, rest⟩ : Walk batch).origin :=
  congrArg (· ++ rest) (visited_ended ended i rest reported)

/-- What is marked was counted before. -/
theorem counted_ended (reported : Bool) :
    (⟨ended ++ [(i, reported)], .between, rest⟩ : Walk batch).counted =
      (⟨ended, .marking i reported, rest⟩ : Walk batch).counted := by
  cases reported with
  | false => simp [counted]
  | true => simp [counted]

/-- What is marked was warned about before. -/
theorem warned_ended (reported : Bool) :
    (⟨ended ++ [(i, reported)], .between, rest⟩ : Walk batch).warned =
      (⟨ended, .marking i reported, rest⟩ : Walk batch).warned := by
  cases reported with
  | false => simp [warned]
  | true => simp [warned]

/-! ## Relations between the views -/

variable {w : Walk batch} {ended i rest}

/-- What was marked was visited. -/
theorem mem_visited_of_mem_marked (h : i ∈ w.marked) : i ∈ w.visited := by
  rw [visited, visits, List.map_append]
  exact List.mem_append_left _ h

/-- Between visits, what was missed is marked. -/
theorem mem_marked_of_mem_missed {j : batch.Index}
    (h : j ∈ (⟨ended, .between, rest⟩ : Walk batch).missed) :
    j ∈ (⟨ended, .between, rest⟩ : Walk batch).marked := by
  rw [missed, visits_between] at h
  obtain ⟨visit, hvisit, rfl⟩ := List.mem_map.mp h
  exact List.mem_map_of_mem (List.mem_of_mem_filter hvisit)

end Walk

end IdCompaction.Validation
