import IdCompaction.Proofs.Validation.Reports

/-!
# Elements one after another

A worker that is alone with a presence map visits its elements in some order. An element is reported
if its value was marked before the first of them, or if an element that came earlier has the same
value, and in the end the values of all of them are marked. Which elements are reported depends on
the order; how many are does not.
-/

namespace IdCompaction

namespace Presence

variable {length : Nat}

/-- The flag of a value; a value without a flag is not marked. -/
def flag (p : Presence length) (value : Id) : Id := p.cells[value.toNat]?.getD 0

/-- The map with the flags of some values marked. -/
def markAll (p : Presence length) (values : List Id) : Presence length :=
  { p with cells := p.cells.mapFinIdx fun place flag _ =>
      if place ∈ values.map UInt32.toNat then 1 else flag }

variable {p : Presence length} {value other : Id} {values : List Id}

/-- The flag of a value in range. -/
theorem flag_of_lt (h : value.toNat < length) : p.flag value = p.get ⟨value.toNat, h⟩ := by
  simp [flag, Buffer.get, h]

/-- Marking sets the flags of the values and leaves the others. -/
theorem get_markAll (p : Presence length) (values : List Id) (place : Fin length) :
    (p.markAll values).get place =
      if place.val ∈ values.map UInt32.toNat then 1 else p.get place := by
  simp [markAll, Buffer.get]

/-- Maps in one grant are equal if their flags are. -/
theorem eq_of_get {p q : Presence length} (hcontext : p.context = q.context)
    (haddress : p.address = q.address) (h : ∀ place, p.get place = q.get place) : p = q := by
  obtain ⟨context, address, cells⟩ := p
  obtain ⟨context', address', cells'⟩ := q
  obtain rfl : context = context' := hcontext
  obtain rfl : address = address' := haddress
  obtain rfl : cells = cells' := Vector.ext fun i hi => h ⟨i, hi⟩
  rfl

/-- Marking nothing changes nothing. -/
@[simp] theorem markAll_nil (p : Presence length) : p.markAll [] = p :=
  eq_of_get rfl rfl fun place => by simp [get_markAll]

/-- Marking a value and then others marks all of them. -/
theorem markAll_put (h : value.toNat < length) :
    markAll (p.put ⟨value.toNat, h⟩ 1) values = p.markAll (value :: values) := by
  refine eq_of_get rfl rfl fun place => ?_
  simp only [get_markAll, Buffer.get_put, List.map_cons, List.mem_cons, Fin.ext_iff]
  by_cases hmem : place.val ∈ values.map UInt32.toNat <;> simp [hmem, eq_comm]

/-- A marked value stays marked, and the others are as they were. -/
theorem flag_put_ne_zero (h : value.toNat < length) (hother : other.toNat < length) :
    flag (p.put ⟨value.toNat, h⟩ 1) other ≠ 0 ↔ other = value ∨ p.flag other ≠ 0 := by
  rw [flag_of_lt hother, flag_of_lt hother, Buffer.get_put]
  by_cases heq : value = other
  · simp [heq]
  · have hne : value.toNat ≠ other.toNat := fun hval => heq (UInt32.toNat_inj.mp hval)
    simp [hne, Ne.symm heq]

end Presence

namespace Validation

variable {length : Nat} {input : Array Id}

/-- The warning about an element. -/
def warningAt (input : Array Id) (i : Fin input.size) : Event :=
  .duplicateValue i (valueAt input i)

/-- The elements of a list whose values were marked at the start, or came up in the list before. -/
def repeats (p : Presence length) (input : Array Id) (list : List (Fin input.size)) :
    List (Fin input.size) :=
  list.filter fun i => p.flag (valueAt input i) ≠ 0 ∨
    ∃ j ∈ list.takeWhile (· ≠ i), valueAt input j = valueAt input i

/-- The first element of a list is a repeat if its value is marked; for the others it is marked. -/
theorem repeats_cons {p : Presence length} {i : Fin input.size} {rest : List (Fin input.size)}
    (hi : i ∉ rest) (hlt : (valueAt input i).toNat < length)
    (hrest : ∀ j ∈ rest, (valueAt input j).toNat < length) :
    repeats p input (i :: rest) = (if p.flag (valueAt input i) ≠ 0 then [i] else []) ++
      repeats (p.put ⟨(valueAt input i).toNat, hlt⟩ 1) input rest := by
  have hlater : (rest.filter fun k => p.flag (valueAt input k) ≠ 0 ∨
      ∃ j ∈ (i :: rest).takeWhile (· ≠ k), valueAt input j = valueAt input k) =
        repeats (p.put ⟨(valueAt input i).toNat, hlt⟩ 1) input rest := by
    refine List.filter_congr fun k hk => ?_
    have hne : i ≠ k := fun heq => hi (heq ▸ hk)
    have hbefore : (i :: rest).takeWhile (· ≠ k) = i :: rest.takeWhile (· ≠ k) :=
      List.takeWhile_cons_of_pos (by simpa using hne)
    simp only [hbefore, List.exists_mem_cons_iff, Presence.flag_put_ne_zero hlt (hrest k hk),
      decide_eq_decide]
    tauto
  have hfirst : (i :: rest).takeWhile (· ≠ i) = [] := List.takeWhile_cons_of_neg (by simp)
  rw [repeats, List.filter_cons, hlater]
  by_cases hmarked : p.flag (valueAt input i) ≠ 0
  · rw [if_pos (decide_eq_true (.inl hmarked)), if_pos hmarked]
    rfl
  · rw [if_neg (by rw [hfirst]; simpa using hmarked), if_neg hmarked]
    rfl

/-- A worker that is alone with a map reports an element if its value is marked, and marks it. -/
theorem perform_markElement (p : Presence length) (found : Nat) (i : Fin input.size)
    (hlt : (valueAt input i).toNat < length) :
    ((markElement input i).perform ⟨p, found⟩ : Outcome Fault (Marking length) Unit) =
      ⟨⟨p.put ⟨(valueAt input i).toNat, hlt⟩ 1,
          found + if p.flag (valueAt input i) ≠ 0 then 1 else 0⟩,
        if p.flag (valueAt input i) ≠ 0 then [warningAt input i] else [], .ok ()⟩ := by
  rw [markElement_of_lt i.isLt hlt, Presence.flag_of_lt hlt]
  change ((if p.get ⟨(valueAt input i).toNat, hlt⟩ ≠ 0 then
      .report (warningAt input i)
        (.access .countFound fun _ =>
          .access (.mark ⟨(valueAt input i).toNat, hlt⟩) fun _ => .done ())
    else .access (.mark ⟨(valueAt input i).toNat, hlt⟩) fun _ => .done () :
      Marking.Routine length Unit).perform ⟨p, found⟩ : Outcome Fault (Marking length) Unit) = _
  split <;> rfl

/-- A worker that is alone with a map reports the repeats among its elements, and marks their
values. -/
theorem forM_perform_markElement (p : Presence length) (found : Nat)
    {list : List (Fin input.size)} (hnodup : list.Nodup)
    (hrange : ∀ i ∈ list, (valueAt input i).toNat < length) :
    (list.forM (fun i => ((markElement input i).perform : Action Fault (Marking length) Unit)))
        ⟨p, found⟩ =
      ⟨⟨p.markAll (list.map (valueAt input)), found + (repeats p input list).length⟩,
        (repeats p input list).map (warningAt input), .ok ()⟩ := by
  induction list generalizing p found with
  | nil => simp [repeats, Action.pure_apply]
  | cons i rest ih =>
    obtain ⟨hi, hnodup⟩ := List.nodup_cons.mp hnodup
    obtain ⟨hlt, hrest⟩ := List.forall_mem_cons.mp hrange
    rw [Action.forM_cons, Action.bind_apply_ok _ (perform_markElement p found i hlt),
      ih _ _ hnodup hrest, repeats_cons hi hlt hrest, List.map_cons, ← Presence.markAll_put hlt]
    by_cases hmarked : p.flag (valueAt input i) ≠ 0
    · rw [if_pos hmarked, if_pos hmarked, if_pos hmarked]
      simp [Nat.add_assoc, Nat.add_comm]
    · rw [if_neg hmarked, if_neg hmarked, if_neg hmarked]
      simp

end Validation

end IdCompaction
