import IdCompaction.Proofs.Validation.OneWorker

/-!
# Duplicate checks of batches that overrun their map

A value past the end of a presence map is a fault of the element that has it, whenever that element
is visited. So a duplicate check comes to a fault exactly if some value has no flag, however its
launch is dispatched. What was marked before the fault stays marked, but only flags of the batch's
own values are ever written, and only a one. In a launch of a single block the fault is at the first
element in the order of the launch whose value has no flag; the values before it are marked, and
nothing else has changed.
-/

namespace IdCompaction

namespace Validation

variable {length : Nat} {input : Array Id}

/-- The fault at an element, if its value has no flag. -/
def overrun? (length : Nat) (input : Array Id) (i : Nat) : Option Fault :=
  input[i]?.bind fun value =>
    if value.toNat < length then none else some (.beyondPresence value i length)

/-- An element does not overrun the map exactly if its value has a flag. -/
theorem overrun?_eq_none_iff {i : Nat} (hi : i < input.size) :
    overrun? length input i = none ↔ input[i].toNat < length := by
  simp [overrun?, hi]

/-- A fault is about an element whose value has no flag. -/
theorem exists_of_overrun? {i : Nat} {fault : Fault} (h : overrun? length input i = some fault) :
    ∃ (i : Nat) (_ : i < input.size), length ≤ input[i].toNat ∧
      fault = .beyondPresence input[i] i length := by
  obtain ⟨value, hvalue, hfault⟩ := Option.bind_eq_some_iff.mp h
  obtain ⟨hi, rfl⟩ := Array.getElem?_eq_some_iff.mp hvalue
  split at hfault
  · cases hfault
  · next hle => exact ⟨i, hi, Nat.le_of_not_lt hle, (Option.some.inj hfault).symm⟩

/-- A map that was `p`, on which only flags of a batch's values were marked. -/
def MarkedOnly (p : Presence length) (input : Array Id) (last : Presence length) : Prop :=
  ∀ place, last.get place = p.get place ∨
    last.get place = 1 ∧ ∃ value ∈ input, value.toNat = place.val

/-- Marking the value of an element marks only flags of the batch's values. -/
theorem MarkedOnly.put {p last : Presence length} (h : MarkedOnly p input last) {i : Nat}
    (hi : i < input.size) (hlt : input[i].toNat < length) :
    MarkedOnly p input (last.put ⟨input[i].toNat, hlt⟩ 1) := by
  intro place
  rw [Buffer.get_put]
  split
  · next hplace => exact .inr ⟨rfl, input[i], Array.getElem_mem hi, congrArg Fin.val hplace⟩
  · exact h place

/-- Visiting an element comes to its own fault, or marks its value. -/
theorem settles_markElement (p : Presence length) {i : Nat} (hi : i < input.size) :
    (markElement input i).Settles (fun m : Marking length => MarkedOnly p input m.presence)
      ((overrun? length input i).elim (.ok ()) .error) := by
  by_cases hlt : input[i].toNat < length
  · rw [(overrun?_eq_none_iff hi).mpr hlt, markElement_of_lt hi hlt]
    -- others may mark between these accesses, so after each one only the invariant is known
    intro m hm
    refine ⟨hm, ?_⟩
    have hmark (m : Marking length) (hm : MarkedOnly p input m.presence) :
        MarkedOnly p input (m.presence.put ⟨input[i].toNat, hlt⟩ 1) := hm.put hi hlt
    change (if m.presence.get ⟨input[i].toNat, hlt⟩ ≠ 0 then _ else _ :
      Marking.Routine length Unit).Settles _ _
    split
    · exact fun m hm => ⟨hm, fun m hm => ⟨hmark m hm, rfl⟩⟩
    · exact fun m hm => ⟨hmark m hm, rfl⟩
  · have hfault : overrun? length input i = some (.beyondPresence input[i] i length) := by
      simp [overrun?, hi, hlt]
    rw [hfault, markElement_of_le hi (Nat.le_of_not_lt hlt)]
    rfl

end Validation

namespace Validator

variable {length : Nat} {v : Validator} {stream : Stream} {input : Array Id} {p : Presence length}
  {g : Grid}

/-- A duplicate check comes to the fault of its launch, and leaves the flags that it left. -/
theorem countDuplicatesUnder_of_error (hgrid : v.grid input.size = .ok g) {d : Dispatch}
    {m : Marking length} {events : List Event} {fault : Fault}
    (h : stream.launchUnder d g (Validation.duplicateKernel input) ⟨p, 0⟩ =
      ⟨m, events, .error fault⟩) :
    v.countDuplicatesUnder d stream input p = ⟨m.presence, events, .error fault⟩ := by
  simp only [countDuplicatesUnder, Action.ofExcept_bind_apply hgrid, Action.bind_apply_error _ h]

/-- However it is dispatched, a duplicate check comes to the first fault among its elements, if
there is one, and marks only flags of its batch. -/
theorem markedOnly_countDuplicatesUnder (hgrid : v.grid input.size = .ok g) (hfits : g.Fits)
    (d : Dispatch) (stream : Stream) (p : Presence length) :
    let outcome := v.countDuplicatesUnder d stream input p
    Validation.MarkedOnly p input outcome.state ∧
      ∀ fault, outcome.result = .error fault ↔
        (d.order g).findSome? (Validation.overrun? length input) = some fault := by
  obtain ⟨hsize, helements, -⟩ := Grid.elements_le_of_covering hgrid
  have hvisit (i : Nat) (hi : i < g.elements) :=
    Validation.settles_markElement p (helements ▸ hi : i < input.size)
  have hstart : Validation.MarkedOnly p input (⟨p, 0⟩ : Marking length).presence :=
    fun place => .inl rfl
  have hlaunched := Stream.launchUnder_of_visits hfits hsize hvisit hstart d stream
  intro outcome
  rcases hlaunch : stream.launchUnder d g (Validation.duplicateKernel input)
    (⟨p, 0⟩ : Marking length) with ⟨m, events, fault | counted⟩
  · have houtcome : outcome = _ := countDuplicatesUnder_of_error hgrid hlaunch
    obtain ⟨hkept, hresult⟩ := hlaunch ▸ hlaunched
    rw [houtcome]
    refine ⟨hkept, fun other => ?_⟩
    cases hfirst : (d.order g).findSome? (Validation.overrun? length input) with
    | none => simp [hfirst] at hresult
    | some first =>
      obtain rfl : fault = first := by simpa [hfirst] using hresult
      simp
  · have houtcome : outcome = _ := countDuplicatesUnder_of_ok hgrid hlaunch
    obtain ⟨hkept, hresult⟩ := hlaunch ▸ hlaunched
    rw [houtcome]
    refine ⟨hkept, fun other => ?_⟩
    cases hfirst : (d.order g).findSome? (Validation.overrun? length input) with
    | none => simp
    | some first => simp [hfirst] at hresult

/-- A fault is found in the order of every dispatch if some value has no flag. -/
theorem findSome?_overrun?_eq_none_iff (hgrid : v.grid input.size = .ok g) (d : Dispatch) :
    (d.order g).findSome? (Validation.overrun? length input) = none ↔
      ∀ value ∈ input, value.toNat < length := by
  obtain ⟨hsize, helements, hcovers⟩ := Grid.elements_le_of_covering hgrid
  have hmem (i : Nat) : i ∈ d.order g ↔ i < input.size := by
    rw [(d.order_perm hsize hcovers).mem_iff, List.mem_range, helements]
  simp only [List.findSome?_eq_none_iff, hmem, Array.forall_mem_iff_forall_getElem]
  exact forall₂_congr fun i hi => Validation.overrun?_eq_none_iff hi

/-- A single block comes to its fault at the first of its elements whose value has no flag. -/
theorem countDuplicatesUnder_of_oneBlock (hgrid : v.grid input.size = .ok g) (hfits : g.Fits)
    (hblocks : g.blocks = 1) {before after : List (Fin input.size)} {i : Fin input.size}
    (horder : (before ++ i :: after).map Fin.val = g.launchOrder) (hnodup : before.Nodup)
    (hbefore : ∀ j ∈ before, (Validation.valueAt input j).toNat < length)
    (hi : length ≤ (Validation.valueAt input i).toNat)
    (d : Dispatch) (stream : Stream) (p : Presence length) :
    v.countDuplicatesUnder d stream input p =
      ⟨p.markAll (before.map (Validation.valueAt input)),
        (Validation.repeats p input before).map (Validation.warningAt input),
        .error (.beyondPresence (Validation.valueAt input i) i length)⟩ := by
  have hprefix := Validation.forM_perform_markElement p 0 hnodup hbefore
  have hfault (m : Marking length) : ((Validation.markElement input i).perform : Action Fault _ _)
      m = ⟨m, [], .error (.beyondPresence (Validation.valueAt input i) i length)⟩ := by
    rw [Validation.markElement_of_le i.isLt hi]
    rfl
  have hscan : (g.launchOrder.forM fun i =>
      ((Validation.markElement input i).perform : Action Fault (Marking length) Unit)) ⟨p, 0⟩ = _ :=
    calc
      _ = ((before ++ i :: after).forM fun i => (Validation.markElement input i).perform) ⟨p, 0⟩ :=
        horder ▸ congrFun (List.forM_map ..) _
      _ = _ := Action.forM_append_cons_of_error after hprefix (hfault _)
  have hlaunch := congrFun (Stream.launchUnder_of_oneBlock hfits hblocks
    (Validation.markElement input) d stream) (⟨p, 0⟩ : Marking length)
  rw [Action.bind_apply_error _ hscan, List.append_nil] at hlaunch
  exact countDuplicatesUnder_of_error hgrid hlaunch

/-- What a duplicate check of a batch comes to, if values of the batch may overrun the map. -/
structure OverrunsExactly (v : Validator) (d : Dispatch) (stream : Stream) (g : Grid)
    (input : Array Id) (p : Presence length) : Prop where
  /-- The check is a fault exactly if some value has no flag. -/
  error_iff : (∃ fault, (v.countDuplicatesUnder d stream input p).result = .error fault) ↔
    ∃ value ∈ input, length ≤ value.toNat
  /-- The fault is about such a value. -/
  named : ∀ fault, (v.countDuplicatesUnder d stream input p).result = .error fault →
    ∃ (i : Nat) (_ : i < input.size), length ≤ input[i].toNat ∧
      fault = .beyondPresence input[i] i length
  /-- Every flag is unchanged, or it is the flag of a value of the batch and is now marked. -/
  flags : ∀ place, (v.countDuplicatesUnder d stream input p).state.get place = p.get place ∨
    (v.countDuplicatesUnder d stream input p).state.get place = 1 ∧
      ∃ value ∈ input, value.toNat = place.val
  /-- In a launch of one block the fault is at the first element in the order of the launch whose
  value has no flag. The values before it are marked, and no other flag has changed. -/
  oneBlock : g.blocks = 1 → (∃ value ∈ input, length ≤ value.toNat) →
    ∃ before i after, g.visits = .ok ((before ++ i :: after).map Fin.val) ∧
      (before ++ i :: after).Pairwise (fun j k : Fin input.size => g.rank j < g.rank k) ∧
      (∀ j ∈ before, (Validation.valueAt input j).toNat < length) ∧
      length ≤ (Validation.valueAt input i).toNat ∧
      v.countDuplicatesUnder d stream input p =
        ⟨p.markAll (before.map (Validation.valueAt input)),
          (Validation.repeats p input before).map (Validation.warningAt input),
          .error (.beyondPresence (Validation.valueAt input i) i length)⟩

/-- A duplicate check whose lanes fit overruns its map exactly. -/
theorem overrunsExactly (hgrid : v.grid input.size = .ok g) (hfits : g.Fits) (d : Dispatch)
    (stream : Stream) (p : Presence length) : v.OverrunsExactly d stream g input p := by
  obtain ⟨hmarked, hresult⟩ := markedOnly_countDuplicatesUnder hgrid hfits d stream p
  constructor
  case error_iff =>
    simp only [hresult, ← Option.isSome_iff_exists, ← Option.ne_none_iff_isSome, ne_eq,
      findSome?_overrun?_eq_none_iff hgrid d]
    simp
  case named =>
    intro fault hfault
    obtain ⟨i, -, hi⟩ := List.exists_of_findSome?_eq_some ((hresult fault).mp hfault)
    exact Validation.exists_of_overrun? hi
  case flags => exact hmarked
  case oneBlock =>
    intro hblocks ⟨value, hvalue, hle⟩
    obtain ⟨hsize, helements, hcovers⟩ := Grid.elements_le_of_covering hgrid
    obtain ⟨order, hval, hperm⟩ := Grid.exists_places_launchOrder hsize hcovers helements
    obtain ⟨k, hk, rfl⟩ := Array.mem_iff_getElem.mp hvalue
    -- the block comes to the first element in its order whose value has no flag
    obtain ⟨i, hfirst⟩ : ∃ i, order.find?
        (fun i => length ≤ (Validation.valueAt input i).toNat) = some i := by
      refine Option.isSome_iff_exists.mp (List.find?_isSome.mpr ⟨⟨k, hk⟩, ?_, decide_eq_true hle⟩)
      exact hperm.mem_iff.mpr (List.mem_finRange _)
    obtain ⟨hi, before, after, rfl, hbefore⟩ := List.find?_eq_some_iff_append.mp hfirst
    have hsorted := g.pairwise_rank_launchOrder
    rw [← hval, List.pairwise_map] at hsorted
    have hnodup : (before ++ i :: after).Nodup := hperm.nodup_iff.mpr (List.nodup_finRange _)
    have hrange : ∀ j ∈ before, (Validation.valueAt input j).toNat < length := by
      simpa using hbefore
    have hi : length ≤ (Validation.valueAt input i).toNat := by simpa using hi
    exact ⟨before, i, after, hval ▸ Grid.visits_eq_launchOrder hfits, hsorted, hrange, hi,
      countDuplicatesUnder_of_oneBlock hgrid hfits hblocks hval hnodup.of_append_left hrange hi d
        stream p⟩

end Validator

end IdCompaction
