import IdCompaction.Proofs.Table.Race
import Mathlib.Data.List.Perm.Basic

/-!
# What holds all along a race

A claim holds its local ID from the count on: first in the thread that made it, which is about to
store it, and then in the slot that shows it. Between any two accesses of a race the local IDs that
claims hold are the numbers below the counter, each once. So no two claims hold the same one, none
is the vacant mark, every one of them is a place of the table, and the counter has room whenever a
thread is about to take a number.
-/

namespace IdCompaction.Table

variable {capacity : Nat}

/-- The local IDs that the slots show. -/
def shownNumbers (t : Table capacity) : List Id :=
  ((List.finRange capacity).map fun slot => (t.slots.get slot).localId).filter (· ≠ vacant)

/-- The local ID that a thread is about to store. -/
def numberInHand : Routine capacity Record → Option Id
  | .access (.writeLocal _ number) _ => some number
  | _ => none

/-- The local IDs that claims hold. -/
def heldNumbers (crew : Threads capacity) : List Id :=
  shownNumbers crew.memory ++ crew.members.filterMap numberInHand

/-- What holds between any two accesses of a race. -/
structure Safe (crew : Threads capacity) : Prop where
  /-- The capacity does not reach the vacant mark. -/
  fits : capacity ≤ vacant.toNat
  /-- The counter is within the capacity. -/
  bounded : crew.memory.numItems ≤ capacity
  /-- The counter has room whenever a thread is about to take a number, so it never wraps. -/
  room : ∀ next, .access .takeNumber next ∈ crew.members → crew.memory.numItems < capacity
  /-- The local IDs that claims hold are the numbers below the counter, each held once. -/
  dense : ((heldNumbers crew).map UInt32.toNat).Perm (List.range crew.memory.numItems)
  /-- No two claims hold the same local ID. -/
  distinct : (heldNumbers crew).Nodup
  /-- Every local ID that a claim holds is a place of the table, and not the vacant mark. -/
  inBounds : ∀ number ∈ heldNumbers crew, number.toNat < capacity ∧ number ≠ vacant
  /-- No thread stops but at an ID past the capacity. -/
  stopped : ∀ record, .done record ∈ crew.members → ∀ fault ∈ record.fault,
    ∃ id, capacity ≤ id.toNat ∧ fault = .idOutOfRange id capacity
  /-- No thread stops without a record. -/
  recorded : ∀ fault, .stop fault ∉ crew.members

/-! ## The local IDs that claims hold -/

/-- The places of distinct IDs are the numbers below their number. -/
theorem map_idxOf_of_nodup {ids : List Id} (nodup : ids.Nodup) :
    ids.map ids.idxOf = List.range ids.length := by
  apply List.ext_getElem
  · simp
  · intro i hi _
    have hlt : i < ids.length := by simpa using hi
    simp [nodup.idxOf_getElem i hlt]

/-- A slot that shows a local ID shows the place of its ID. -/
theorem Stage.toNat_slot_localId {stage : Stage} {id : Id}
    (hlength : stage.numbered.length ≤ vacant.toNat) (hn : id ∈ stage.numbered)
    (hu : id ∉ stage.unpublished) : (stage.slot id).localId.toNat = stage.numbered.idxOf id := by
  have hlt := List.idxOf_lt_length_of_mem hn
  have hlocal : (stage.slot id).localId = (stage.numbered.idxOf id).toUInt32 := if_pos ⟨hn, hu⟩
  rw [vacant_toNat] at hlength
  rw [hlocal]
  apply UInt32.toNat_ofNat_of_lt
  simp only [UInt32.size]
  omega

/-- A slot shows a local ID once its claim has published one. -/
theorem Stage.slot_localId_ne_vacant_iff {stage : Stage}
    (hlength : stage.numbered.length ≤ vacant.toNat) (id : Id) :
    (stage.slot id).localId ≠ vacant ↔ id ∈ stage.numbered ∧ id ∉ stage.unpublished := by
  constructor
  · intro hne
    by_contra hnot
    exact hne (if_neg hnot)
  · rintro ⟨hn, hu⟩
    have hlt := List.idxOf_lt_length_of_mem hn
    apply ne_vacant_of_lt
    rw [Stage.toNat_slot_localId hlength hn hu]
    omega

/-- The IDs below the capacity, in the order of their slots. -/
def idsBelow (capacity : Nat) : List Id :=
  (List.finRange capacity).map fun slot => slot.val.toUInt32

/-- The IDs below the capacity are those in range. -/
theorem mem_idsBelow (fits : capacity ≤ vacant.toNat) (id : Id) :
    id ∈ idsBelow capacity ↔ id.toNat < capacity := by
  constructor
  · intro hid
    obtain ⟨slot, -, hslot⟩ := List.mem_map.mp hid
    rw [(slot_toUInt32_eq_iff fits slot id).mp hslot]
    exact slot.isLt
  · intro hid
    exact List.mem_map.mpr ⟨⟨id.toNat, hid⟩, List.mem_finRange _, UInt32.ofNat_toNat⟩

/-- They are all different. -/
theorem nodup_idsBelow (fits : capacity ≤ vacant.toNat) : (idsBelow capacity).Nodup := by
  refine (List.nodup_finRange capacity).map fun first second heq => ?_
  have hfirst := (slot_toUInt32_eq_iff fits first _).mp rfl
  have hsecond := (slot_toUInt32_eq_iff fits second _).mp heq.symm
  exact Fin.ext (hfirst.symm.trans hsecond)

/-- The slots show the places of the IDs whose claims have published their local IDs. -/
theorem shownNumbers_showing (base : Table capacity) (stage : Stage)
    (fits : capacity ≤ vacant.toNat) (nodup : stage.numbered.Nodup)
    (inRange : ∀ id ∈ stage.numbered, id.toNat < capacity) :
    ((shownNumbers (base.showing stage)).map UInt32.toNat).Perm
      ((stage.numbered.filter (· ∉ stage.unpublished)).map stage.numbered.idxOf) := by
  have hlength : stage.numbered.length ≤ vacant.toNat :=
    Nat.le_trans (length_le_capacity nodup inRange) fits
  have hshown : shownNumbers (base.showing stage) =
      ((idsBelow capacity).filter fun id => (stage.slot id).localId ≠ vacant).map
        fun id => (stage.slot id).localId := by
    simp only [shownNumbers, idsBelow, List.filter_map, List.map_map]
    simp [showing, Buffer.get, Function.comp_def]
  have hfilter : ((idsBelow capacity).filter fun id => (stage.slot id).localId ≠ vacant).Perm
      (stage.numbered.filter (· ∉ stage.unpublished)) := by
    rw [List.perm_ext_iff_of_nodup ((nodup_idsBelow fits).filter _) (nodup.filter _)]
    intro id
    have hslot := Stage.slot_localId_ne_vacant_iff hlength id
    simp only [List.mem_filter, mem_idsBelow fits, decide_eq_true_eq, hslot]
    exact ⟨fun h => h.2, fun h => ⟨inRange id h.1, h⟩⟩
  rw [hshown, List.map_map]
  refine (hfilter.map _).trans (List.Perm.of_eq (List.map_congr_left fun id hid => ?_))
  obtain ⟨hn, hu⟩ := List.mem_filter.mp hid
  exact Stage.toNat_slot_localId hlength hn (by simpa using hu)

/-- A worker that is about to take a number has claimed an ID. -/
theorem Worker.claimed_ne_nil (w : Worker capacity) {next : Id → Routine capacity Record}
    (h : w.routine = .access .takeNumber next) : w.claimed ≠ [] := by
  obtain ⟨answers, phase, rest⟩ := w
  cases phase with
  | idle =>
    obtain ⟨-, hdone⟩ | ⟨id, later, hid, -, haccess⟩ := routine_idle_cases answers rest
    · rw [hdone] at h
      cases h
    · rw [haccess] at h
      cases h
  | claimed id inRange => exact List.cons_ne_nil _ _
  | numbered id inRange number => cases h
  | published id place => cases h

/-- The number in hand of a worker is the place of its ID. -/
theorem Worker.HoldsPlace.numberInHand_eq {numbered : List Id} {w : Worker capacity}
    (nodup : numbered.Nodup) (h : w.HoldsPlace numbered) :
    (numberInHand w.routine).toList.map UInt32.toNat = w.unpublished.map numbered.idxOf := by
  obtain ⟨answers, phase, rest⟩ := w
  cases phase with
  | idle =>
    obtain ⟨-, hdone⟩ | ⟨id, later, hid, -, haccess⟩ := Worker.routine_idle_cases answers rest
    · rw [hdone]
      rfl
    · rw [haccess]
      rfl
  | claimed id inRange => rfl
  | numbered id inRange number =>
    have hplace : numbered[number.toNat]? = some id := h
    obtain ⟨hlt, hentry⟩ := List.getElem?_eq_some_iff.mp hplace
    have hindex : numbered.idxOf id = number.toNat := by
      rw [← hentry]
      exact nodup.idxOf_getElem _ hlt
    change [number.toNat] = [numbered.idxOf id]
    rw [hindex]
  | published id place => rfl

namespace Racing

variable {base t : Table capacity} {start numbered : List Id} {workers : List (Worker capacity)}

/-- An ID whose slot does not show its local ID yet has one. -/
theorem mem_of_mem_unpublished (h : Racing base start numbered t workers) {id : Id}
    (hid : id ∈ workers.flatMap Worker.unpublished) : id ∈ numbered := by
  obtain ⟨w, hw, hid⟩ := List.mem_flatMap.mp hid
  have htaken : id ∈ workers.flatMap Worker.taken :=
    List.mem_flatMap.mpr ⟨w, hw, List.mem_append_right _ (List.mem_append_left _ hid)⟩
  exact h.taken.mem_iff.mpr (List.mem_append_right _ htaken)

/-- The numbers in hand are the places of the IDs whose slots do not show them yet. -/
theorem map_numberInHand (h : Racing base start numbered t workers) :
    ((workers.map Worker.routine).filterMap numberInHand).map UInt32.toNat =
      (workers.flatMap Worker.unpublished).map numbered.idxOf := by
  rw [List.filterMap_map, List.filterMap_eq_flatMap_toList, List.map_flatMap, List.map_flatMap]
  exact List.flatMap_congr fun w hw => (h.places w hw).numberInHand_eq h.nodup_numbered

end Racing

/-- The local IDs that claims hold are the numbers below the counter, each once. -/
theorem Underway.heldNumbers_perm {base : Table capacity} {start numbered : List Id}
    {lists : List (List Id)} {workers : List (Worker capacity)} {crew : Threads capacity}
    (h : Underway base start lists numbered workers crew) :
    ((heldNumbers crew).map UInt32.toNat).Perm (List.range crew.memory.numItems) := by
  have hracing := h.racing
  have hin (id : Id) (hid : id ∈ numbered) : id.toNat < capacity :=
    hracing.inRange id (List.mem_append_left _ hid)
  have hshown := shownNumbers_showing base
    ⟨numbered, workers.flatMap Worker.claimed, workers.flatMap Worker.unpublished,
      workers.flatMap Worker.unowned⟩ hracing.fits hracing.nodup_numbered hin
  rw [← hracing.contents] at hshown
  -- an ID with a local ID either shows it or is in the hand of the worker that claims it
  have hhand : (numbered.filter (· ∈ workers.flatMap Worker.unpublished)).Perm
      (workers.flatMap Worker.unpublished) := by
    have hunpublished := (List.nodup_append.mp hracing.nodup_underway).1
    rw [List.perm_ext_iff_of_nodup (hracing.nodup_numbered.filter _) hunpublished]
    intro id
    simpa using fun w hw hid =>
      hracing.mem_of_mem_unpublished (List.mem_flatMap.mpr ⟨w, hw, hid⟩)
  have hsplit : (numbered.filter (· ∉ workers.flatMap Worker.unpublished) ++
      workers.flatMap Worker.unpublished).Perm numbered := by
    refine (List.perm_append_comm.trans (hhand.symm.append_right _)).trans ?_
    have hfilter := List.filter_append_perm (· ∈ workers.flatMap Worker.unpublished) numbered
    simpa only [decide_not] using hfilter
  rw [heldNumbers, List.map_append, h.members, hracing.map_numberInHand, hracing.numItems_eq,
    ← map_idxOf_of_nodup hracing.nodup_numbered]
  refine (hshown.append_right _).trans ?_
  rw [← List.map_append]
  exact hsplit.map _

/-- Every point of a race is safe. -/
theorem Underway.safe {base : Table capacity} {start numbered : List Id}
    {lists : List (List Id)} {workers : List (Worker capacity)} {crew : Threads capacity}
    (h : Underway base start lists numbered workers crew) : Safe crew := by
  have hracing := h.racing
  have hlength := hracing.length_le
  have hcount := hracing.numItems_eq
  have hdense := h.heldNumbers_perm
  have hbelow (number : Id) (hnumber : number ∈ heldNumbers crew) :
      number.toNat < numbered.length := by
    rw [← hcount]
    exact List.mem_range.mp (hdense.mem_iff.mp (List.mem_map_of_mem hnumber))
  refine ⟨hracing.fits, by omega, ?_, hdense, ?_, ?_, ?_, ?_⟩
  · -- who is about to take a number has claimed an ID that has none yet, so one is left
    intro next hnext
    rw [h.members] at hnext
    obtain ⟨w, hw, hroutine⟩ := List.mem_map.mp hnext
    obtain ⟨id, hid⟩ := List.exists_mem_of_ne_nil _ (w.claimed_ne_nil hroutine)
    have hclaimed : 0 < (workers.flatMap Worker.claimed).length :=
      List.length_pos_of_mem (List.mem_flatMap.mpr ⟨w, hw, hid⟩)
    omega
  · exact (hdense.nodup_iff.mpr List.nodup_range).of_map
  · intro number hnumber
    have hfits := hracing.fits
    have hlt := hbelow number hnumber
    exact ⟨by omega, ne_vacant_of_lt (by omega)⟩
  · intro record hrecord fault hfault
    rw [h.members] at hrecord
    obtain ⟨w, -, hroutine⟩ := List.mem_map.mp hrecord
    obtain ⟨-, hrest, rfl⟩ := Worker.of_routine_eq_done hroutine
    obtain ⟨id, hid, rfl⟩ := Option.map_eq_some_iff.mp hfault
    exact ⟨id, hrest id hid, rfl⟩
  · intro fault hfault
    rw [h.members] at hfault
    obtain ⟨w, -, hroutine⟩ := List.mem_map.mp hfault
    obtain ⟨record, hdone⟩ | ⟨op, next, haccess⟩ := w.routine_cases
    · rw [hdone] at hroutine
      cases hroutine
    · rw [haccess] at hroutine
      cases hroutine

end IdCompaction.Table
