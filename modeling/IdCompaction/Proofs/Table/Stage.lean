import IdCompaction.Table.Access
import Mathlib.Data.List.Basic

/-!
# Tables with claims under way

A claim is four accesses, and between them the table shows a part of it. A stage says how far every
claim has come: the IDs that have a local ID, in the order of their local IDs, and the IDs whose
claim waits for the count, for the local ID in the slot, or for the owner at the local ID. The
contents of a table are a function of its stage, and each of the four accesses moves one ID on.

Stages talk about contents only. Where the arrays live is taken from a base table, so equal stages
over one base are equal tables.
-/

namespace IdCompaction

/-- How far the claims of a table have come. -/
structure Stage where
  /-- The IDs that have a local ID, in the order of their local IDs. -/
  numbered : List Id
  /-- The IDs that are claimed and wait for a local ID. -/
  claimed : List Id
  /-- The IDs whose slot does not show the local ID yet. -/
  unpublished : List Id
  /-- The IDs whose slot shows the local ID, which does not show its owner yet. -/
  unowned : List Id

namespace Stage

/-- The stage without a claim under way. -/
def settled (ids : List Id) : Stage := ⟨ids, [], [], []⟩

/-- What the slot of an ID shows. -/
def slot (stage : Stage) (id : Id) : Slot where
  claim := if id ∈ stage.numbered ∨ id ∈ stage.claimed then id else vacant
  localId :=
    if id ∈ stage.numbered ∧ id ∉ stage.unpublished then (stage.numbered.idxOf id).toUInt32
    else vacant

/-- What the owner at a local ID shows. -/
def owner (stage : Stage) (number : Nat) : Id :=
  match stage.numbered[number]? with
  | some id => if id ∈ stage.unpublished ∨ id ∈ stage.unowned then vacant else id
  | none => vacant

/-- The slot of an ID that nobody has claimed is empty. -/
theorem slot_of_unclaimed {stage : Stage} {id : Id} (hn : id ∉ stage.numbered)
    (hc : id ∉ stage.claimed) : stage.slot id = Slot.empty := by
  simp [slot, hn, hc, Slot.empty]

/-- The slot of an ID in the list holds it, with its place. -/
@[simp] theorem slot_settled_of_mem {ids : List Id} {id : Id} (h : id ∈ ids) :
    (settled ids).slot id = ⟨id, (ids.idxOf id).toUInt32⟩ := by
  simp [slot, settled, h]

/-- The slot of any other ID is empty. -/
@[simp] theorem slot_settled_of_notMem {ids : List Id} {id : Id} (h : id ∉ ids) :
    (settled ids).slot id = Slot.empty :=
  slot_of_unclaimed h List.not_mem_nil

/-- The owner of a local ID is the ID at its place, and past the list there is none. -/
@[simp] theorem owner_settled (ids : List Id) (number : Nat) :
    (settled ids).owner number = ids[number]?.getD vacant := by
  unfold owner settled
  cases ids[number]? <;> simp

end Stage

namespace Table

variable {capacity : Nat}

/-- The table that shows a stage, in the arrays of a base table. -/
def showing (base : Table capacity) (stage : Stage) : Table capacity where
  slots := { base.slots with cells := Vector.ofFn fun slot => stage.slot slot.val.toUInt32 }
  owners := { base.owners with cells := Vector.ofFn fun place => stage.owner place.val }
  count := stage.numbered.length.toUInt32

/-- A table that shows a stage has the owners of the stage. -/
@[simp] theorem owners_get_showing (base : Table capacity) (stage : Stage) (place : Fin capacity) :
    (base.showing stage).owners.get place = stage.owner place.val := by
  simp [showing, Buffer.get]

/-- A table that shows a stage has the slots of the stage. -/
@[simp] theorem slots_get_showing (base : Table capacity) (stage : Stage) (id : Id)
    (h : id.toNat < capacity) :
    (base.showing stage).slots.get ⟨id.toNat, h⟩ = stage.slot id := by
  simp [showing, Buffer.get]

/-- A table shows a stage if its slots, its owners and its counter do. -/
theorem showing_eq_self {t : Table capacity} (stage : Stage)
    (hslot : ∀ slot : Fin capacity, t.slots.get slot = stage.slot slot.val.toUInt32)
    (howner : ∀ place : Fin capacity, t.owners.get place = stage.owner place.val)
    (hcount : t.count = stage.numbered.length.toUInt32) : t.showing stage = t := by
  obtain ⟨⟨context, address, slots⟩, ⟨context', address', owners⟩, count⟩ := t
  simp only [showing, Table.mk.injEq, Buffer.mk.injEq, true_and]
  refine ⟨?_, ?_, hcount.symm⟩
  · ext i hi : 1
    rw [Vector.getElem_ofFn]
    exact (hslot ⟨i, hi⟩).symm
  · ext i hi : 1
    rw [Vector.getElem_ofFn]
    exact (howner ⟨i, hi⟩).symm

/-- Tables over one base agree if their slots, owners and counters show the same. -/
theorem showing_congr (base : Table capacity) {first second : Stage}
    (hslot : ∀ id, first.slot id = second.slot id)
    (howner : ∀ number, first.owner number = second.owner number)
    (hcount : first.numbered.length = second.numbered.length) :
    base.showing first = base.showing second := by
  unfold showing
  rw [funext hslot, funext howner, hcount]

/-- The claims under way may be listed in any order. -/
theorem showing_perm (base : Table capacity) (numbered : List Id)
    {claimed claimed' unpublished unpublished' unowned unowned' : List Id}
    (hc : claimed.Perm claimed') (hu : unpublished.Perm unpublished') (ho : unowned.Perm unowned') :
    base.showing ⟨numbered, claimed, unpublished, unowned⟩ =
      base.showing ⟨numbered, claimed', unpublished', unowned'⟩ := by
  refine showing_congr base (fun id => ?_) (fun number => ?_) rfl
  · simp only [Stage.slot, hc.mem_iff, hu.mem_iff]
  · simp only [Stage.owner, hu.mem_iff, ho.mem_iff]

/-- A slot of a table below the vacant mark is told apart by its ID. -/
theorem slot_toUInt32_eq_iff (fits : capacity ≤ vacant.toNat) (slot : Fin capacity) (id : Id) :
    slot.val.toUInt32 = id ↔ id.toNat = slot.val := by
  have hlt : slot.val < UInt32.size := by
    have := slot.isLt
    rw [vacant_toNat] at fits
    simp only [UInt32.size]
    omega
  constructor
  · rintro rfl
    exact UInt32.toNat_ofNat_of_lt hlt
  · intro h
    rw [← h]
    exact UInt32.ofNat_toNat

/-- Changing the slot of one ID moves between stages that differ in this slot only. -/
theorem showing_putSlot (base : Table capacity) (first second : Stage)
    (fits : capacity ≤ vacant.toNat) {id : Id} (h : id.toNat < capacity)
    (helse : ∀ other, other ≠ id → first.slot other = second.slot other)
    (howner : ∀ number, first.owner number = second.owner number)
    (hcount : first.numbered.length = second.numbered.length) :
    (base.showing first).putSlot ⟨id.toNat, h⟩ (second.slot id) = base.showing second := by
  have hcells : (base.showing first).slots.put ⟨id.toNat, h⟩ (second.slot id) =
      (base.showing second).slots := by
    simp only [showing, Buffer.put, Buffer.mk.injEq, true_and]
    ext i hi : 1
    rw [Vector.getElem_set, Vector.getElem_ofFn, Vector.getElem_ofFn]
    have hid := slot_toUInt32_eq_iff fits ⟨i, hi⟩ id
    split
    · next heq => rw [hid.mpr heq]
    · next hne => exact helse _ fun heq => hne (hid.mp heq)
  unfold putSlot
  rw [hcells]
  simp only [showing, funext howner, hcount]

/-- Changing one owner moves between stages that differ in this owner only. -/
theorem showing_putOwner (base : Table capacity) (first second : Stage) (place : Fin capacity)
    (hslot : ∀ id, first.slot id = second.slot id)
    (helse : ∀ number, number ≠ place.val → first.owner number = second.owner number)
    (hcount : first.numbered.length = second.numbered.length) :
    (base.showing first).putOwner place (second.owner place.val) = base.showing second := by
  have hcells : (base.showing first).owners.put place (second.owner place.val) =
      (base.showing second).owners := by
    simp only [showing, Buffer.put, Buffer.mk.injEq, true_and]
    ext i hi : 1
    rw [Vector.getElem_set, Vector.getElem_ofFn, Vector.getElem_ofFn]
    split
    · next heq => rw [heq]
    · next hne => exact helse i fun heq => hne heq.symm
  unfold putOwner
  rw [hcells]
  simp only [showing, funext hslot, hcount]

/-! ## The four accesses of a claim -/

/-- Performing an access goes on with its answer on the table that it left. -/
theorem perform_access {α : Type} (op : Access capacity) (next : op.Answer → Routine capacity α)
    (t : Table capacity) :
    IdCompaction.Routine.perform (.access op next) t =
      (next (op.apply t).1).perform (op.apply t).2 := rfl

variable (base : Table capacity) (numbered claimed unpublished unowned : List Id) {id : Id}

/-- The exchange wins a slot that nobody has claimed. -/
theorem apply_claim_won (fits : capacity ≤ vacant.toNat)
    (h : id.toNat < capacity) (hn : id ∉ numbered) (hc : id ∉ claimed) :
    Access.apply (.claim ⟨id.toNat, h⟩ id)
        (base.showing ⟨numbered, claimed, unpublished, unowned⟩) =
      (true, base.showing ⟨numbered, id :: claimed, unpublished, unowned⟩) := by
  have hempty : Stage.slot ⟨numbered, claimed, unpublished, unowned⟩ id = Slot.empty :=
    Stage.slot_of_unclaimed hn hc
  have hslot : Stage.slot ⟨numbered, id :: claimed, unpublished, unowned⟩ id = ⟨id, vacant⟩ := by
    simp [Stage.slot, hn]
  have hput := showing_putSlot base ⟨numbered, claimed, unpublished, unowned⟩
    ⟨numbered, id :: claimed, unpublished, unowned⟩ fits h
    (fun other hne => by simp [Stage.slot, hne]) (fun _ => rfl) rfl
  rw [hslot] at hput
  simp only [Access.apply, slots_get_showing, hempty, Slot.empty, Cell.compareAndSwap, if_true,
    hput]

/-- The exchange loses a slot that is claimed, and leaves the table as it is. -/
theorem apply_claim_lost (fits : capacity ≤ vacant.toNat)
    (h : id.toNat < capacity) (hclaimed : id ∈ numbered ∨ id ∈ claimed) :
    Access.apply (.claim ⟨id.toNat, h⟩ id)
        (base.showing ⟨numbered, claimed, unpublished, unowned⟩) =
      (false, base.showing ⟨numbered, claimed, unpublished, unowned⟩) := by
  have hne : id ≠ vacant := ne_vacant_of_lt (Nat.lt_of_lt_of_le h fits)
  simp only [Access.apply, slots_get_showing, Stage.slot, if_pos hclaimed,
    Cell.compareAndSwap_claimed hne]

/-- The count hands out the number of IDs numbered so far. -/
theorem apply_takeNumber (hn : id ∉ numbered) :
    Access.apply .takeNumber (base.showing ⟨numbered, id :: claimed, unpublished, unowned⟩) =
      (numbered.length.toUInt32,
        base.showing ⟨numbered ++ [id], claimed, id :: unpublished, unowned⟩) := by
  have hslot : ∀ other, Stage.slot ⟨numbered, id :: claimed, unpublished, unowned⟩ other =
      Stage.slot ⟨numbered ++ [id], claimed, id :: unpublished, unowned⟩ other := by
    intro other
    by_cases hne : other = id
    · simp [Stage.slot, hne, hn]
    · by_cases hmem : other ∈ numbered
      · simp [Stage.slot, hne, hmem, List.idxOf_append_of_mem hmem]
      · simp [Stage.slot, hne, hmem]
  have howner : ∀ number, Stage.owner ⟨numbered, id :: claimed, unpublished, unowned⟩ number =
      Stage.owner ⟨numbered ++ [id], claimed, id :: unpublished, unowned⟩ number := by
    intro number
    simp only [Stage.owner]
    obtain hlt | rfl | hgt := Nat.lt_trichotomy number numbered.length
    · have hne : numbered[number] ≠ id := fun heq => hn (heq ▸ List.getElem_mem hlt)
      simp [List.getElem?_append_left hlt, List.getElem?_eq_getElem hlt, hne]
    · simp
    · have hpast : (numbered ++ [id]).length ≤ number := by simpa [Nat.succ_le_iff] using hgt
      rw [List.getElem?_eq_none hpast, List.getElem?_eq_none (Nat.le_of_lt hgt)]
  have hcount : numbered.length.toUInt32 + 1 = (numbered ++ [id]).length.toUInt32 := by
    simp [Nat.toUInt32]
  simp only [Access.apply, Cell.fetchAdd, showing, hcount, funext hslot, funext howner]

/-- The first store shows the local ID in the slot. -/
theorem apply_writeLocal (fits : capacity ≤ vacant.toNat)
    (h : id.toNat < capacity) (nodup : numbered.Nodup) {number : Nat}
    (hnumber : numbered[number]? = some id) (hu : id ∉ unpublished) :
    Access.apply (.writeLocal ⟨id.toNat, h⟩ number.toUInt32)
        (base.showing ⟨numbered, claimed, id :: unpublished, unowned⟩) =
      ((), base.showing ⟨numbered, claimed, unpublished, id :: unowned⟩) := by
  obtain ⟨hlt, heq⟩ := List.getElem?_eq_some_iff.mp hnumber
  have hmem : id ∈ numbered := heq ▸ List.getElem_mem hlt
  have hindex : numbered.idxOf id = number := by
    rw [← heq]
    exact nodup.idxOf_getElem number hlt
  have hbefore : Stage.slot ⟨numbered, claimed, id :: unpublished, unowned⟩ id = ⟨id, vacant⟩ := by
    simp [Stage.slot, hmem]
  have hafter : Stage.slot ⟨numbered, claimed, unpublished, id :: unowned⟩ id =
      ⟨id, number.toUInt32⟩ := by
    simp [Stage.slot, hmem, hu, hindex]
  have hput := showing_putSlot base ⟨numbered, claimed, id :: unpublished, unowned⟩
    ⟨numbered, claimed, unpublished, id :: unowned⟩ fits h
    (fun other hne => by simp [Stage.slot, hne])
    (fun number => by
      simp only [Stage.owner, List.mem_cons]
      cases numbered[number]? with
      | none => rfl
      | some other => simp only [or_assoc, or_left_comm]) rfl
  rw [hafter] at hput
  simp only [Access.apply, slots_get_showing, hbefore, hput]

/-- The second store shows the owner at the local ID, which ends the claim. -/
theorem apply_writeOwner (nodup : numbered.Nodup) (place : Fin capacity)
    (hplace : numbered[place.val]? = some id) (hu : id ∉ unpublished) (ho : id ∉ unowned) :
    Access.apply (.writeOwner place id)
        (base.showing ⟨numbered, claimed, unpublished, id :: unowned⟩) =
      ((), base.showing ⟨numbered, claimed, unpublished, unowned⟩) := by
  have hafter : Stage.owner ⟨numbered, claimed, unpublished, unowned⟩ place.val = id := by
    simp [Stage.owner, hplace, hu, ho]
  have hput := showing_putOwner base ⟨numbered, claimed, unpublished, id :: unowned⟩
    ⟨numbered, claimed, unpublished, unowned⟩ place (fun _ => rfl)
    (fun other hne => by
      simp only [Stage.owner, List.mem_cons]
      cases hother : numbered[other]? with
      | none => rfl
      | some owner =>
        have hdiff : owner ≠ id := by
          rintro rfl
          exact hne ((List.getElem?_inj (List.getElem?_eq_some_iff.mp hother).1 nodup).mp
            (hother.trans hplace.symm))
        simp [hdiff]) rfl
  rw [hafter] at hput
  simp only [Access.apply, hput]

end Table

end IdCompaction
