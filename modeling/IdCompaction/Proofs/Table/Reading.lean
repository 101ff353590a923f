import IdCompaction.Proofs.Table.Numbering

/-!
# Reading a table that numbers a list

Reads leave the table as it is. On a table that numbers a list, the local ID of an ID is its place
in the list, the owner of a local ID is the entry at that place, and listing the owners gives the
list back, in full or as far as the output reaches. None of this depends on how the pool cuts the
listing up.
-/

namespace IdCompaction.Table

variable {capacity : Nat} {t : Table capacity} {ids : List Id}

/-! ## Point reads -/

/-- Looking a global ID up reads its slot. -/
theorem perform_localOf (t : Table capacity) {id : Id} (h : id.toNat < capacity) :
    (localOf id).perform t =
      ⟨t, [], .ok (if (t.slots.get ⟨id.toNat, h⟩).claim ≠ id then none
        else if (t.slots.get ⟨id.toNat, h⟩).localId ≠ vacant then
          some (t.slots.get ⟨id.toNat, h⟩).localId
        else none)⟩ := by
  have hread : (Access.apply (.readClaim ⟨id.toNat, h⟩) t).1 =
      (t.slots.get ⟨id.toNat, h⟩).claim := rfl
  simp only [localOf, slotOf, dif_pos h, Routine.done_bind, ask, Routine.ask_bind, perform_access]
  by_cases hclaim : (t.slots.get ⟨id.toNat, h⟩).claim ≠ id
  · rw [if_pos (hread ▸ hclaim), if_pos hclaim]
    rfl
  · rw [if_neg (hread ▸ hclaim), if_neg hclaim]
    rfl

/-- Looking a local ID up reads the counter and then its owner. -/
theorem perform_globalOf (t : Table capacity) (number : Id) (fits : t.numItems ≤ capacity) :
    (globalOf number).perform t =
      ⟨t, [], .ok (if h : number.toNat < t.numItems then
          let id := t.owners.get ⟨number.toNat, Nat.lt_of_lt_of_le h fits⟩
          if id ≠ vacant then some id else none
        else none)⟩ := by
  simp only [globalOf, ask, Routine.ask_bind, perform_access]
  by_cases h : number.toNat < t.numItems
  · have hplace : number.toNat < capacity := Nat.lt_of_lt_of_le h fits
    have hcount : ¬ (Access.apply .readCount t).1.toNat ≤ number.toNat := Nat.not_le.mpr h
    rw [dif_pos h, if_neg hcount]
    simp only [placeOf, dif_pos hplace, Routine.done_bind]
    rfl
  · have hcount : (Access.apply .readCount t).1.toNat ≤ number.toNat := Nat.le_of_not_lt h
    rw [dif_neg h, if_pos hcount]
    rfl

/-- An edge's endpoint reads its slot, and must be claimed. -/
theorem perform_endpoint (t : Table capacity) {id : Id} (h : id.toNat < capacity) :
    (endpoint id).perform t =
      ⟨t, [], if (t.slots.get ⟨id.toNat, h⟩).claim ≠ id then .error (.neverPopulated id)
        else .ok (t.slots.get ⟨id.toNat, h⟩).localId⟩ := by
  have hread : (Access.apply (.readClaim ⟨id.toNat, h⟩) t).1 =
      (t.slots.get ⟨id.toNat, h⟩).claim := rfl
  simp only [endpoint, slotOf, dif_pos h, Routine.done_bind, ask, Routine.ask_bind, perform_access]
  by_cases hclaim : (t.slots.get ⟨id.toNat, h⟩).claim ≠ id
  · rw [if_pos (hread ▸ hclaim), if_pos hclaim]
    rfl
  · rw [if_neg (hread ▸ hclaim), if_neg hclaim]
    rfl

/-- The place of an entry is a local ID, and no vacant mark. -/
theorem Numbers.idxOf_ne_vacant (h : t.Numbers ids) {id : Id} (hmem : id ∈ ids) :
    (ids.idxOf id).toUInt32 ≠ vacant := by
  have hlt := List.idxOf_lt_length_of_mem hmem
  apply ne_vacant_of_lt
  rw [h.toNat_toUInt32 (Nat.le_of_lt hlt)]
  exact Nat.lt_of_lt_of_le hlt (Nat.le_trans h.length_le h.fits)

/-- An entry of the list is found at its place. -/
theorem Numbers.localId?_of_mem (h : t.Numbers ids) {id : Id} (hmem : id ∈ ids) :
    t.localId? id = .ok (some (ids.idxOf id).toUInt32) := by
  have hid := h.inRange id hmem
  rw [localId?, read, perform_localOf t hid, h.slots_get hid, Stage.slot_settled_of_mem hmem]
  simp [h.idxOf_ne_vacant hmem]

/-- An ID outside the list is not found. -/
theorem Numbers.localId?_of_notMem (h : t.Numbers ids) {id : Id} (hid : id.toNat < capacity)
    (hmem : id ∉ ids) : t.localId? id = .ok none := by
  have hne : vacant ≠ id := (ne_vacant_of_lt (Nat.lt_of_lt_of_le hid h.fits)).symm
  rw [localId?, read, perform_localOf t hid, h.slots_get hid, Stage.slot_settled_of_notMem hmem]
  simp [Slot.empty, hne]

/-- The owner of a local ID is the entry at its place. -/
theorem Numbers.globalId?_eq (h : t.Numbers ids) (number : Id) :
    t.globalId? number = .ok ids[number.toNat]? := by
  have hused : t.numItems ≤ capacity := h.numItems_eq ▸ h.length_le
  rw [globalId?, read, perform_globalOf t number hused]
  by_cases hlt : number.toNat < ids.length
  · have hne : ids[number.toNat] ≠ vacant :=
      ne_vacant_of_lt (Nat.lt_of_lt_of_le (h.inRange _ (List.getElem_mem hlt)) h.fits)
    simp [h.numItems_eq, h.owners_get, hlt, hne]
  · simp [h.numItems_eq, hlt]

/-- Looking up answers a local ID exactly if the list has the ID there. -/
theorem Numbers.localId?_eq_some_iff (h : t.Numbers ids) {id : Id} (hid : id.toNat < capacity)
    (number : Id) : t.localId? id = .ok (some number) ↔ ids[number.toNat]? = some id := by
  by_cases hmem : id ∈ ids
  · have hlt := List.idxOf_lt_length_of_mem hmem
    have hplace := h.toNat_toUInt32 (Nat.le_of_lt hlt)
    rw [h.localId?_of_mem hmem, Except.ok.injEq, Option.some.injEq]
    constructor
    · rintro rfl
      rw [hplace, List.getElem?_idxOf hmem]
    · intro hnumber
      obtain ⟨hbound, hentry⟩ := List.getElem?_eq_some_iff.mp hnumber
      rw [← UInt32.toNat_inj, hplace, ← hentry]
      exact h.nodup.idxOf_getElem number.toNat hbound
  · rw [h.localId?_of_notMem hid hmem]
    simp only [Except.ok.injEq, reduceCtorEq, false_iff]
    exact fun hnumber => hmem (List.mem_of_getElem? hnumber)

/-- Looking up answers none exactly if the list does not have the ID. -/
theorem Numbers.localId?_eq_none_iff (h : t.Numbers ids) {id : Id} (hid : id.toNat < capacity) :
    t.localId? id = .ok none ↔ id ∉ ids := by
  by_cases hmem : id ∈ ids
  · simp [h.localId?_of_mem hmem, hmem]
  · simp [h.localId?_of_notMem hid hmem, hmem]

/-- The slot of an ID says that it is claimed. -/
def isClaimed (t : Table capacity) (id : Id) : Bool :=
  if h : id.toNat < capacity then (t.slots.get ⟨id.toNat, h⟩).claim == id else false

/-- The IDs of the list are the claimed ones. -/
theorem Numbers.isClaimed_eq (h : t.Numbers ids) (id : Id) :
    t.isClaimed id = decide (id ∈ ids) := by
  unfold isClaimed
  by_cases hid : id.toNat < capacity
  · have hne : vacant ≠ id := (ne_vacant_of_lt (Nat.lt_of_lt_of_le hid h.fits)).symm
    rw [dif_pos hid, h.slots_get hid]
    by_cases hmem : id ∈ ids
    · simp [Stage.slot_settled_of_mem hmem, hmem]
    · simp [Stage.slot_settled_of_notMem hmem, hmem, Slot.empty, hne]
  · have hmem : id ∉ ids := fun hmem => hid (h.inRange id hmem)
    simp [hid, hmem]

/-! ## Writing outputs -/

section Outputs

variable {α : Type} {count : Nat} {output : Array α} {value : Fin count → α}

/-- An output with several places written over. -/
def writeAll (output : Array α) (places : List (Fin count)) (value : Fin count → α) : Array α :=
  places.foldl (fun output (place : Fin count) => output.setIfInBounds place (value place)) output

/-- Writing over places leaves an output its size. -/
@[simp] theorem size_writeAll (places : List (Fin count)) :
    (writeAll output places value).size = output.size := by
  induction places generalizing output with
  | nil => rfl
  | cons first rest ih => exact ih.trans Array.size_setIfInBounds

/-- A named place holds its value, and so does a place that held it before. -/
theorem getElem?_writeAll (hsize : output.size = count) (value : Fin count → α)
    {places : List (Fin count)} {place : Fin count}
    (hplace : place ∈ places ∨ output[place.val]? = some (value place)) :
    (writeAll output places value)[place.val]? = some (value place) := by
  induction places generalizing output with
  | nil => exact hplace.resolve_left List.not_mem_nil
  | cons first rest ih =>
    have hfirst : (output.setIfInBounds first (value first)).size = count :=
      Array.size_setIfInBounds.trans hsize
    refine ih hfirst ?_
    rw [Array.getElem?_setIfInBounds]
    by_cases heq : first = place
    · subst heq
      exact .inr (by rw [if_pos rfl, if_pos (hsize ▸ first.isLt)])
    · have hval : first.val ≠ place.val := fun h => heq (Fin.eq_of_val_eq h)
      rw [if_neg hval]
      exact hplace.imp_left fun h => (List.mem_cons.mp h).resolve_left (Ne.symm heq)

/-- Writing every place of an output leaves nothing of what it held, in whatever order. -/
theorem writeAll_of_forall_mem (hsize : output.size = count) {places : List (Fin count)}
    (hplaces : ∀ place, place ∈ places) : writeAll output places value = Array.ofFn value := by
  apply Array.ext_getElem?
  intro i
  by_cases hi : i < count
  · have hplace := getElem?_writeAll hsize value (.inl (hplaces ⟨i, hi⟩))
    rw [hplace, Array.getElem?_ofFn, dif_pos hi]
  · rw [Array.getElem?_eq_none, Array.getElem?_eq_none]
    · simpa using hi
    · simpa [hsize] using hi

end Outputs

/-! ## Listing -/

/-- The owner at a position of the list is the entry there. -/
theorem Numbers.read_ownerAt (h : t.Numbers ids) {position : Nat} (hlt : position < ids.length) :
    t.read (ownerAt position) = .ok ids[position] := by
  have hplace : position < capacity := Nat.lt_of_lt_of_le hlt h.length_le
  have howner := h.owners_get ⟨position, hplace⟩
  rw [List.getElem?_eq_getElem hlt] at howner
  simp only [read, ownerAt, dif_pos hplace]
  exact congrArg Except.ok howner

/-- Listing writes the first entries of the list over an output that is not longer. -/
theorem Numbers.copyGlobals_of_le (h : t.Numbers ids) (pool : Pool) {output : Array Id}
    (hsize : output.size ≤ ids.length) :
    t.copyGlobals pool output = ⟨(ids.take output.size).toArray, [], .ok ()⟩ := by
  have hbound (i : Fin output.size) : i.val < ids.length := Nat.lt_of_lt_of_le i.isLt hsize
  have hloop : pool.forEach output.size (fun i => do
      let id ← Action.ofExcept (t.read (ownerAt i))
      Action.modify fun output => output.setIfInBounds i id) output =
      ⟨writeAll output (List.finRange output.size) fun i => ids.get ⟨i.val, hbound i⟩, [],
        (.ok () : Except Fault Unit)⟩ :=
    pool.forEach_eq_foldl (fun i s => by rw [h.read_ownerAt (hbound i)]; rfl) output
  have hentries : Array.ofFn (fun i : Fin output.size => ids.get ⟨i.val, hbound i⟩) =
      (ids.take output.size).toArray := by
    apply Array.ext <;> simp [hsize]
  rw [copyGlobals, Action.bind_apply_silent _ (Action.gets_apply Array.size output),
    if_neg (by rw [h.numItems_eq]; exact Nat.not_lt.mpr hsize), hloop,
    writeAll_of_forall_mem rfl List.mem_finRange, hentries]

/-- Listing more entries than there are is a fault that leaves the output as it is. -/
theorem Numbers.copyGlobals_of_lt (h : t.Numbers ids) (pool : Pool) {output : Array Id}
    (hsize : ids.length < output.size) :
    t.copyGlobals pool output =
      ⟨output, [], .error (.tooManyNodes output.size ids.length)⟩ := by
  rw [copyGlobals, Action.bind_apply_silent _ (Action.gets_apply Array.size output),
    h.numItems_eq, if_pos hsize]
  rfl

/-- Listing everything gives the list back. -/
theorem Numbers.globalIds_eq (h : t.Numbers ids) (pool : Pool) :
    t.globalIds pool = .ok ids.toArray := by
  have hsize : (Array.replicate t.numItems vacant).size = ids.length := by
    rw [Array.size_replicate, h.numItems_eq]
  rw [globalIds, h.copyGlobals_of_le pool (Nat.le_of_eq hsize), hsize, List.take_length]
  rfl

/-! ## What callers see -/

/-- What callers see of a table that numbers a list. -/
structure Presents (t : Table capacity) (ids : List Id) : Prop where
  numItems : t.numItems = ids.length
  localId? : ∀ id, id.toNat < capacity →
    (∀ number, t.localId? id = .ok (some number) ↔ ids[number.toNat]? = some id) ∧
      (t.localId? id = .ok none ↔ id ∉ ids)
  globalId? : ∀ number, t.globalId? number = .ok ids[number.toNat]?
  copyGlobals : ∀ pool output, t.copyGlobals pool output =
    if output.size ≤ ids.length then ⟨(ids.take output.size).toArray, [], .ok ()⟩
    else ⟨output, [], .error (.tooManyNodes output.size ids.length)⟩
  globalIds : ∀ pool, t.globalIds pool = .ok ids.toArray

/-- Everything that callers can read follows from the list. -/
theorem Numbers.presents (h : t.Numbers ids) : t.Presents ids where
  numItems := h.numItems_eq
  localId? id hid := ⟨h.localId?_eq_some_iff hid, h.localId?_eq_none_iff hid⟩
  globalId? := h.globalId?_eq
  copyGlobals pool output := by
    split
    · next hsize => exact h.copyGlobals_of_le pool hsize
    · next hsize => exact h.copyGlobals_of_lt pool (Nat.lt_of_not_le hsize)
  globalIds := h.globalIds_eq

end IdCompaction.Table
