import IdCompaction.Proofs.Table.RaceSafety

/-!
# What a race never takes back

The threads of a race write to a table only where it is vacant, and count upwards. So whatever a
table shows at one point of a race, a claim, a local ID or an owner, it shows at every later point
as well. And at every point what it shows fits together: the slot of an owner that is shown shows
the local ID that it owns, since it was stored before, and no two slots show the same local ID.
-/

namespace IdCompaction

/-- An owner that is shown has its local ID, and its slot shows it. -/
theorem Stage.of_owner_ne_vacant {stage : Stage} {number : Nat} (h : stage.owner number ≠ vacant) :
    stage.numbered[number]? = some (stage.owner number) ∧
      stage.owner number ∉ stage.unpublished := by
  unfold Stage.owner at h ⊢
  cases hentry : stage.numbered[number]? with
  | none => simp [hentry] at h
  | some id =>
    by_cases hshown : id ∈ stage.unpublished ∨ id ∈ stage.unowned
    · simp [hentry, hshown] at h
    · simpa [hshown] using fun hmem => hshown (.inl hmem)

namespace Table

variable {capacity : Nat} {t t' t'' : Table capacity}

/-! ## Later tables -/

/-- Everything that the first table shows the second one shows, too. -/
structure Later (t t' : Table capacity) : Prop where
  claims : ∀ slot, (t.slots.get slot).claim ≠ vacant →
    (t'.slots.get slot).claim = (t.slots.get slot).claim
  localIds : ∀ slot, (t.slots.get slot).localId ≠ vacant →
    (t'.slots.get slot).localId = (t.slots.get slot).localId
  owners : ∀ place, t.owners.get place ≠ vacant → t'.owners.get place = t.owners.get place
  numItems : t.numItems ≤ t'.numItems

namespace Later

/-- What a table shows it shows itself. -/
theorem refl (t : Table capacity) : t.Later t :=
  ⟨fun _ _ => rfl, fun _ _ => rfl, fun _ _ => rfl, Nat.le_refl _⟩

/-- What is later than a later table is later still. -/
theorem trans (h : t.Later t') (h' : t'.Later t'') : t.Later t'' where
  claims slot hslot := by
    have hclaim := h.claims slot hslot
    rw [h'.claims slot (hclaim ▸ hslot), hclaim]
  localIds slot hslot := by
    have hlocal := h.localIds slot hslot
    rw [h'.localIds slot (hlocal ▸ hslot), hlocal]
  owners place hplace := by
    have howner := h.owners place hplace
    rw [h'.owners place (howner ▸ hplace), howner]
  numItems := Nat.le_trans h.numItems h'.numItems

/-- Putting something into a slot where it is vacant takes nothing back. -/
theorem putSlot {slot : Fin capacity} {value : Slot}
    (hclaim : (t.slots.get slot).claim ≠ vacant → value.claim = (t.slots.get slot).claim)
    (hlocal : (t.slots.get slot).localId ≠ vacant → value.localId = (t.slots.get slot).localId) :
    t.Later (t.putSlot slot value) := by
  have hget (other : Fin capacity) : (t.putSlot slot value).slots.get other =
      if slot = other then value else t.slots.get other := Buffer.get_put ..
  refine ⟨fun other hother => ?_, fun other hother => ?_, fun _ _ => rfl, Nat.le_refl _⟩
  · by_cases heq : slot = other
    · subst heq
      rw [hget, if_pos rfl, hclaim hother]
    · rw [hget, if_neg heq]
  · by_cases heq : slot = other
    · subst heq
      rw [hget, if_pos rfl, hlocal hother]
    · rw [hget, if_neg heq]

/-- The exchange takes nothing back, whether it wins or loses. -/
theorem claim (t : Table capacity) (slot : Fin capacity) (id : Id) :
    t.Later (Access.apply (.claim slot id) t).2 := by
  by_cases hvacant : (t.slots.get slot).claim = vacant
  · have happly : (Access.apply (.claim slot id) t).2 =
        t.putSlot slot { t.slots.get slot with claim := id } := by
      simp only [Access.apply, Cell.compareAndSwap, if_pos hvacant]
    rw [happly]
    exact putSlot (fun hne => absurd hvacant hne) fun _ => rfl
  · have happly : (Access.apply (.claim slot id) t).2 = t := by
      simp only [Access.apply, Cell.compareAndSwap_claimed hvacant]
    rw [happly]
    exact refl t

/-- Handing out a local ID takes nothing back while the counter has room. -/
theorem takeNumber (h : t.numItems < vacant.toNat) : t.Later (Access.apply .takeNumber t).2 := by
  refine ⟨fun _ _ => rfl, fun _ _ => rfl, fun _ _ => rfl, ?_⟩
  change t.count.toNat ≤ (t.count + 1).toNat
  rw [Table.numItems, vacant_toNat] at h
  rw [UInt32.toNat_add, UInt32.toNat_one]
  omega

/-- Publishing a local ID in a slot that shows none takes nothing back. -/
theorem writeLocal {slot : Fin capacity} (h : (t.slots.get slot).localId = vacant) (number : Id) :
    t.Later (Access.apply (.writeLocal slot number) t).2 :=
  putSlot (fun _ => rfl) fun hne => absurd h hne

/-- Publishing an owner in a place that shows none takes nothing back. -/
theorem writeOwner {place : Fin capacity} (h : t.owners.get place = vacant) (id : Id) :
    t.Later (Access.apply (.writeOwner place id) t).2 := by
  refine ⟨fun _ _ => rfl, fun _ _ => rfl, fun other hother => ?_, Nat.le_refl _⟩
  have hne : place ≠ other := fun heq => hother (heq ▸ h)
  have hget : (t.putOwner place id).owners.get other =
      if place = other then id else t.owners.get other := Buffer.get_put ..
  exact hget.trans (if_neg hne)

end Later

/-! ## Coherent tables -/

/-- What a table shows fits together. -/
structure Coherent (t : Table capacity) : Prop where
  fits : capacity ≤ vacant.toNat
  numItems_le : t.numItems ≤ capacity
  /-- The slot of an owner shows the local ID that it owns. -/
  slot_of_owner : ∀ place, t.owners.get place ≠ vacant →
    ∃ h : (t.owners.get place).toNat < capacity,
      t.slots.get ⟨(t.owners.get place).toNat, h⟩ = ⟨t.owners.get place, place.val.toUInt32⟩
  /-- A local ID is shown by one slot only. -/
  distinct : ∀ {id other : Id} (h : id.toNat < capacity) (h' : other.toNat < capacity),
    (t.slots.get ⟨id.toNat, h⟩).localId ≠ vacant →
    (t.slots.get ⟨id.toNat, h⟩).localId = (t.slots.get ⟨other.toNat, h'⟩).localId → id = other

namespace Racing

variable {base : Table capacity} {start numbered : List Id}
  {workers others : List (Worker capacity)}

/-- What a table shows at any point of a race fits together. -/
theorem coherent (h : Racing base start numbered t workers) : t.Coherent := by
  have hin (id : Id) (hid : id ∈ numbered) : id.toNat < capacity :=
    h.inRange id (List.mem_append_left _ hid)
  have hlength : numbered.length ≤ capacity := Nat.le_trans (Nat.le_add_right ..) h.length_le
  refine ⟨h.fits, h.numItems_eq ▸ hlength, fun place hplace => ?_,
    fun {id other} hid hother hshown heq => ?_⟩
  · rw [h.contents, owners_get_showing] at hplace ⊢
    obtain ⟨hentry, hpublished⟩ := Stage.of_owner_ne_vacant hplace
    obtain ⟨hlt, hget⟩ := List.getElem?_eq_some_iff.mp hentry
    have hmem := List.mem_of_getElem? hentry
    have hindex := h.nodup_numbered.idxOf_getElem place.val hlt
    rw [hget] at hindex
    refine ⟨hin _ hmem, ?_⟩
    rw [slots_get_showing, Stage.slot, if_pos (.inl hmem), if_pos ⟨hmem, hpublished⟩, hindex]
  · have hvacant : numbered.length ≤ vacant.toNat := Nat.le_trans hlength h.fits
    rw [h.contents, slots_get_showing] at hshown heq
    rw [slots_get_showing] at heq
    have hnumbered := (Stage.slot_localId_ne_vacant_iff hvacant id).mp hshown
    have hnumbered' := (Stage.slot_localId_ne_vacant_iff hvacant other).mp (heq ▸ hshown)
    have hindex := congrArg UInt32.toNat heq
    rw [Stage.toNat_slot_localId hvacant hnumbered.1 hnumbered.2,
      Stage.toNat_slot_localId hvacant hnumbered'.1 hnumbered'.2] at hindex
    exact (List.idxOf_inj hnumbered.1).mp hindex

/-- No step of a worker takes anything back. -/
theorem later {w : Worker capacity} {op : Access capacity}
    {next : op.Answer → Routine capacity Record}
    (h : Racing base start numbered t (w :: others)) (hnext : w.routine = .access op next) :
    t.Later (op.apply t).2 := by
  obtain ⟨answers, phase, rest⟩ := w
  cases phase with
  | idle =>
    obtain ⟨-, hdone⟩ | ⟨id, later, hid, rfl, haccess⟩ := Worker.routine_idle_cases answers rest
    · rw [hdone] at hnext
      cases hnext
    · rw [haccess] at hnext
      cases hnext
      exact .claim t _ id
  | claimed id hid =>
    rw [Worker.routine_claimed answers rest hid] at hnext
    cases hnext
    -- the claim that waits for its number is one more than those that are counted
    have hlength := h.length_le
    have hfits := h.fits
    have hcount := h.numItems_eq
    rw [List.flatMap_cons, Worker.claimed, List.length_append, List.length_singleton] at hlength
    exact .takeNumber (by omega)
  | numbered id hid number =>
    obtain ⟨hnumber, -⟩ := h.publish
    rw [Worker.routine_numbered answers rest hid hnumber] at hnext
    cases hnext
    refine .writeLocal ?_ number
    rw [h.contents, slots_get_showing]
    exact if_neg fun hshown => hshown.2 List.mem_cons_self
  | published id place =>
    rw [Worker.routine_published answers rest place] at hnext
    cases hnext
    have hplace : numbered[place.val]? = some id := h.places _ List.mem_cons_self
    refine .writeOwner ?_ id
    rw [h.contents, owners_get_showing, Stage.owner, hplace]
    exact if_pos (.inr List.mem_cons_self)

end Racing

end Table

end IdCompaction
