import IdCompaction.Proofs.Table.Numbering

/-!
# Batches on a table that numbers a list

Claiming a batch goes well exactly if all of its IDs are below the capacity, and then the new ones
stand at the end of the list, each where it first occurs. A batch that faults on the way still
leaves a table that numbers some list. Clearing goes back to the empty list: it clears every slot
but only the owners that were handed out, which is enough because all others are vacant.
-/

namespace IdCompaction.Table

variable {capacity : Nat} {t : Table capacity} {ids : List Id}

/-- Claims several IDs one after another. -/
def insertList (batch : List Id) : Action Fault (Table capacity) Unit :=
  batch.forM fun id => discard (insert id)

/-- The first ID is inserted, and then the others. -/
theorem insertList_cons (id : Id) (rest : List Id) :
    (insertList (id :: rest) : Action Fault (Table capacity) Unit) =
      discard (insert id) >>= fun _ => insertList rest := rfl

/-- A claim keeps a table numbering some list, whether or not it faults. -/
theorem Numbers.state_insert (h : t.Numbers ids) (id : Id) :
    ∃ ids', (insert id t).state.Numbers ids' := by
  by_cases hid : id.toNat < capacity
  · rw [h.insert_eq hid]
    exact ⟨_, h.append hid⟩
  · rw [insert_of_le t (Nat.le_of_not_lt hid)]
    exact ⟨ids, h⟩

/-- Claiming IDs below the capacity puts the new ones at the end of the list. -/
theorem Numbers.insertList_eq (h : t.Numbers ids) {batch : List Id}
    (hbatch : ∀ id ∈ batch, id.toNat < capacity) :
    insertList batch t = ⟨t.showing (.settled (batch.foldl appendNew ids)), [], .ok ()⟩ := by
  induction batch generalizing t ids with
  | nil =>
    rw [List.foldl_nil, h.contents]
    rfl
  | cons id rest ih =>
    have hid := hbatch id List.mem_cons_self
    have hfirst : discard (insert id) t =
        ⟨t.showing (.settled (appendNew ids id)), [], .ok ()⟩ := by
      rw [Action.discard_apply, h.insert_eq hid]
      rfl
    have hrest := ih (h.append hid) fun other hother =>
      hbatch other (List.mem_cons_of_mem id hother)
    rw [insertList_cons, Action.bind_apply_silent _ hfirst, hrest]
    rfl

/-- The list with the new IDs of a batch is numbered again. -/
theorem Numbers.foldl_append (h : t.Numbers ids) {batch : List Id}
    (hbatch : ∀ id ∈ batch, id.toNat < capacity) :
    (t.showing (.settled (batch.foldl appendNew ids))).Numbers (batch.foldl appendNew ids) := by
  induction batch generalizing t ids with
  | nil =>
    rw [List.foldl_nil, h.contents]
    exact h
  | cons id rest ih =>
    have hrest := ih (h.append (hbatch id List.mem_cons_self)) fun other hother =>
      hbatch other (List.mem_cons_of_mem id hother)
    exact hrest

/-- Claims go well exactly if all IDs are below the capacity. -/
theorem Numbers.result_insertList_eq_ok_iff (h : t.Numbers ids) (batch : List Id) :
    (insertList batch t).result = .ok () ↔ ∀ id ∈ batch, id.toNat < capacity := by
  constructor
  · induction batch generalizing t ids with
    | nil =>
      intro _ id hid
      cases hid
    | cons id rest ih =>
      intro hresult
      rw [insertList_cons, Action.result_seq_eq_ok_iff, Action.discard_apply] at hresult
      obtain ⟨hfirst, hrest⟩ := hresult
      by_cases hid : id.toNat < capacity
      · rw [h.insert_eq hid] at hrest
        exact List.forall_mem_cons.mpr ⟨hid, ih (h.append hid) hrest⟩
      · rw [insert_of_le t (Nat.le_of_not_lt hid)] at hfirst
        cases hfirst
  · intro hbatch
    rw [h.insertList_eq hbatch]

/-! ## Claiming a batch -/

section Claims

variable {size : Nat} {claims : Action Fault (Table capacity) Unit}

/-- Claims that go well are reported, with the counter after them. -/
theorem claimAll_of_ok {last : Table capacity} {events : List Event}
    (h : claims t = ⟨last, events, .ok ()⟩) :
    claimAll size claims t =
      ⟨last, events ++ [.populated size (last.numItems - t.numItems) last.numItems], .ok ()⟩ := by
  rw [claimAll, Action.bind_apply_silent _ (Action.gets_apply numItems t), Action.bind_apply_ok _ h]
  rfl

/-- A fault among the claims is the answer. -/
theorem claimAll_of_error {last : Table capacity} {events : List Event} {fault : Fault}
    (h : claims t = ⟨last, events, .error fault⟩) :
    claimAll size claims t = ⟨last, events, .error fault⟩ := by
  rw [claimAll, Action.bind_apply_silent _ (Action.gets_apply numItems t),
    Action.bind_apply_error _ h]

/-- The claims decide what is left of the table, and whether there is a fault. -/
theorem claimAll_apply (size : Nat) (claims : Action Fault (Table capacity) Unit)
    (t : Table capacity) :
    (claimAll size claims t).state = (claims t).state ∧
      (claimAll size claims t).result = (claims t).result := by
  rw [claimAll, Action.bind_apply_silent _ (Action.gets_apply numItems t)]
  exact Action.bind_of_looking (fun _ => ⟨rfl, rfl⟩) t

end Claims

section Batch

/-- The loop in which a batch makes its claims. -/
def claimLoop (pool : Pool) (batch : List Id) : Action Fault (Table capacity) Unit :=
  pool.forEach batch.length fun i => discard (insert (batch.get i))

variable {pool : Pool} {batch : Array Id}

/-- A batch makes its claims in the loop of a pool. -/
theorem insertAll_eq_claimLoop (pool : Pool) (batch : Array Id) :
    (insertAll pool batch : Action Fault (Table capacity) Unit) =
      claimAll batch.size (claimLoop pool batch.toList) := rfl

/-- A batch leaves the table that its claims leave. -/
theorem state_insertAll : (insertAll pool batch t).state =
    (claimLoop pool batch.toList t).state :=
  (claimAll_apply batch.size (claimLoop pool batch.toList) t).1

/-- A loop of claims goes well exactly if the claims do one after another. -/
theorem result_claimLoop_eq_ok_iff :
    (claimLoop pool batch.toList t).result = .ok () ↔
      (insertList batch.toList t).result = .ok () := by
  rw [claimLoop, Pool.result_forEach_eq_ok_iff]
  exact iff_of_eq (congrArg (fun run => (run t).result = .ok ())
    (Action.forM_finRange_get batch.toList fun id => discard (insert id)))

/-- A batch goes well exactly if its claims do one after another. -/
theorem result_insertAll_eq_ok_iff :
    (insertAll pool batch t).result = .ok () ↔ (insertList batch.toList t).result = .ok () := by
  rw [insertAll_eq_claimLoop, (claimAll_apply _ _ t).2, result_claimLoop_eq_ok_iff]

/-- Claiming a batch of IDs below the capacity puts the new ones at the end of the list. -/
theorem Numbers.insertAll_eq (h : t.Numbers ids) (hbatch : ∀ id ∈ batch, id.toNat < capacity) :
    insertAll pool batch t =
      ⟨t.showing (.settled (batch.toList.foldl appendNew ids)),
        [.populated batch.size ((batch.toList.foldl appendNew ids).length - ids.length)
          (batch.toList.foldl appendNew ids).length], .ok ()⟩ := by
  have hids : ∀ id ∈ batch.toList, id.toNat < capacity :=
    fun id hid => hbatch id (Array.mem_toList_iff.mp hid)
  have hlist := h.insertList_eq hids
  have hloop : claimLoop pool batch.toList t =
      insertList batch.toList t := by
    have hresult := Action.forM_finRange_get batch.toList
      fun id => discard (insert id : Action Fault (Table capacity) Bool)
    rw [claimLoop, Pool.forEach_of_ok]
    · exact congrFun hresult t
    · exact congrArg (fun run => (run t).result) hresult |>.trans (by rw [← insertList, hlist])
  rw [insertAll_eq_claimLoop, claimAll_of_ok (hloop.trans hlist),
    (h.foldl_append hids).numItems_eq, h.numItems_eq]
  rfl

/-- A claim of a batch keeps a table numbering some list, whether or not it faults. -/
theorem Numbers.state_discard_insert (h : ∃ ids, t.Numbers ids) (id : Id) :
    ∃ ids, (discard (insert id) t : Outcome Fault _ Unit).state.Numbers ids := by
  obtain ⟨ids, h⟩ := h
  rw [Action.discard_apply]
  exact h.state_insert id

/-- A batch keeps a table numbering some list, whether or not it faults. -/
theorem Numbers.state_insertAll (h : t.Numbers ids) :
    ∃ ids', (insertAll pool batch t).state.Numbers ids' := by
  rw [Table.state_insertAll]
  exact Pool.state_forEach_induction (P := fun t => ∃ ids, Numbers t ids)
    (fun _ _ h => state_discard_insert h _) pool t ⟨ids, h⟩

end Batch

end IdCompaction.Table

namespace IdCompaction

/-! ## Clearing -/

namespace Buffer

variable {α : Type} {length : Nat}

/-- The buffer with one value in several places. -/
def putAll (b : Buffer α length) (places : List (Fin length)) (value : α) : Buffer α length :=
  places.foldl (fun b place => b.put place value) b

/-- The named places hold the value, and the others what they held. -/
theorem get_putAll (b : Buffer α length) (places : List (Fin length)) (value : α)
    (place : Fin length) :
    (place ∈ places → (b.putAll places value).get place = value) ∧
      (place ∉ places → (b.putAll places value).get place = b.get place) := by
  induction places generalizing b with
  | nil => exact ⟨fun hmem => absurd hmem List.not_mem_nil, fun _ => rfl⟩
  | cons first rest ih =>
    obtain ⟨hmem, hnotMem⟩ := ih (b.put first value)
    rw [putAll, List.foldl_cons, ← putAll]
    by_cases hrest : place ∈ rest
    · exact ⟨fun _ => hmem hrest, fun h => absurd (List.mem_cons_of_mem first hrest) h⟩
    · rw [hnotMem hrest, get_put, List.mem_cons]
      by_cases heq : first = place
      · simp [heq]
      · simp [heq, hrest, Ne.symm heq]

/-- The grant stays where it is. -/
theorem grant_putAll (b : Buffer α length) (places : List (Fin length)) (value : α) :
    (b.putAll places value).context = b.context ∧ (b.putAll places value).address = b.address := by
  induction places generalizing b with
  | nil => exact ⟨rfl, rfl⟩
  | cons first rest ih => exact ih (b.put first value)

end Buffer

namespace Table

variable {capacity : Nat} {t : Table capacity} {ids : List Id}

/-- Putting a value into several slots, one after another, leaves the rest of the table alone. -/
theorem foldl_putSlot (places : List (Fin capacity)) (value : Slot) (t : Table capacity) :
    places.foldl (fun t place => t.putSlot place value) t =
      { t with slots := t.slots.putAll places value } := by
  induction places generalizing t with
  | nil => rfl
  | cons first rest ih => exact ih (t.putSlot first value)

/-- The same with the owners. -/
theorem foldl_putOwner (places : List (Fin capacity)) (value : Id) (t : Table capacity) :
    places.foldl (fun t place => t.putOwner place value) t =
      { t with owners := t.owners.putAll places value } := by
  induction places generalizing t with
  | nil => rfl
  | cons first rest ih => exact ih (t.putOwner first value)

/-- Clearing empties the slots, makes vacant the owners that were handed out, and starts over. -/
theorem clear_eq (pool : Pool) (t : Table capacity) (hused : t.numItems ≤ capacity) :
    clear pool t =
      ⟨{ slots := t.slots.putAll (List.finRange capacity) Slot.empty
         owners := t.owners.putAll ((List.finRange t.numItems).map (Fin.castLE hused)) vacant
         count := 0 }, [.tableCleared capacity], .ok ()⟩ := by
  have hslots : pool.forEach capacity (fun slot : Fin capacity =>
      Action.modify fun t : Table capacity => t.putSlot slot Slot.empty) t =
      ⟨{ t with slots := t.slots.putAll (List.finRange capacity) Slot.empty }, [],
        (.ok () : Except Fault Unit)⟩ := by
    rw [← foldl_putSlot]
    exact pool.forEach_eq_foldl (fun _ _ => rfl) t
  have howners (s : Table capacity) : pool.forEach t.numItems (fun i =>
      if h : i < capacity then Action.modify fun t : Table capacity => t.putOwner ⟨i, h⟩ vacant
      else Action.fail (Fault.indexOutOfBounds capacity i)) s =
      ⟨{ s with owners :=
          s.owners.putAll ((List.finRange t.numItems).map (Fin.castLE hused)) vacant },
        [], .ok ()⟩ := by
    rw [← foldl_putOwner, List.foldl_map]
    refine pool.forEach_eq_foldl (fun i _ => ?_) s
    rw [dif_pos (Nat.lt_of_lt_of_le i.isLt hused)]
    rfl
  rw [clear, Action.bind_apply_silent _ (Action.gets_apply numItems t),
    Action.bind_apply_silent _ hslots, Action.bind_apply_silent _ (howners _)]
  rfl

/-- Emptying every slot, and the owners that were handed out, in whatever order, goes back to the
empty list: the other owners are vacant. -/
theorem Numbers.putAll_eq (h : t.Numbers ids) {slots owners : List (Fin capacity)}
    (hslots : ∀ slot, slot ∈ slots)
    (howners : ∀ place : Fin capacity, place.val < t.numItems → place ∈ owners) :
    ({ slots := t.slots.putAll slots Slot.empty
       owners := t.owners.putAll owners vacant
       count := 0 } : Table capacity) = t.showing (.settled []) := by
  refine (showing_eq_self (.settled []) ?_ ?_ rfl).symm.trans ?_
  · intro slot
    rw [(Buffer.get_putAll ..).1 (hslots slot), Stage.slot_settled_of_notMem List.not_mem_nil]
  · intro place
    rw [Stage.owner_settled]
    by_cases hplace : place ∈ owners
    · rw [(Buffer.get_putAll ..).1 hplace]
      rfl
    · rw [(Buffer.get_putAll ..).2 hplace, h.owners_get, List.getElem?_eq_none]
      · rfl
      · rw [← h.numItems_eq]
        exact Nat.le_of_not_lt fun hlt => hplace (howners place hlt)
  · simp only [showing, Buffer.grant_putAll]

/-- Clearing goes back to the empty list. -/
theorem Numbers.clear_eq (h : t.Numbers ids) (pool : Pool) :
    clear pool t = ⟨t.showing (.settled []), [.tableCleared capacity], .ok ()⟩ := by
  have hused : t.numItems ≤ capacity := h.numItems_eq ▸ h.length_le
  have howners (place : Fin capacity) (hlt : place.val < t.numItems) :
      place ∈ (List.finRange t.numItems).map (Fin.castLE hused) :=
    List.mem_map.mpr ⟨⟨place.val, hlt⟩, List.mem_finRange _, rfl⟩
  rw [Table.clear_eq pool t hused, h.putAll_eq List.mem_finRange howners]

end Table

end IdCompaction
