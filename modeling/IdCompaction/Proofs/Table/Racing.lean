import IdCompaction.Proofs.Table.Numbering
import IdCompaction.Proofs.Table.Thread

/-!
# The invariant of racing threads

However the accesses of several claiming threads are interleaved, the table shows a stage, and the
stage is told by the threads: an ID waits for its local ID, its slot or its owner exactly if some
worker is there in its call. The IDs with local IDs are those that the table numbered at the start
and those that the workers have got local IDs for, each once. Each of the five things that a worker
can do keeps this, whatever the other workers have under way.
-/

namespace IdCompaction.Table

variable {capacity : Nat}

/-- A worker that holds a local ID holds the place of its ID. -/
def Worker.HoldsPlace (numbered : List Id) (w : Worker capacity) : Prop :=
  match w.phase with
  | .numbered id _ number => numbered[number.toNat]? = some id
  | .published id place => numbered[place.val]? = some id
  | _ => True

/-- Places stay as they are when later IDs get local IDs. -/
theorem Worker.HoldsPlace.append {numbered : List Id} {w : Worker capacity}
    (h : w.HoldsPlace numbered) (id : Id) : w.HoldsPlace (numbered ++ [id]) := by
  obtain ⟨answers, phase, rest⟩ := w
  have hkeep {number : Nat} {other : Id} (hnumber : numbered[number]? = some other) :
      (numbered ++ [id])[number]? = some other := by
    rw [List.getElem?_append_left (List.getElem?_eq_some_iff.mp hnumber).1, hnumber]
  cases phase with
  | idle => trivial
  | claimed id inRange => trivial
  | numbered id inRange number => exact hkeep h
  | published id place => exact hkeep h

/-- Workers race on a table over a base, which numbered `start` when they began. -/
structure Racing (base : Table capacity) (start numbered : List Id) (t : Table capacity)
    (workers : List (Worker capacity)) : Prop where
  fits : capacity ≤ vacant.toNat
  nodup : (numbered ++ workers.flatMap Worker.claimed).Nodup
  inRange : ∀ id ∈ numbered ++ workers.flatMap Worker.claimed, id.toNat < capacity
  kept : start <+: numbered
  taken : numbered.Perm (start ++ workers.flatMap Worker.taken)
  places : ∀ w ∈ workers, w.HoldsPlace numbered
  answered : ∀ w ∈ workers, ∀ entry ∈ w.answers,
    entry.1 ∈ numbered ++ workers.flatMap Worker.claimed
  contents : t = base.showing ⟨numbered, workers.flatMap Worker.claimed,
    workers.flatMap Worker.unpublished, workers.flatMap Worker.unowned⟩

namespace Racing

variable {base t : Table capacity} {start numbered : List Id}
  {workers others : List (Worker capacity)} {answers : List (Id × Bool)} {id : Id} {rest : List Id}

/-- The order in which workers are listed does not matter. -/
theorem perm (h : Racing base start numbered t workers) (hperm : workers.Perm others) :
    Racing base start numbered t others where
  fits := h.fits
  nodup := ((hperm.flatMap_right Worker.claimed).append_left numbered).nodup_iff.mp h.nodup
  inRange id hid :=
    h.inRange id (((hperm.flatMap_right Worker.claimed).append_left numbered).mem_iff.mpr hid)
  kept := h.kept
  taken := h.taken.trans ((hperm.flatMap_right Worker.taken).append_left start)
  places w hw := h.places w (hperm.mem_iff.mpr hw)
  answered w hw entry hentry :=
    ((hperm.flatMap_right Worker.claimed).append_left numbered).mem_iff.mp
      (h.answered w (hperm.mem_iff.mpr hw) entry hentry)
  contents := by
    rw [h.contents]
    exact showing_perm base numbered (hperm.flatMap_right _) (hperm.flatMap_right _)
      (hperm.flatMap_right _)

/-- Claimed and numbered IDs together are no more than the capacity. -/
theorem length_le (h : Racing base start numbered t workers) :
    numbered.length + (workers.flatMap Worker.claimed).length ≤ capacity := by
  have hlength := length_le_capacity h.nodup h.inRange
  rwa [List.length_append] at hlength

/-- No ID is numbered twice. -/
theorem nodup_numbered (h : Racing base start numbered t workers) : numbered.Nodup :=
  (List.nodup_append.mp h.nodup).1

/-- A place among the numbered IDs is a local ID. -/
theorem toNat_toUInt32 (h : Racing base start numbered t workers) {number : Nat}
    (hnumber : number ≤ numbered.length) : number.toUInt32.toNat = number := by
  have hlength := h.length_le
  have hfits := h.fits
  rw [vacant_toNat] at hfits
  apply UInt32.toNat_ofNat_of_lt
  simp only [UInt32.size]
  omega

/-- The counter is the number of IDs with local IDs. -/
theorem numItems_eq (h : Racing base start numbered t workers) : t.numItems = numbered.length := by
  rw [numItems, h.contents]
  exact h.toNat_toUInt32 (Nat.le_refl _)

/-- No two workers are at the same ID between its local ID and its owner. -/
theorem nodup_underway (h : Racing base start numbered t workers) :
    (workers.flatMap Worker.unpublished ++ workers.flatMap Worker.unowned).Nodup := by
  have hsplit : (workers.flatMap fun w => wonOf w.answers) ++
      (workers.flatMap Worker.unpublished ++ workers.flatMap Worker.unowned) |>.Perm
        (workers.flatMap Worker.taken) :=
    ((List.flatMap_append_perm workers Worker.unpublished Worker.unowned).append_left _).trans
      (List.flatMap_append_perm workers (fun w => wonOf w.answers) _)
  have htaken : (workers.flatMap Worker.taken).Nodup :=
    (List.nodup_append.mp (h.taken.nodup_iff.mp h.nodup_numbered)).2.1
  exact (List.nodup_append.mp (hsplit.nodup_iff.mpr htaken)).2.1

/-! ## The steps of a worker -/

/-- A call for a claimed ID returns at once. -/
theorem lose (h : Racing base start numbered t (⟨answers, .idle, id :: rest⟩ :: others))
    (hid : id.toNat < capacity) (hclaimed : id ∈ numbered ∨ id ∈ others.flatMap Worker.claimed) :
    Access.apply (.claim ⟨id.toNat, hid⟩ id) t = (false, t) ∧
      Racing base start numbered t (Worker.returned answers id false rest :: others) := by
  have hcontents := h.contents
  constructor
  · rw [hcontents]
    exact apply_claim_lost base _ _ _ _ h.fits hid hclaimed
  · refine ⟨h.fits, h.nodup, h.inRange, h.kept, ?_, ?_, ?_, hcontents⟩
    · have htaken := h.taken
      rw [List.flatMap_cons, Worker.taken] at htaken ⊢
      rwa [Worker.returned, wonOf_append_lost]
    · exact List.forall_mem_cons.mpr ⟨trivial, (List.forall_mem_cons.mp h.places).2⟩
    · obtain ⟨hanswers, hothers⟩ := List.forall_mem_cons.mp h.answered
      refine List.forall_mem_cons.mpr ⟨List.forall_mem_append.mpr ⟨hanswers, ?_⟩, hothers⟩
      exact List.forall_mem_singleton.mpr (List.mem_append.mpr hclaimed)

/-- A call for another ID claims it. -/
theorem win (h : Racing base start numbered t (⟨answers, .idle, id :: rest⟩ :: others))
    (hid : id.toNat < capacity) (hn : id ∉ numbered) (hc : id ∉ others.flatMap Worker.claimed) :
    ∃ t', Access.apply (.claim ⟨id.toNat, hid⟩ id) t = (true, t') ∧
      Racing base start numbered t' (⟨answers, .claimed id hid, rest⟩ :: others) := by
  have hnotMem : id ∉ numbered ++ others.flatMap Worker.claimed := fun hmem =>
    (List.mem_append.mp hmem).elim hn hc
  have hmore {other : Id} (hother : other ∈ numbered ++ others.flatMap Worker.claimed) :
      other ∈ numbered ++ id :: others.flatMap Worker.claimed :=
    List.perm_middle.mem_iff.mpr (List.mem_cons_of_mem _ hother)
  refine ⟨_, ?_, h.fits, ?_, ?_, h.kept, h.taken, ?_, ?_, rfl⟩
  · rw [h.contents]
    exact apply_claim_won base _ _ _ _ h.fits hid hn hc
  · exact List.nodup_middle.mpr (List.nodup_cons.mpr ⟨hnotMem, h.nodup⟩)
  · intro other hother
    obtain rfl | hother := List.mem_cons.mp (List.perm_middle.mem_iff.mp hother)
    · exact hid
    · exact h.inRange other hother
  · exact List.forall_mem_cons.mpr ⟨trivial, (List.forall_mem_cons.mp h.places).2⟩
  · obtain ⟨hanswers, hothers⟩ := List.forall_mem_cons.mp h.answered
    exact List.forall_mem_cons.mpr ⟨fun entry hentry => hmore (hanswers entry hentry),
      fun w hw entry hentry => hmore (hothers w hw entry hentry)⟩

/-- A claimed ID gets the number of IDs numbered so far as its local ID. -/
theorem take {hid : id.toNat < capacity}
    (h : Racing base start numbered t (⟨answers, .claimed id hid, rest⟩ :: others)) :
    ∃ t', Access.apply .takeNumber t = (numbered.length.toUInt32, t') ∧
      Racing base start (numbered ++ [id]) t'
        (⟨answers, .numbered id hid numbered.length.toUInt32, rest⟩ :: others) := by
  have hassoc : numbered ++ [id] ++ others.flatMap Worker.claimed =
      numbered ++ id :: others.flatMap Worker.claimed := List.append_cons .. |>.symm
  have hn : id ∉ numbered := fun hmem =>
    (List.nodup_cons.mp (List.nodup_middle.mp h.nodup)).1 (List.mem_append_left _ hmem)
  refine ⟨_, ?_, h.fits, hassoc ▸ h.nodup, hassoc ▸ h.inRange,
    h.kept.trans (List.prefix_append ..), ?_, ?_, ?_, rfl⟩
  · rw [h.contents]
    exact apply_takeNumber base _ _ _ _ hn
  · have htaken := h.taken
    simp only [List.flatMap_cons, Worker.taken, Worker.unpublished, Worker.unowned,
      List.append_nil, List.append_assoc] at htaken ⊢
    refine (List.perm_append_comm.trans (htaken.cons id)).trans ?_
    rw [← List.append_assoc, ← List.append_assoc]
    exact List.perm_middle.symm
  · obtain ⟨-, hothers⟩ := List.forall_mem_cons.mp h.places
    refine List.forall_mem_cons.mpr ⟨?_, fun w hw => (hothers w hw).append id⟩
    change (numbered ++ [id])[numbered.length.toUInt32.toNat]? = some id
    rw [h.toNat_toUInt32 (Nat.le_refl _)]
    simp
  · obtain ⟨hanswers, hothers⟩ := List.forall_mem_cons.mp h.answered
    exact List.forall_mem_cons.mpr ⟨hassoc ▸ hanswers, hassoc ▸ hothers⟩

/-- A local ID that was handed out is within the table, and its slot comes to show it. -/
theorem publish {hid : id.toNat < capacity} {number : Id}
    (h : Racing base start numbered t (⟨answers, .numbered id hid number, rest⟩ :: others)) :
    ∃ (hnumber : number.toNat < capacity) (t' : Table capacity),
      Access.apply (.writeLocal ⟨id.toNat, hid⟩ number) t = ((), t') ∧
      Racing base start numbered t'
        (⟨answers, .published id ⟨number.toNat, hnumber⟩, rest⟩ :: others) := by
  have hplace : numbered[number.toNat]? = some id := h.places _ List.mem_cons_self
  have hnumber : number.toNat < capacity :=
    Nat.lt_of_lt_of_le (List.getElem?_eq_some_iff.mp hplace).1
      (Nat.le_trans (Nat.le_add_right ..) h.length_le)
  have hu : id ∉ others.flatMap Worker.unpublished := fun hmem =>
    (List.nodup_cons.mp h.nodup_underway).1 (List.mem_append_left _ hmem)
  refine ⟨hnumber, _, ?_, h.fits, h.nodup, h.inRange, h.kept, h.taken, ?_, ?_, rfl⟩
  · rw [h.contents]
    have happly := apply_writeLocal base numbered (others.flatMap Worker.claimed)
      (others.flatMap Worker.unpublished) (others.flatMap Worker.unowned) h.fits hid
      h.nodup_numbered hplace hu
    rwa [Nat.toUInt32, UInt32.ofNat_toNat] at happly
  · exact List.forall_mem_cons.mpr ⟨hplace, (List.forall_mem_cons.mp h.places).2⟩
  · exact List.forall_mem_cons.mpr (List.forall_mem_cons.mp h.answered)

/-- The local ID comes to show its owner, and the call returns. -/
theorem own {place : Fin capacity}
    (h : Racing base start numbered t (⟨answers, .published id place, rest⟩ :: others)) :
    ∃ t', Access.apply (.writeOwner place id) t = ((), t') ∧
      Racing base start numbered t' (Worker.returned answers id true rest :: others) := by
  have hplace : numbered[place.val]? = some id := h.places _ List.mem_cons_self
  have hmem : id ∈ numbered := List.mem_of_getElem? hplace
  have hunderway := List.nodup_cons.mp (List.nodup_middle.mp h.nodup_underway)
  have hu : id ∉ others.flatMap Worker.unpublished := fun hmem =>
    hunderway.1 (List.mem_append_left _ hmem)
  have ho : id ∉ others.flatMap Worker.unowned := fun hmem =>
    hunderway.1 (List.mem_append_right _ hmem)
  refine ⟨_, ?_, h.fits, h.nodup, h.inRange, h.kept, ?_, ?_, ?_, rfl⟩
  · rw [h.contents]
    exact apply_writeOwner base _ _ _ _ h.nodup_numbered place hplace hu ho
  · have htaken := h.taken
    rw [List.flatMap_cons, Worker.taken] at htaken ⊢
    rw [Worker.returned, wonOf_append_won]
    simpa [Worker.unpublished, Worker.unowned] using htaken
  · exact List.forall_mem_cons.mpr ⟨trivial, (List.forall_mem_cons.mp h.places).2⟩
  · obtain ⟨hanswers, hothers⟩ := List.forall_mem_cons.mp h.answered
    refine List.forall_mem_cons.mpr ⟨List.forall_mem_append.mpr ⟨hanswers, ?_⟩, hothers⟩
    exact List.forall_mem_singleton.mpr (List.mem_append_left _ hmem)

/-- Whatever access a worker makes next, it goes on as a worker with the same list. -/
theorem step {w : Worker capacity} {op : Access capacity}
    {next : op.Answer → Routine capacity Record}
    (h : Racing base start numbered t (w :: others)) (hnext : w.routine = .access op next) :
    ∃ numbered' w', next (op.apply t).1 = w'.routine ∧ w'.origin = w.origin ∧
      Racing base start numbered' (op.apply t).2 (w' :: others) := by
  obtain ⟨answers, phase, rest⟩ := w
  cases phase with
  | idle =>
    obtain ⟨-, hdone⟩ | ⟨id, later, hid, rfl, haccess⟩ := Worker.routine_idle_cases answers rest
    · rw [hdone] at hnext
      cases hnext
    rw [haccess] at hnext
    cases hnext
    -- whether the exchange wins is decided by all claims, those under way included
    by_cases hclaimed : id ∈ numbered ∨ id ∈ others.flatMap Worker.claimed
    · obtain ⟨happly, hracing⟩ := h.lose hid hclaimed
      rw [happly]
      exact ⟨_, _, rfl, by simp [Worker.origin, Worker.returned], hracing⟩
    · obtain ⟨hn, hc⟩ := not_or.mp hclaimed
      obtain ⟨t', happly, hracing⟩ := h.win hid hn hc
      rw [happly]
      exact ⟨numbered, ⟨answers, .claimed id hid, later⟩, rfl, rfl, hracing⟩
  | claimed id hid =>
    rw [Worker.routine_claimed answers rest hid] at hnext
    cases hnext
    obtain ⟨t', happly, hracing⟩ := h.take
    rw [happly]
    exact ⟨_, _, rfl, rfl, hracing⟩
  | numbered id hid number =>
    obtain ⟨hnumber, t', happly, hracing⟩ := h.publish
    rw [Worker.routine_numbered answers rest hid hnumber] at hnext
    cases hnext
    rw [happly]
    exact ⟨_, _, rfl, rfl, hracing⟩
  | published id place =>
    rw [Worker.routine_published answers rest place] at hnext
    cases hnext
    obtain ⟨t', happly, hracing⟩ := h.own
    rw [happly]
    exact ⟨_, _, rfl, by simp [Worker.origin, Worker.returned], hracing⟩

end Racing

end IdCompaction.Table
