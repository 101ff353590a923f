import IdCompaction.Proofs.Memory.Holder

/-!
# The balance of a holder

Between operations the grants that were given are those that came back and those of the buffers
that are held, each as often, and the elements that were made are those that were let go and those
in the buffers that are held. Each of the ways for an operation to end keeps both, so both hold
after every run. The counts of the service follow from the ledger, which the service's own steps
keep in balance.
-/

namespace IdCompaction.Holder

open scoped List

variable {σ ν : Type}

/-- What came in went out or is still there, and so after one more exchange. -/
theorem perm_exchange {α : Type} {all gone here more less next : List α}
    (h : all.Perm (gone ++ here)) (hx : (more ++ here).Perm (less ++ next)) :
    (all ++ more).Perm ((gone ++ less) ++ next) :=
  calc (all ++ more).Perm ((gone ++ here) ++ more) := h.append_right more
    _ = gone ++ (here ++ more) := List.append_assoc ..
    _ ~ gone ++ (more ++ here) := List.perm_append_comm.append_left gone
    _ ~ gone ++ (less ++ next) := hx.append_left gone
    _ = (gone ++ less) ++ next := (List.append_assoc ..).symm

/-- Every grant came back or is held, and every element was let go or is held. -/
structure Balanced (holder : Holder σ ν) : Prop where
  grants : holder.ledger.granted.Perm (holder.ledger.returned ++ holder.live.map Holding.grant)
  elements : holder.created.Perm (holder.ledger.dropped ++ holder.live.flatMap Holding.names)

/-- The balance after an operation, from what the operation exchanged. -/
theorem Balanced.after {holder : Holder σ ν} (h : holder.Balanced) {memory : σ}
    {transfers : List Transfer} {dropped made : List ν} {live : List (Holding ν)}
    (hgrants : (transfers.filterMap Transfer.granted? ++ holder.live.map Holding.grant).Perm
      (transfers.filterMap Transfer.returned? ++ live.map Holding.grant))
    (helements : (made ++ holder.live.flatMap Holding.names).Perm
      (dropped ++ live.flatMap Holding.names)) :
    (holder.after memory transfers dropped made live).Balanced where
  grants := by
    have hall := perm_exchange h.grants hgrants
    simpa only [Ledger.granted, Ledger.returned, Holder.after, List.filterMap_append] using hall
  elements := perm_exchange h.elements helements

/-- A buffer with a replaced element has the new name and the rest of the old ones. -/
theorem names_put (holding : Holding ν) (place : Fin holding.length)
    (value : holding.kind.Carrier) :
    (holding.kind.name value :: holding.names).Perm
      (holding.kind.name (holding.buffer.get place) ::
        (holding.put place value).names) := by
  have hlt : place.val < holding.buffer.cells.toList.length := by simp
  have hold : (holding.buffer.get place :: holding.buffer.cells.toList.eraseIdx place).Perm
      holding.buffer.cells.toList := by
    have := List.getElem_cons_eraseIdx_perm hlt
    simpa [Buffer.get] using this
  have hnew := List.set_perm_cons_eraseIdx hlt value
  have hall : (value :: holding.buffer.cells.toList).Perm
      (holding.buffer.get place :: holding.buffer.cells.toList.set place value) :=
    calc (value :: holding.buffer.cells.toList).Perm
          (value :: holding.buffer.get place :: holding.buffer.cells.toList.eraseIdx place) :=
        hold.symm.cons value
      _ ~ holding.buffer.get place :: value :: holding.buffer.cells.toList.eraseIdx place :=
        .swap ..
      _ ~ holding.buffer.get place :: holding.buffer.cells.toList.set place value :=
        hnew.symm.cons _
  have hnames : (holding.put place value).names =
      (holding.buffer.cells.toList.set place value).map holding.kind.name := by
    rw [← Vector.toList_set place.isLt]
    rfl
  rw [hnames]
  exact hall.map holding.kind.name

/-- However an operation ends, it keeps the balance. -/
theorem Balanced.ends {holder next : Holder σ ν} {operation : Operation holder.live}
    (h : holder.Balanced) (hends : holder.Ends operation next) : next.Balanced := by
  cases hends with
  | tooLarge _ => exact h
  | refused s => exact h.after (.refl _) (.refl _)
  | faulted s grant elements fault => exact h.after (.refl _) (.refl _)
  | built holding s =>
    refine h.after ?_ ?_
    · rw [List.map_append]
      exact (List.perm_append_singleton holding.grant (holder.live.map Holding.grant)).symm
    · rw [List.flatMap_append, List.flatMap_singleton]
      exact List.perm_append_comm
  | missed _ => exact h.after (.refl _) (.refl _)
  | @replaced which value place =>
    have hheld := List.getElem_cons_eraseIdx_perm which.isLt
    have hset := List.set_perm_cons_eraseIdx which.isLt ((holder.live.get which).put place value)
    refine h.after ?_ ?_
    · -- the buffer stays in its grant
      exact (hheld.map Holding.grant).symm.trans (hset.map Holding.grant).symm
    · -- only the names of this one buffer change
      have hnames := (names_put (holder.live.get which) place value).append_right
        ((holder.live.eraseIdx which).flatMap Holding.names)
      exact ((hheld.flatMap_right Holding.names).symm.cons _).trans
        (hnames.trans ((hset.flatMap_right Holding.names).symm.cons _))
  | @dropped which s =>
    have hheld := List.getElem_cons_eraseIdx_perm which.isLt
    exact h.after (hheld.map Holding.grant).symm (hheld.flatMap_right Holding.names).symm

section Counts

variable {service : MemoryService σ} {tally : σ → Tally}

/-- Letting go of elements changes no count. -/
theorem counted_releaseAll {ledger : Ledger σ ν} (h : ledger.Counted tally) (kind : Kind ν)
    (elements : List kind.Carrier) :
    (kind.element.releaseAll elements ledger).Counted tally := by
  rw [Kind.releaseAll_element]
  exact h.congr rfl _

/-- Building keeps the counts, however it ends. -/
theorem counted_build (counts : service.Counts tally) {ledger : Ledger σ ν}
    (h : ledger.Counted tally) (kind : Kind ν) (context : Context) (length : Nat)
    (init : Nat → Except Fault kind.Carrier) :
    (Buffer.build service.recorded kind.element context length init ledger).state.Counted
      tally := by
  rcases hlayout : (kind.element : Element (Ledger σ ν) _).layout.array length with _ | layout
  · simp only [Buffer.build, hlayout]
    exact h
  have hasked : ((service.recorded.allocate context layout).mapError Failure.refused
      ledger).state.Counted tally := by
    rw [Action.state_mapError]
    exact h.allocate counts context layout
  rcases hfill : Buffer.fill init length #[] with ⟨built, _ | fault⟩
  · rw [Buffer.build_of_fill hlayout hfill (Buffer.size_of_fill hfill)]
    exact Action.state_bind_induction (P := Ledger.Counted tally) hasked fun _ _ h => h
  · rw [Buffer.build_of_fault hlayout hfill]
    refine Action.state_bind_induction (P := Ledger.Counted tally) hasked
      fun address ledger' h' => ?_
    refine Action.state_bind_induction (P := Ledger.Counted tally)
      (counted_releaseAll h' kind _) fun _ ledger'' h'' => ?_
    refine Action.state_bind_induction (P := Ledger.Counted tally) ?_ fun _ _ h => h
    rw [Action.safely, Action.state_mapError]
    exact h''.deallocate counts context address layout

/-- Dropping a buffer keeps the counts. -/
theorem counted_free (counts : service.Counts tally) {ledger : Ledger σ ν}
    (h : ledger.Counted tally) (kind : Kind ν) {length : Nat}
    (buffer : Buffer kind.Carrier length) :
    (buffer.free service.recorded kind.element ledger).state.Counted tally := by
  unfold Buffer.free
  refine Action.state_bind_induction (P := Ledger.Counted tally) (counted_releaseAll h kind _)
    fun _ ledger' h' => ?_
  rcases (kind.element : Element (Ledger σ ν) _).layout.array length with _ | layout
  · exact h'
  · exact h'.deallocate counts buffer.context buffer.address layout

/-- Every operation keeps the counts. -/
theorem counted_perform (counts : service.Counts tally) {holder : Holder σ ν}
    (h : holder.ledger.Counted tally) (operation : Operation holder.live) :
    (holder.perform service operation).ledger.Counted tally := by
  cases operation with
  | build kind context length init =>
    have hbuild := counted_build counts h kind context length init
    simp only [perform]
    split <;> next heq => rwa [heq] at hbuild
  | assign which index value =>
    have hends : holder.Ends (.assign which index value)
      (holder.perform service (.assign which index value)) := ends_assign
    generalize holder.perform service (.assign which index value) = next at hends
    cases hends <;> simp only [after, List.append_nil] <;> exact h.congr rfl _
  | drop which => exact counted_free counts h _ _

end Counts

variable {service : MemoryService σ} {s : σ} {holder : Holder σ ν}

/-- Every run keeps the balance. -/
theorem Run.balanced (run : Run service s holder) : holder.Balanced := by
  induction run with
  | start => exact ⟨.refl _, .refl _⟩
  | step _ operation ih => exact ih.ends (ends_perform operation)

/-- Every run that starts with nothing counted keeps the counts. -/
theorem Run.counted {tally : σ → Tally} (counts : service.Counts tally)
    (fresh : tally s = {}) (run : Run service s holder) : holder.ledger.Counted tally := by
  induction run with
  | start => exact .fresh fresh
  | step _ operation ih => exact counted_perform counts ih operation

/-- The bytes of the live buffers are those of their grants. -/
theorem bytes_grants (holder : Holder σ ν) :
    Grant.bytes (holder.live.map Holding.grant) = holder.bytes := by
  rw [Grant.bytes, List.map_map]
  rfl

/-- The live buffers of some size are the grants of some size. -/
theorem occupied_grants (holder : Holder σ ν) :
    Grant.occupied (holder.live.map Holding.grant) = holder.occupied := by
  rw [Grant.occupied, List.countP_map]
  rfl

/-- After every run on a service that counts what is out, and with nothing out before, the counts
are those of the buffers that are held, every grant came back or is that of a buffer that is held,
every element was let go or is in a buffer that is held, and the next operation ends in one of the
ways to end. A host memory is such a service over every heap, and behind every guard. -/
theorem accounts_balance {tally : σ → Tally} (counts : service.Counts tally)
    (fresh : tally s = {}) (run : Run service s holder) :
    (holder.bytes < Size.limit →
        (tally holder.ledger.memory).liveBytes.toNat = holder.bytes ∧
          (tally holder.ledger.memory).liveAllocations.toNat = holder.occupied) ∧
      holder.ledger.granted.Perm (holder.ledger.returned ++ holder.live.map Holding.grant) ∧
      holder.created.Perm (holder.ledger.dropped ++ holder.live.flatMap Holding.names) ∧
      ∀ operation, holder.Ends operation (holder.perform service operation) := by
  obtain ⟨grants, elements⟩ := run.balanced
  refine ⟨fun hfits => ?_, grants, elements, ends_perform⟩
  rw [← bytes_grants, ← occupied_grants]
  rw [← bytes_grants] at hfits
  exact (run.counted counts fresh).of_perm grants hfits

/-- Three requests are let through: one for three words, one whose third element cannot be made, and
one for two elements without bytes. An element of the first buffer is replaced. A fourth request is
for sixteen gibibytes, and a fifth is refused. Then the buffer without bytes is dropped. -/
theorem accounts_balance_under_quota :
    ∃ (heap : Heap Arena) (holder : Holder (Guarded Quota Arena) Nat),
      Run (Quota.service heap) ⟨{ maxCalls := some 4 }, .fresh {}⟩ holder ∧
        (holder.ledger.granted.length = 4 ∧ holder.ledger.returned.length = 2 ∧
          holder.ledger.dropped = [10, 11, 1, 7, 7] ∧ holder.bytes = 17179869196) ∧
        holder.ledger.memory.memory.tally.liveBytes.toNat = holder.bytes ∧
        holder.ledger.memory.memory.tally.liveAllocations.toNat = holder.occupied := by
  let heap : Heap Arena := Arena.heap 1099511627776
  let word : Kind Nat := ⟨Nat, ⟨4, 4⟩, id⟩
  let mark : Kind Nat := ⟨Unit, ⟨0, 1⟩, fun _ => 7⟩
  let half : Kind Nat := ⟨Unit, ⟨8589934592, 8⟩, fun _ => 9⟩
  have built : @Run _ Nat (Quota.service heap) ⟨{ maxCalls := some 4 }, .fresh {}⟩ _ :=
    ((Run.start.step (.build word .cpu 3 fun i => .ok i)).step
      (.build word .cpu 5 fun i => if i < 2 then .ok (i + 10) else .error .zeroStride)).step
      (.build mark (.gpu 0) 2 fun _ => .ok ())
  have run := (((built.step (.assign ⟨0, by decide +kernel⟩ 1 (20 : Nat))).step
    (.build half .cpu 2 fun _ => .ok ())).step (.build word .cpu 1 fun i => .ok i)).step
    (.drop ⟨1, by decide +kernel⟩)
  have fresh : (HostMemory.fresh ({} : Arena)).tally = {} := rfl
  refine ⟨heap, _, run, by decide +kernel, ?_⟩
  exact (accounts_balance (Guarded.counts heap Quota.judge) fresh run).1 (by decide +kernel)

end IdCompaction.Holder
