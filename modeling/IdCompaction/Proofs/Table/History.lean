import IdCompaction.Proofs.Table.Batch
import IdCompaction.Proofs.Table.Reading

/-!
# Histories of calls

A table that is used by one caller at a time, on pools of one worker, behaves as a list of distinct
IDs: the list starts empty, a claim puts its ID at the end unless it is there, a batch puts its new
IDs at the end in the order in which they first occur, and clearing empties the list. A call fails
exactly if it names an ID past the capacity, so a history goes well exactly if none of its calls
does, and then every answer and everything that can be read afterwards is that of the list.
-/

namespace IdCompaction

/-- Claiming a batch one by one leaves its new IDs at the end, each where it first occurs. -/
theorem foldl_appendNew (ids batch : List Id) :
    batch.foldl appendNew ids = ids ++ (batch.filter (· ∉ ids)).eraseDups := by
  induction batch generalizing ids with
  | nil => simp
  | cons id rest ih =>
    rw [List.foldl_cons, ih]
    by_cases hmem : id ∈ ids
    · simp [appendNew_of_mem hmem, hmem]
    · have hfilter : rest.filter (· ∉ ids ++ [id]) =
          (rest.filter (· ∉ ids)).filter (fun other => !other == id) := by
        rw [List.filter_filter]
        apply List.filter_congr
        intro other _
        simp [Bool.and_comm, beq_eq_decide]
      rw [appendNew_of_notMem hmem, hfilter, List.filter_cons_of_pos (by simpa using hmem),
        List.eraseDups_cons, List.append_assoc]
      rfl

namespace Table

variable {capacity : Nat} {t : Table capacity} {ids : List Id}

/-- A call that changes a table. -/
inductive Call
  /-- Claims one ID. -/
  | insert (id : Id)
  /-- Claims a batch, on a pool of one worker with this least chunk. -/
  | insertAll (minChunk : Nat) (batch : Array Id)
  /-- Forgets every claim. -/
  | clear (pool : Pool)

namespace Call

/-- Makes a call; only a claim of one ID answers anything. -/
def perform : Call → Action Fault (Table capacity) (Option Bool)
  | .insert id => some <$> Table.insert id
  | .insertAll minChunk batch => (fun _ => none) <$> Table.insertAll ⟨1, minChunk⟩ batch
  | .clear pool => (fun _ => none) <$> Table.clear pool

/-- The IDs that a call names are below the capacity. -/
def InRange (capacity : Nat) : Call → Prop
  | .insert id => id.toNat < capacity
  | .insertAll _ batch => ∀ id ∈ batch, id.toNat < capacity
  | .clear _ => True

/-- The list after a call. -/
def after (ids : List Id) : Call → List Id
  | .insert id => if id ∈ ids then ids else ids ++ [id]
  | .insertAll _ batch => ids ++ (batch.toList.filter (· ∉ ids)).eraseDups
  | .clear _ => []

/-- The answer to a call: a claim of one ID says whether the list grew. -/
def answer (ids : List Id) : Call → Option Bool
  | .insert id => some (decide (id ∉ ids))
  | .insertAll _ _ => none
  | .clear _ => none

/-- The answers to several calls in turn. -/
def answers : List Id → List Call → List (Option Bool)
  | _, [] => []
  | ids, call :: rest => call.answer ids :: answers (call.after ids) rest

end Call

/-- A call whose IDs are below the capacity does what it does to the list. -/
theorem Numbers.perform (h : t.Numbers ids) {call : Call} (hcall : call.InRange capacity) :
    (call.perform t).result = .ok (call.answer ids) ∧
      (call.perform t).state.Numbers (call.after ids) := by
  cases call with
  | insert id =>
    rw [Call.perform, Action.map_apply, h.insert_eq hcall]
    exact ⟨rfl, h.append hcall⟩
  | insertAll minChunk batch =>
    rw [Call.perform, Action.map_apply, h.insertAll_eq hcall, Call.after, ← foldl_appendNew]
    exact ⟨rfl, h.foldl_append fun id hid => hcall id (Array.mem_toList_iff.mp hid)⟩
  | clear pool =>
    rw [Call.perform, Action.map_apply, h.clear_eq pool]
    exact ⟨rfl, .of_showing t h.fits List.nodup_nil (by simp)⟩

/-- A call that names an ID past the capacity is a fault. -/
theorem Numbers.result_perform_ne_ok (h : t.Numbers ids) {call : Call}
    (hcall : ¬ call.InRange capacity) (answer : Option Bool) :
    (call.perform t).result ≠ .ok answer := by
  intro hresult
  cases call with
  | insert id =>
    rw [Call.perform, Action.map_apply, insert_of_le t (Nat.le_of_not_lt hcall)] at hresult
    cases hresult
  | insertAll minChunk batch =>
    rw [Call.perform, Action.map_apply] at hresult
    rcases hbatch : (insertAll ⟨1, minChunk⟩ batch t).result with fault | _
    · rw [hbatch] at hresult
      cases hresult
    · rw [result_insertAll_eq_ok_iff, h.result_insertList_eq_ok_iff] at hbatch
      exact hcall fun id hid => hbatch id (Array.mem_toList_iff.mpr hid)
  | clear pool => exact hcall trivial

/-- A history whose IDs are below the capacity goes well and does what it does to the list. -/
theorem Numbers.mapM_perform (h : t.Numbers ids) {calls : List Call}
    (hcalls : ∀ call ∈ calls, call.InRange capacity) :
    (calls.mapM Call.perform t).result = .ok (Call.answers ids calls) ∧
      (calls.mapM Call.perform t).state.Numbers (calls.foldl Call.after ids) := by
  induction calls generalizing t ids with
  | nil => exact ⟨rfl, h⟩
  | cons call rest ih =>
    obtain ⟨hanswer, hafter⟩ := h.perform (hcalls call List.mem_cons_self)
    obtain ⟨hanswers, hlast⟩ := ih hafter fun other hother =>
      hcalls other (List.mem_cons_of_mem call hother)
    rw [List.mapM_cons, (Action.bind_of_ok _ hanswer).1, (Action.bind_of_ok _ hanswer).2,
      (Action.bind_of_ok _ hanswers).1, (Action.bind_of_ok _ hanswers).2]
    exact ⟨rfl, hlast⟩

/-- A history that goes well names IDs below the capacity only. -/
theorem Numbers.inRange_of_mapM_perform (h : t.Numbers ids) {calls : List Call}
    {given : List (Option Bool)} (hgiven : (calls.mapM Call.perform t).result = .ok given) :
    ∀ call ∈ calls, call.InRange capacity := by
  induction calls generalizing t ids given with
  | nil =>
    intro call hcall
    cases hcall
  | cons call rest ih =>
    rw [List.mapM_cons] at hgiven
    obtain ⟨answer, hanswer, hrest⟩ := Action.result_bind_eq_ok_iff.mp hgiven
    obtain ⟨answers, hanswers, -⟩ := Action.result_bind_eq_ok_iff.mp hrest
    have hcall : call.InRange capacity := by
      by_contra hcall
      exact h.result_perform_ne_ok hcall answer hanswer
    exact List.forall_mem_cons.mpr ⟨hcall, ih (h.perform hcall).2 hanswers⟩

/-- A history of calls on a table that was just built goes well exactly if it names IDs below the
capacity only. Then its answers are those of the list of claimed IDs, which has no duplicates, and
everything that can be read afterwards is read off this list. -/
theorem history_refines_list {σ : Type} {service : MemoryService σ} {context : Context} {s : σ}
    (built : (allocate service context capacity s).result = .ok t) (calls : List Call) :
    ((∃ given, (calls.mapM Call.perform t).result = .ok given) ↔
        ∀ call ∈ calls, call.InRange capacity) ∧
      ∀ given, (calls.mapM Call.perform t).result = .ok given →
        given = Call.answers [] calls ∧
          (calls.foldl Call.after []).Nodup ∧
          (∀ id ∈ calls.foldl Call.after [], id.toNat < capacity) ∧
          (calls.mapM Call.perform t).state.Presents (calls.foldl Call.after []) := by
  have hempty := numbers_of_allocate built
  refine ⟨⟨?_, ?_⟩, ?_⟩
  · rintro ⟨given, hgiven⟩
    exact hempty.inRange_of_mapM_perform hgiven
  · intro hcalls
    exact ⟨_, (hempty.mapM_perform hcalls).1⟩
  · intro given hgiven
    obtain ⟨hanswers, hlast⟩ := hempty.mapM_perform (hempty.inRange_of_mapM_perform hgiven)
    have hsame := Except.ok.inj (hgiven.symm.trans hanswers)
    exact ⟨hsame, hlast.nodup, hlast.inRange, hlast.presents⟩

/-- On a table of four slots, claims and batches before and after a clearing leave `[1, 0, 2]`. -/
theorem history_refines_list_four :
    let calls : List Call :=
      [.insert 3, .clear ⟨2, 1⟩, .insertAll 1 #[1, 0, 1], .insert 0, .insertAll 8 #[2, 1]]
    ∃ t, (allocate (HostMemory.service (Arena.heap 4096)) .cpu 4 (.fresh {})).result = .ok t ∧
      (calls.mapM Call.perform t).result = .ok [some true, none, none, some false, none] ∧
      (calls.mapM Call.perform t).state.Presents [1, 0, 2] := by
  intro calls
  have built :
      (allocate (HostMemory.service (Arena.heap 4096)) .cpu 4 (.fresh {})).result = .ok _ := rfl
  obtain ⟨hresult, hstate⟩ := history_refines_list built calls
  obtain ⟨given, hgiven⟩ := hresult.mpr (by simp [calls, Call.InRange])
  obtain ⟨hanswers, -, -, hpresents⟩ := hstate given hgiven
  have hgiven' : (calls.mapM Call.perform _).result = .ok (Call.answers [] calls) :=
    hanswers ▸ hgiven
  exact ⟨_, built, hgiven', hpresents⟩

end Table

end IdCompaction
