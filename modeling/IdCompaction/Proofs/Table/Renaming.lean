import IdCompaction.Proofs.Table.Lineage
import Mathlib.Logic.Equiv.Defs

/-!
# Tables that claimed the same IDs

Two tables that claimed the same IDs may have handed out their local IDs in different orders: their
capacities, pools, batches and races need not agree. Then there is one renaming of the local IDs
that takes everything that can be read off the one table to what can be read off the other: what is
found for a global ID, the list of owners, and every relabelled edge list. So an edge list that is
relabelled and then translated back through the list of owners does not tell the tables apart.
-/

namespace IdCompaction

/-- The edge list with every endpoint replaced. -/
def Edges.map (f : Id → Id) (edges : Edges) : Edges := ⟨edges.src.map f, edges.dst.map f⟩

/-- Translating every endpoint through a list of nodes gives an edge list back. -/
structure Edges.Restores (nodes : Array Id) (final edges : Edges) : Prop where
  src : final.src.map (fun number => nodes[number.toNat]?) = edges.src.map some
  dst : final.dst.map (fun number => nodes[number.toNat]?) = edges.dst.map some

namespace Table

/-! ## The renaming between two lists of the same IDs -/

section Lists

variable {first second : List Id}

/-- Takes the place of each ID in one list to its place in another list of the same IDs. -/
def reorder (h : first.Perm second) (hfirst : first.Nodup) : Equiv.Perm (Fin first.length) where
  toFun place := ⟨second.idxOf (first.get place),
    h.length_eq ▸ List.idxOf_lt_length_of_mem (h.mem_iff.mp (first.get_mem place))⟩
  invFun place := ⟨first.idxOf (second.get (place.cast h.length_eq)),
    List.idxOf_lt_length_of_mem (h.mem_iff.mpr (second.get_mem _))⟩
  left_inv place := by
    apply Fin.ext
    simp [hfirst.idxOf_getElem]
  right_inv place := by
    have hsecond : second.Nodup := h.nodup_iff.mp hfirst
    apply Fin.ext
    simp [hsecond.idxOf_getElem]

/-- The other list has at the renamed place what the list has at the place. -/
theorem getElem?_reorder (h : first.Perm second) (hfirst : first.Nodup)
    (place : Fin first.length) :
    second[(reorder h hfirst place).val]? = first[place.val]? := by
  have hmem : first.get place ∈ second := h.mem_iff.mp (first.get_mem place)
  have hentry : first[place.val]? = some (first.get place) := List.getElem?_eq_getElem place.isLt
  rw [hentry]
  exact List.getElem?_idxOf hmem

/-- The local ID that a renaming of the first local IDs gives. -/
def renamed {n : Nat} (s : Equiv.Perm (Fin n)) (number : Id) : Id :=
  if h : number.toNat < n then (s ⟨number.toNat, h⟩).val.toUInt32 else number

/-- Renaming the place of an ID in one list gives its place in the other. -/
theorem renamed_idxOf (h : first.Perm second) (hfirst : first.Nodup)
    (hsize : first.length < UInt32.size) {id : Id} (hmem : id ∈ first) :
    renamed (reorder h hfirst) (first.idxOf id).toUInt32 = (second.idxOf id).toUInt32 := by
  have hlt := List.idxOf_lt_length_of_mem hmem
  have hplace : (first.idxOf id).toUInt32.toNat = first.idxOf id :=
    UInt32.toNat_ofNat_of_lt (Nat.lt_trans hlt hsize)
  have hentry : first.get ⟨first.idxOf id, hlt⟩ = id := List.getElem_idxOf hlt
  rw [renamed, dif_pos (hplace.trans_lt hlt)]
  simp only [reorder, Equiv.coe_fn_mk, hplace, hentry]

end Lists

/-! ## What a table answers, in whatever order its loops go -/

variable {capacity : Nat} {t : Table capacity} {ids : List Id}

/-- Relabelling an edge list writes `final` over an output. -/
structure RelabelsTo (t : Table capacity) (edges output final : Edges) : Prop where
  /-- On every pool. -/
  relabel : ∀ pool, t.relabel pool edges output =
    ⟨final, [.edgesMapped edges.src.size], .ok ()⟩
  /-- With accesses to the table itself, the edges in any order. -/
  live : ∀ order : List (Fin (edges.src.zip edges.dst).size), (∀ i, i ∈ order) →
    relabelLive (edges.src.zip edges.dst) order (t, output) = ⟨(t, final), [], .ok ()⟩

/-- Listing all owners gives `nodes`. -/
structure ListsTo (t : Table capacity) (nodes : Array Id) : Prop where
  /-- On every pool. -/
  globalIds : ∀ pool, t.globalIds pool = .ok nodes
  /-- With accesses to the table itself, the places in any order. -/
  live : ∀ order : List (Fin t.numItems), (∀ place, place ∈ order) →
    copyGlobalsLive (order.map Fin.val) (t, Array.replicate t.numItems vacant) =
      ⟨(t, nodes), [], .ok ()⟩

/-- A listing writes what the positions in its order read. -/
theorem copyGlobalsLive_eq_writeAll {value : Fin t.numItems → Id}
    (hread : ∀ place, (ownerAt place.val).perform t = ⟨t, [], .ok (value place)⟩)
    (order : List (Fin t.numItems)) (output : Array Id) :
    copyGlobalsLive (order.map Fin.val) (t, output) =
      ⟨(t, writeAll output order value), [], .ok ()⟩ := by
  induction order generalizing output with
  | nil => rfl
  | cons place rest ih =>
    have hfirst : copyGlobalLive place.val (t, output) =
        ⟨(t, output.setIfInBounds place.val (value place)), [], .ok ()⟩ := by
      simp only [copyGlobalLive, hread place]
    rw [List.map_cons, copyGlobalsLive, Action.forM_cons, Action.bind_apply_silent _ hfirst]
    exact ih _

/-- Listing all owners gives the list back. -/
theorem Numbers.listsTo (h : t.Numbers ids) : t.ListsTo ids.toArray where
  globalIds := h.globalIds_eq
  live order horder := by
    have hbound (place : Fin t.numItems) : place.val < ids.length := h.numItems_eq ▸ place.isLt
    have hread (place : Fin t.numItems) :
        (ownerAt place.val).perform t = ⟨t, [], .ok (ids.get ⟨place.val, hbound place⟩)⟩ := by
      have hplace : place.val < capacity := Nat.lt_of_lt_of_le (hbound place) h.length_le
      have howner : t.owners.get ⟨place.val, hplace⟩ = ids.get ⟨place.val, hbound place⟩ := by
        rw [h.owners_get, List.getElem?_eq_getElem (hbound place)]
        rfl
      rw [ownerAt, dif_pos hplace, ← howner]
      rfl
    have hentries : Array.ofFn (fun place : Fin t.numItems => ids.get ⟨place.val, hbound place⟩) =
        ids.toArray := by
      apply Array.ext <;> simp [h.numItems_eq]
    rw [copyGlobalsLive_eq_writeAll hread, writeAll_of_forall_mem Array.size_replicate horder,
      hentries]

section Relabelling

variable (h : t.Numbers ids) {edges : Edges}
  (hsrc : ∀ id ∈ edges.src, id ∈ ids) (hdst : ∀ id ∈ edges.dst, id ∈ ids)

include h hsrc hdst

/-- Relabelling writes the relabelled edges. -/
theorem Numbers.relabelsTo {output : Edges} (hlength : edges.dst.size = edges.src.size)
    (hsizesrc : output.src.size = edges.src.size) (hsizedst : output.dst.size = edges.src.size) :
    t.RelabelsTo edges output (relabelled ids edges) where
  relabel pool := h.relabel_eq hsrc hdst pool hlength hsizesrc hsizedst
  live order horder := by
    rw [OnlyReads.relabelLive t _ order output,
      h.forM_relabelEdge_all hsrc hdst hlength hsizesrc hsizedst horder]

/-- Translating relabelled edges through the list gives the edges back. -/
theorem Numbers.restores : Edges.Restores ids.toArray (relabelled ids edges) edges := by
  have hentry (id : Id) (hid : id ∈ ids) :
      ids.toArray[(ids.idxOf id).toUInt32.toNat]? = some id := by
    rw [h.toNat_toUInt32 (Nat.le_of_lt (List.idxOf_lt_length_of_mem hid)),
      List.getElem?_toArray, List.getElem?_idxOf hid]
  constructor
  · rw [relabelled, Array.map_map]
    exact Array.map_congr_left fun id hid => hentry id (hsrc id hid)
  · rw [relabelled, Array.map_map]
    exact Array.map_congr_left fun id hid => hentry id (hdst id hid)

end Relabelling

/-! ## Agreement -/

/-- Two tables that claimed the IDs of a list agree up to a renaming of their `n` local IDs. -/
structure AgreeUpTo {capacity' : Nat} (t : Table capacity) (u : Table capacity')
    (claimed : List Id) (n : Nat) (s : Equiv.Perm (Fin n)) : Prop where
  /-- Both have handed out as many local IDs. -/
  numItems : t.numItems = n ∧ u.numItems = n
  /-- For each claimed ID the second finds the renamed local ID of the first. -/
  localId? : ∀ id ∈ claimed, ∃ number, number.toNat < n ∧
    t.localId? id = .ok (some number) ∧ u.localId? id = .ok (some (renamed s number))
  /-- The owners of the second are those of the first at the renamed places. -/
  globalIds : ∃ nodes nodes' : Array Id, t.ListsTo nodes ∧ u.ListsTo nodes' ∧
    nodes.size = n ∧ nodes'.size = n ∧
    ∀ place : Fin n, nodes'[(s place).val]? = nodes[place.val]?
  /-- The relabelled edges of the second are those of the first with every endpoint renamed, and
  both translate back to the same edges. -/
  relabel : ∀ edges output output' : Edges, edges.dst.size = edges.src.size →
    output.src.size = edges.src.size → output.dst.size = edges.src.size →
    output'.src.size = edges.src.size → output'.dst.size = edges.src.size →
    (∀ id ∈ edges.src, id ∈ claimed) → (∀ id ∈ edges.dst, id ∈ claimed) →
    ∃ final, t.RelabelsTo edges output final ∧
      u.RelabelsTo edges output' (final.map (renamed s)) ∧
      ∀ nodes nodes' : Array Id, t.ListsTo nodes → u.ListsTo nodes' →
        Edges.Restores nodes final edges ∧
        Edges.Restores nodes' (final.map (renamed s)) edges

/-- Tables that number the same IDs in two orders agree up to the renaming between the lists. -/
theorem Numbers.agreeUpTo {capacity' : Nat} {u : Table capacity'} {ids' claimed : List Id}
    (h : t.Numbers ids) (h' : u.Numbers ids') (hperm : ids.Perm ids')
    (hclaimed : ∀ id, id ∈ ids ↔ id ∈ claimed) :
    AgreeUpTo t u claimed ids.length (reorder hperm h.nodup) := by
  have hrenamed {id : Id} (hid : id ∈ ids) := renamed_idxOf hperm h.nodup h.length_lt_size hid
  refine ⟨⟨h.numItems_eq, h'.numItems_eq.trans hperm.length_eq.symm⟩, fun id hid => ?_,
    ⟨ids.toArray, ids'.toArray, h.listsTo, h'.listsTo, rfl, hperm.length_eq.symm, fun place => ?_⟩,
    fun edges output output' hlength hsrcsize hdstsize hsrcsize' hdstsize' hsrc hdst => ?_⟩
  · have hmem : id ∈ ids := (hclaimed id).mpr hid
    have hlt := List.idxOf_lt_length_of_mem hmem
    refine ⟨_, ?_, h.localId?_of_mem hmem, ?_⟩
    · rwa [h.toNat_toUInt32 (Nat.le_of_lt hlt)]
    · rw [hrenamed hmem, h'.localId?_of_mem (hperm.mem_iff.mp hmem)]
  · rw [List.getElem?_toArray, List.getElem?_toArray]
    exact getElem?_reorder hperm h.nodup place
  · have hsrcids (id : Id) (hid : id ∈ edges.src) : id ∈ ids := (hclaimed id).mpr (hsrc id hid)
    have hdstids (id : Id) (hid : id ∈ edges.dst) : id ∈ ids := (hclaimed id).mpr (hdst id hid)
    have hsrcids' (id : Id) (hid : id ∈ edges.src) : id ∈ ids' := hperm.mem_iff.mp (hsrcids id hid)
    have hdstids' (id : Id) (hid : id ∈ edges.dst) : id ∈ ids' := hperm.mem_iff.mp (hdstids id hid)
    have hfinal : (relabelled ids edges).map (renamed (reorder hperm h.nodup)) =
        relabelled ids' edges := by
      simp only [relabelled, Edges.map, Array.map_map, Edges.mk.injEq]
      exact ⟨Array.map_congr_left fun id hid => hrenamed (hsrcids id hid),
        Array.map_congr_left fun id hid => hrenamed (hdstids id hid)⟩
    refine ⟨relabelled ids edges, h.relabelsTo hsrcids hdstids hlength hsrcsize hdstsize, ?_,
      fun nodes nodes' hnodes hnodes' => ?_⟩
    · rw [hfinal]
      exact h'.relabelsTo hsrcids' hdstids' hlength hsrcsize' hdstsize'
    · -- whatever lists the tables give, they are the numbered ones
      obtain rfl : ids.toArray = nodes :=
        Except.ok.inj ((h.globalIds_eq ⟨1, 1⟩).symm.trans (hnodes.globalIds ⟨1, 1⟩))
      obtain rfl : ids'.toArray = nodes' :=
        Except.ok.inj ((h'.globalIds_eq ⟨1, 1⟩).symm.trans (hnodes'.globalIds ⟨1, 1⟩))
      rw [hfinal]
      exact ⟨h.restores hsrcids hdstids, h'.restores hsrcids' hdstids'⟩

/-- Two built tables, whose histories since their last clearings claimed the same IDs, agree up to
one renaming of their local IDs. -/
theorem lineages_agree_up_to_renaming {capacity' : Nat} {σ σ' : Type} {service : MemoryService σ}
    {service' : MemoryService σ'} {context context' : Context} {s : σ} {s' : σ'}
    {first : Table capacity} {first' u : Table capacity'} {claimed claimed' : List Id}
    (built : (allocate service context capacity s).result = .ok first)
    (built' : (allocate service' context' capacity' s').result = .ok first')
    (h : Lineage first t claimed) (h' : Lineage first' u claimed')
    (hsame : ∀ id, id ∈ claimed ↔ id ∈ claimed') :
    ∃ (n : Nat) (s : Equiv.Perm (Fin n)), AgreeUpTo t u claimed n s := by
  obtain ⟨ids, -, hids, hmem⟩ := h.holds (numbers_of_allocate built)
  obtain ⟨ids', -, hids', hmem'⟩ := h'.holds (numbers_of_allocate built')
  have hperm : ids.Perm ids' := (List.perm_ext_iff_of_nodup hids.nodup hids'.nodup).mpr fun id =>
    (hmem id).trans ((hsame id).trans (hmem' id).symm)
  exact ⟨ids.length, _, hids.agreeUpTo hids' hperm hmem⟩

/-- A table of four slots that claimed `3`, `1` and `2` one by one, after a clearing, and one of
eight slots that claimed them as a batch in two runs and a race of two threads. -/
theorem lineages_agree_up_to_renaming_four_eight :
    ∃ (t : Table 4) (u : Table 8) (n : Nat) (s : Equiv.Perm (Fin n)),
      t.globalIds ⟨1, 1⟩ = .ok #[3, 1, 2] ∧ u.globalIds ⟨1, 1⟩ = .ok #[1, 2, 3] ∧
      AgreeUpTo t u ([3] ++ [1] ++ [2]) n s := by
  obtain ⟨first, built, hnodes⟩ : ∃ first : Table 4,
      (allocate (HostMemory.service (Arena.heap 4096)) .cpu 4 (.fresh {})).result = .ok first ∧
      (Table.insert 2 (Table.insert 1 (Table.insert 3 (Table.clear ⟨1, 1⟩
        (Table.insert 0 first).state).state).state).state).state.globalIds ⟨1, 1⟩ =
          .ok #[3, 1, 2] := ⟨_, rfl, by decide +kernel⟩
  obtain ⟨first', built', hfinished, hnodes'⟩ : ∃ first' : Table 8,
      (allocate (HostMemory.service (Arena.heap 4096)) .cpu 8 (.fresh {})).result = .ok first' ∧
      (((race (Table.insertAll ⟨2, 1⟩ #[1, 1, 2] first').state [[2, 3], [3]]).follow
        [0, 1, 0, 1, 1, 1]).members.all IdCompaction.Routine.isFinished) = true ∧
      ((race (Table.insertAll ⟨2, 1⟩ #[1, 1, 2] first').state [[2, 3], [3]]).follow
        [0, 1, 0, 1, 1, 1]).memory.globalIds ⟨1, 1⟩ = .ok #[1, 2, 3] :=
    ⟨_, rfl, by decide +kernel, by decide +kernel⟩
  have h : Lineage first _ ([3] ++ [1] ++ [2]) :=
    (((Lineage.start.insert 0).clear ⟨1, 1⟩).insert 3).insert 1 |>.insert 2
  have h' : Lineage first' _ _ := (Lineage.start.insertAll ⟨2, 1⟩ #[1, 1, 2]).race
    [[2, 3], [3]] [0, 1, 0, 1, 1, 1] (List.all_eq_true.mp hfinished)
  obtain ⟨n, s, hagree⟩ := lineages_agree_up_to_renaming built built' h h' fun id => by
    rw [List.toList_toArray, calledIn_of_inRange _ (by simp)]
    have hsides : (id = 3 ∨ id = 1 ∨ id = 2) ↔ (id = 1 ∨ id = 2 ∨ id = 3) :=
      or_comm.trans or_assoc
    simpa [called] using hsides
  exact ⟨_, _, n, s, hnodes, hnodes', hagree⟩

end Table

end IdCompaction
