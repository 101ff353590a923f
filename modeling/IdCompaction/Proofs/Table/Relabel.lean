import IdCompaction.Proofs.Table.Reachable

/-!
# Relabelling edges

Relabelling an edge list whose endpoints are all claimed is an isomorphism onto the local IDs: every
endpoint becomes the local ID that belongs to it, in both directions, so two endpoints become equal
exactly if they were equal. What the outputs held before does not matter, nor the order in which the
edges are visited, and the table is only read.
-/

namespace IdCompaction

/-- The arrays of an edge list and of an output are of one length. -/
structure Edges.SameLengths (edges output : Edges) : Prop where
  dst : edges.dst.size = edges.src.size
  newSrc : output.src.size = edges.src.size
  newDst : output.dst.size = edges.src.size

namespace Table

variable {capacity : Nat} {t : Table capacity} {ids : List Id}

/-- A global ID and a local ID of a table belong together. -/
structure Matches (t : Table capacity) (id number : Id) : Prop where
  /-- The local ID has been handed out. -/
  bounded : number.toNat < t.numItems
  /-- Its owner is the global ID. -/
  owner : t.globalId? number = .ok (some id)
  /-- It is the local ID that is found for the global ID. -/
  found : t.localId? id = .ok (some number)

/-- What a relabelled edge list is to the edge list. -/
structure Relabels (t : Table capacity) (edges final : Edges) : Prop where
  /-- There are as many sources. -/
  size_src : final.src.size = edges.src.size
  /-- There are as many targets. -/
  size_dst : final.dst.size = edges.dst.size
  /-- Each source belongs together with the source at its place. -/
  src : ∀ (i : Nat) (id number : Id), edges.src[i]? = some id → final.src[i]? = some number →
    t.Matches id number
  /-- Each target belongs together with the target at its place. -/
  dst : ∀ (i : Nat) (id number : Id), edges.dst[i]? = some id → final.dst[i]? = some number →
    t.Matches id number
  /-- Endpoints anywhere in either array are equal exactly if they were equal. -/
  injective : ∀ i j : Nat, (final.src ++ final.dst)[i]? = (final.src ++ final.dst)[j]? ↔
    (edges.src ++ edges.dst)[i]? = (edges.src ++ edges.dst)[j]?

/-! ## Reading endpoints -/

/-- Reading an endpoint leaves the table as it is. -/
theorem perform_endpoint_eq_read (t : Table capacity) (id : Id) :
    (endpoint id).perform t = ⟨t, [], t.read (endpoint id)⟩ := by
  by_cases hid : id.toNat < capacity
  · rw [read, perform_endpoint t hid]
  · simp only [read, endpoint, slotOf, dif_neg hid]
    rfl

/-- The endpoint of an edge reads as its place in the list. -/
theorem Numbers.read_endpoint (h : t.Numbers ids) {id : Id} (hmem : id ∈ ids) :
    t.read (endpoint id) = .ok (ids.idxOf id).toUInt32 := by
  have hid := h.inRange id hmem
  rw [read, perform_endpoint t hid, h.slots_get hid, Stage.slot_settled_of_mem hmem]
  exact if_neg (not_not_intro rfl)

/-- An ID of the list and its place belong together. -/
theorem Numbers.matches_idxOf (h : t.Numbers ids) {id : Id} (hmem : id ∈ ids) :
    t.Matches id (ids.idxOf id).toUInt32 := by
  have hlt := List.idxOf_lt_length_of_mem hmem
  have hplace := h.toNat_toUInt32 (Nat.le_of_lt hlt)
  refine ⟨?_, ?_, h.localId?_of_mem hmem⟩
  · rw [hplace, h.numItems_eq]
    exact hlt
  · rw [h.globalId?_eq, hplace, List.getElem?_idxOf hmem]

/-- IDs of the list with the same place are the same. -/
theorem Numbers.eq_of_place_eq (h : t.Numbers ids) {first second : Id} (hfirst : first ∈ ids)
    (hsecond : second ∈ ids)
    (hequal : (ids.idxOf first).toUInt32 = (ids.idxOf second).toUInt32) : first = second := by
  have howner := (h.matches_idxOf hfirst).owner
  rw [hequal, (h.matches_idxOf hsecond).owner] at howner
  exact (Option.some.inj (Except.ok.inj howner)).symm

/-! ## The loop over the edges -/

/-- Reads both endpoints of an edge of a table that is only read, source first. -/
def relabelEdge (t : Table capacity) (pairs : Array (Id × Id)) (i : Fin pairs.size) :
    Action Fault Edges Unit := do
  let src ← Action.ofExcept (t.read (endpoint pairs[i].1))
  Action.modify fun output => { output with src := output.src.setIfInBounds i src }
  let dst ← Action.ofExcept (t.read (endpoint pairs[i].2))
  Action.modify fun output => { output with dst := output.dst.setIfInBounds i dst }

section Over

variable {σ : Type} {outputOf : σ → Edges} {visits : Action Fault σ Unit} {edges : Edges} {s : σ}

/-- With arrays of one length, the edges are visited. -/
theorem relabelOver_of_sameLengths (h : edges.SameLengths (outputOf s)) :
    relabelOver outputOf edges visits s =
      (visits >>= fun _ => Action.emit (.edgesMapped edges.src.size)) s := by
  rw [relabelOver, Action.bind_apply_silent _ (Action.gets_apply outputOf s),
    if_pos ⟨h.dst, h.newSrc, h.newDst⟩]

/-- Arrays of unequal lengths are refused before an edge is visited. -/
theorem relabelOver_of_not_sameLengths (h : ¬ edges.SameLengths (outputOf s)) :
    relabelOver outputOf edges visits s = ⟨s, [], .error (.edgeLengths edges.src.size
      edges.dst.size (outputOf s).src.size (outputOf s).dst.size)⟩ := by
  rw [relabelOver, Action.bind_apply_silent _ (Action.gets_apply outputOf s),
    if_neg fun hall => h ⟨hall.1, hall.2.1, hall.2.2⟩]
  rfl

end Over

/-- With arrays of one length, relabelling is the loop over the edges. -/
theorem relabel_of_sameLengths {edges output : Edges} (h : edges.SameLengths output) (pool : Pool) :
    t.relabel pool edges output =
      (pool.forEach (edges.src.zip edges.dst).size (relabelEdge t (edges.src.zip edges.dst)) >>=
        fun _ => Action.emit (.edgesMapped edges.src.size)) output :=
  relabelOver_of_sameLengths h

/-- The table of a table with an output. -/
def tablePart : Part (Table capacity × Edges) (Table capacity) where
  get := Prod.fst
  put t s := (t, s.2)

/-- The output of a table with an output. -/
def outputPart : Part (Table capacity × Edges) Edges where
  get := Prod.snd
  put output s := (s.1, output)

/-- Reads both endpoints of an edge with accesses to the table itself, source first. -/
def relabelEdgeLive (pairs : Array (Id × Id)) (i : Fin pairs.size) :
    Action Fault (Table capacity × Edges) Unit := do
  let src ← ((endpoint pairs[i].1).perform).within tablePart
  (Action.modify fun output => { output with src := output.src.setIfInBounds i src }).within
    outputPart
  let dst ← ((endpoint pairs[i].2).perform).within tablePart
  (Action.modify fun output => { output with dst := output.dst.setIfInBounds i dst }).within
    outputPart

/-- Relabels with accesses to the table itself, the edges in any order. -/
def relabelLive (pairs : Array (Id × Id)) (order : List (Fin pairs.size)) :
    Action Fault (Table capacity × Edges) Unit := order.forM (relabelEdgeLive pairs)

/-- An action on a table and an output leaves the table `t` as it is, and does to the output what
the other action does. -/
def OnlyReads {α : Type} (t : Table capacity) (live : Action Fault (Table capacity × Edges) α)
    (action : Action Fault Edges α) : Prop :=
  ∀ output, live (t, output) =
    ⟨(t, (action output).state), (action output).events, (action output).result⟩

namespace OnlyReads

variable {α β : Type} {live : Action Fault (Table capacity × Edges) α}
  {action : Action Fault Edges α} {liveNext : α → Action Fault (Table capacity × Edges) β}
  {next : α → Action Fault Edges β}

/-- A sequence only reads if both its parts do. -/
theorem bind (h : OnlyReads t live action) (hnext : ∀ a, OnlyReads t (liveNext a) (next a)) :
    OnlyReads t (live >>= liveNext) (action >>= next) := by
  intro output
  have hlive := h output
  rcases hresult : (action output).result with fault | a
  · rw [hresult] at hlive
    rw [Action.bind_apply_error _ hlive,
      Action.bind_apply_error next (Action.apply_of_result hresult)]
  · rw [hresult] at hlive
    rw [Action.bind_apply_ok _ hlive, hnext a,
      Action.bind_apply_ok next (Action.apply_of_result hresult)]

/-- A loop only reads if its body does. -/
theorem forM {ι : Type} {liveBody : ι → Action Fault (Table capacity × Edges) Unit}
    {body : ι → Action Fault Edges Unit} (h : ∀ i, OnlyReads t (liveBody i) (body i))
    (order : List ι) : OnlyReads t (order.forM liveBody) (order.forM body) := by
  induction order with
  | nil => exact fun output => rfl
  | cons i rest ih => exact (h i).bind fun _ => ih

/-- Reading an endpoint only reads. -/
theorem endpoint (t : Table capacity) (id : Id) :
    OnlyReads t (((endpoint id).perform).within tablePart)
      (Action.ofExcept (t.read (endpoint id))) := by
  intro output
  simp only [Action.within, tablePart, perform_endpoint_eq_read]
  obtain fault | number := t.read (Table.endpoint id)
  · rfl
  · rfl

/-- Relabelling only reads the table, in whatever order the edges are visited. -/
theorem relabelLive (t : Table capacity) (pairs : Array (Id × Id))
    (order : List (Fin pairs.size)) :
    OnlyReads t (relabelLive pairs order) (order.forM (relabelEdge t pairs)) := by
  have hwrite (f : Edges → Edges) :
      OnlyReads t ((Action.modify f).within outputPart) (Action.modify f) := fun _ => rfl
  refine forM (fun i => ?_) order
  exact (endpoint t _).bind fun _ => (hwrite _).bind fun _ => (endpoint t _).bind fun _ => hwrite _

end OnlyReads

/-! ## The relabelled edges -/

/-- The edge list with every endpoint replaced by its place in the list. -/
def relabelled (ids : List Id) (edges : Edges) : Edges where
  src := edges.src.map fun id => (ids.idxOf id).toUInt32
  dst := edges.dst.map fun id => (ids.idxOf id).toUInt32

/-- Visiting edges of a table that numbers a list writes the places of their endpoints. -/
theorem Numbers.forM_relabelEdge (h : t.Numbers ids) {pairs : Array (Id × Id)}
    (hpairs : ∀ i : Fin pairs.size, pairs[i].1 ∈ ids ∧ pairs[i].2 ∈ ids)
    (order : List (Fin pairs.size)) (output : Edges) :
    order.forM (relabelEdge t pairs) output =
      ⟨⟨writeAll output.src order fun i => (ids.idxOf pairs[i].1).toUInt32,
        writeAll output.dst order fun i => (ids.idxOf pairs[i].2).toUInt32⟩, [], .ok ()⟩ := by
  induction order generalizing output with
  | nil => rfl
  | cons i rest ih =>
    obtain ⟨hsrc, hdst⟩ := hpairs i
    have hfirst : relabelEdge t pairs i output =
        ⟨⟨output.src.setIfInBounds i (ids.idxOf pairs[i].1).toUInt32,
          output.dst.setIfInBounds i (ids.idxOf pairs[i].2).toUInt32⟩, [], .ok ()⟩ := by
      rw [relabelEdge, h.read_endpoint hsrc, h.read_endpoint hdst]
      rfl
    rw [Action.forM_cons, Action.bind_apply_silent _ hfirst, ih]
    rfl

section Relabelling

variable (h : t.Numbers ids) {edges output : Edges}
  (hsrc : ∀ id ∈ edges.src, id ∈ ids) (hdst : ∀ id ∈ edges.dst, id ∈ ids)

include h hsrc hdst

/-- Visiting every edge, in whatever order, writes the relabelled edges. -/
theorem Numbers.forM_relabelEdge_all (hlength : edges.dst.size = edges.src.size)
    (hsizesrc : output.src.size = edges.src.size) (hsizedst : output.dst.size = edges.src.size)
    {order : List (Fin (edges.src.zip edges.dst).size)} (horder : ∀ i, i ∈ order) :
    order.forM (relabelEdge t (edges.src.zip edges.dst)) output =
      ⟨relabelled ids edges, [], .ok ()⟩ := by
  have hsize : (edges.src.zip edges.dst).size = edges.src.size := by
    rw [Array.size_zip, hlength, Nat.min_self]
  have hpairs (i : Fin (edges.src.zip edges.dst).size) :
      (edges.src.zip edges.dst)[i].1 ∈ ids ∧ (edges.src.zip edges.dst)[i].2 ∈ ids := by
    simp only [Fin.getElem_fin, Array.getElem_zip]
    exact ⟨hsrc _ (Array.getElem_mem _), hdst _ (Array.getElem_mem _)⟩
  have hsources : Array.ofFn (fun i : Fin (edges.src.zip edges.dst).size =>
      (ids.idxOf (edges.src.zip edges.dst)[i].1).toUInt32) = (relabelled ids edges).src := by
    apply Array.ext <;> simp [relabelled, hlength]
  have htargets : Array.ofFn (fun i : Fin (edges.src.zip edges.dst).size =>
      (ids.idxOf (edges.src.zip edges.dst)[i].2).toUInt32) = (relabelled ids edges).dst := by
    apply Array.ext <;> simp [relabelled, hlength]
  rw [h.forM_relabelEdge hpairs, writeAll_of_forall_mem (hsizesrc.trans hsize.symm) horder,
    writeAll_of_forall_mem (hsizedst.trans hsize.symm) horder, hsources, htargets]

/-- Relabelling writes the relabelled edges over whatever the output held. -/
theorem Numbers.relabel_eq (pool : Pool) (hlength : edges.dst.size = edges.src.size)
    (hsizesrc : output.src.size = edges.src.size) (hsizedst : output.dst.size = edges.src.size) :
    t.relabel pool edges output =
      ⟨relabelled ids edges, [.edgesMapped edges.src.size], .ok ()⟩ := by
  have hall := h.forM_relabelEdge_all hsrc hdst hlength hsizesrc hsizedst List.mem_finRange
  -- a loop without faults is the plain loop, however the pool cuts it
  have hloop : pool.forEach (edges.src.zip edges.dst).size
      (relabelEdge t (edges.src.zip edges.dst)) output = ⟨relabelled ids edges, [], .ok ()⟩ := by
    rw [pool.forEach_of_ok output (by rw [hall]), hall]
  rw [relabel_of_sameLengths ⟨hlength, hsizesrc, hsizedst⟩]
  exact Action.bind_apply_ok _ hloop

/-- Endpoints are equal exactly if their places are. -/
theorem Numbers.relabels : t.Relabels edges (relabelled ids edges) := by
  have hmatches {array : Array Id} (harray : ∀ id ∈ array, id ∈ ids) (i : Nat) (id number : Id)
      (hid : array[i]? = some id)
      (hnumber : (array.map fun id => (ids.idxOf id).toUInt32)[i]? = some number) :
      t.Matches id number := by
    rw [Array.getElem?_map, hid, Option.map_some, Option.some.injEq] at hnumber
    rw [← hnumber]
    exact h.matches_idxOf (harray id (Array.mem_of_getElem? hid))
  refine ⟨Array.size_map, Array.size_map, hmatches hsrc, hmatches hdst, fun i j => ?_⟩
  have hboth (id : Id) (hid : id ∈ edges.src ++ edges.dst) : id ∈ ids :=
    (Array.mem_append.mp hid).elim (hsrc id) (hdst id)
  have happend : (relabelled ids edges).src ++ (relabelled ids edges).dst =
      (edges.src ++ edges.dst).map fun id => (ids.idxOf id).toUInt32 := Array.map_append.symm
  rw [happend, Array.getElem?_map, Array.getElem?_map]
  constructor
  · intro hequal
    rcases hi : (edges.src ++ edges.dst)[i]? with _ | first
    · rw [hi, Option.map_none] at hequal
      exact (Option.map_eq_none_iff.mp hequal.symm).symm
    · rcases hj : (edges.src ++ edges.dst)[j]? with _ | second
      · rw [hi, hj] at hequal
        cases hequal
      · rw [hi, hj, Option.map_some, Option.map_some, Option.some.injEq] at hequal
        rw [h.eq_of_place_eq (hboth _ (Array.mem_of_getElem? hi))
          (hboth _ (Array.mem_of_getElem? hj)) hequal]
  · intro hequal
    rw [hequal]

end Relabelling

/-- Whatever a table has gone through, relabelling an edge list whose endpoints are all claimed goes
well, and is an isomorphism onto the local IDs. Visiting the edges in another order with accesses to
the table itself gives the same, and leaves the table as it is. -/
theorem relabel_isomorphism (h : Reachable t) (pool : Pool) (edges output : Edges)
    (hlength : edges.dst.size = edges.src.size)
    (hsizesrc : output.src.size = edges.src.size) (hsizedst : output.dst.size = edges.src.size)
    (hsrc : ∀ id ∈ edges.src, t.isClaimed id) (hdst : ∀ id ∈ edges.dst, t.isClaimed id) :
    ∃ final, t.relabel pool edges output = ⟨final, [.edgesMapped edges.src.size], .ok ()⟩ ∧
      t.Relabels edges final ∧
      ∀ order : List (Fin (edges.src.zip edges.dst).size), (∀ i, i ∈ order) →
        relabelLive (edges.src.zip edges.dst) order (t, output) = ⟨(t, final), [], .ok ()⟩ := by
  obtain ⟨ids, hids⟩ := h.numbers
  have hsrc' (id : Id) (hid : id ∈ edges.src) : id ∈ ids := by
    simpa [hids.isClaimed_eq] using hsrc id hid
  have hdst' (id : Id) (hid : id ∈ edges.dst) : id ∈ ids := by
    simpa [hids.isClaimed_eq] using hdst id hid
  refine ⟨relabelled ids edges, hids.relabel_eq hsrc' hdst' pool hlength hsizesrc hsizedst,
    hids.relabels hsrc' hdst', fun order horder => ?_⟩
  rw [OnlyReads.relabelLive t _ order output,
    hids.forM_relabelEdge_all hsrc' hdst' hlength hsizesrc hsizedst horder]

/-- Three edges over two IDs of a table of four slots, which claimed `3` before `1`. -/
theorem relabel_isomorphism_four :
    ∃ t : Table 4, Reachable t ∧ ∃ final,
      t.relabel ⟨2, 1⟩ ⟨#[1, 3, 1], #[3, 3, 1]⟩ ⟨#[7, 7, 7], #[0, 0, 0]⟩ =
        ⟨final, [.edgesMapped 3], .ok ()⟩ ∧
      t.Relabels ⟨#[1, 3, 1], #[3, 3, 1]⟩ final := by
  have built :
      (allocate (HostMemory.service (Arena.heap 4096)) .cpu 4 (.fresh {})).result = .ok _ := rfl
  have hreachable := ((Reachable.built built).insert 3).insert 1
  obtain ⟨final, hresult, hrelabels, -⟩ := relabel_isomorphism hreachable ⟨2, 1⟩
    ⟨#[1, 3, 1], #[3, 3, 1]⟩ ⟨#[7, 7, 7], #[0, 0, 0]⟩ rfl rfl rfl
    (Array.all_eq_true_iff_forall_mem.mp (by decide +kernel))
    (Array.all_eq_true_iff_forall_mem.mp (by decide +kernel))
  exact ⟨_, hreachable, final, hresult, hrelabels⟩

end Table

end IdCompaction
