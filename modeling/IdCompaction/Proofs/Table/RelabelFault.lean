import IdCompaction.Proofs.Table.Relabel

/-!
# Relabelling that faults

Whether an endpoint faults is up to the table alone: it does if it is past the capacity or was never
claimed. So relabelling faults exactly if some endpoint does, in whatever order the edges are
visited. In a single run it ends at the first of them, source before target and edge after edge, and
what it leaves is the relabelled edges before this one and the old entries from there on.
-/

namespace IdCompaction

namespace Table

variable {capacity : Nat} {t : Table capacity} {ids : List Id} {edges output : Edges}

/-! ## Endpoints that fault -/

/-- The fault of an endpoint, unless it is claimed. -/
def endpointFault (t : Table capacity) (id : Id) : Option Fault :=
  if capacity ≤ id.toNat then some (.idOutOfRange id capacity)
  else if t.isClaimed id then none
  else some (.neverPopulated id)

/-- The fault of an edge; its source is read first. -/
def edgeFault (t : Table capacity) (edge : Id × Id) : Option Fault :=
  (t.endpointFault edge.1).or (t.endpointFault edge.2)

/-- An endpoint is without a fault exactly if it is in range and claimed. -/
theorem endpointFault_eq_none_iff {id : Id} :
    t.endpointFault id = none ↔ ¬ (capacity ≤ id.toNat ∨ t.isClaimed id = false) := by
  unfold endpointFault
  split
  · simp [*]
  · cases t.isClaimed id <;> simp [*]

/-- An edge is without a fault exactly if both its endpoints are. -/
theorem edgeFault_eq_none_iff {edge : Id × Id} :
    t.edgeFault edge = none ↔ t.endpointFault edge.1 = none ∧ t.endpointFault edge.2 = none :=
  Option.or_eq_none_iff

/-- An endpoint that does not fault is in the list. -/
theorem Numbers.mem_of_endpointFault (h : t.Numbers ids) {id : Id}
    (hid : t.endpointFault id = none) : id ∈ ids := by
  have hclaimed := mt Or.inr (endpointFault_eq_none_iff.mp hid)
  simpa [h.isClaimed_eq] using hclaimed

/-- The vacant mark is past every capacity that a table can have. -/
theorem Numbers.endpointFault_vacant (h : t.Numbers ids) :
    t.endpointFault vacant = some (.idOutOfRange vacant capacity) :=
  if_pos h.fits

/-- Reading an endpoint that faults ends with its fault. -/
theorem read_endpoint_of_fault {id : Id} {fault : Fault}
    (hfault : t.endpointFault id = some fault) : t.read (endpoint id) = .error fault := by
  unfold endpointFault at hfault
  by_cases hid : id.toNat < capacity
  · rw [if_neg (Nat.not_le.mpr hid)] at hfault
    split at hfault
    · cases hfault
    · next hclaimed =>
      cases hfault
      have hne : (t.slots.get ⟨id.toNat, hid⟩).claim ≠ id := by
        simpa [isClaimed, hid] using hclaimed
      rw [read, perform_endpoint t hid]
      exact if_pos hne
  · rw [if_pos (Nat.not_lt.mp hid)] at hfault
    cases hfault
    simp only [read, endpoint, slotOf, dif_neg hid]
    rfl

/-- Reading an endpoint that does not fault gives its local ID. -/
theorem Numbers.exists_read_endpoint (h : t.Numbers ids) {id : Id}
    (hid : t.endpointFault id = none) :
    ∃ number, t.read (endpoint id) = .ok number ∧ t.Matches id number :=
  have hmem := h.mem_of_endpointFault hid
  ⟨_, h.read_endpoint hmem, h.matches_idxOf hmem⟩

/-! ## Edges that fault -/

/-- The fault of the edge at a place, if there is one. -/
def faultAt (t : Table capacity) (pairs : Array (Id × Id)) (place : Nat) : Option Fault :=
  pairs[place]?.bind t.edgeFault

section Edge

variable {pairs : Array (Id × Id)} {i : Fin pairs.size} {edge : Id × Id} {fault : Fault}

/-- The fault at a place is the one of the edge there. -/
theorem faultAt_of_getElem? {place : Nat} (hedge : pairs[place]? = some edge) :
    t.faultAt pairs place = t.edgeFault edge := by
  rw [faultAt, hedge, Option.bind_some]

/-- There is a fault at a place exactly if there is an edge with one. -/
theorem faultAt_ne_none_iff {place : Nat} :
    t.faultAt pairs place ≠ none ↔ ∃ edge, pairs[place]? = some edge ∧ t.edgeFault edge ≠ none := by
  rw [faultAt]
  cases pairs[place]? <;> simp

/-- The edge at a place is read from there. -/
theorem relabelEdge_eq (hedge : pairs[i.val]? = some edge) :
    relabelEdge t pairs i = (do
      let src ← Action.ofExcept (t.read (endpoint edge.1))
      Action.modify fun output => { output with src := output.src.setIfInBounds i src }
      let dst ← Action.ofExcept (t.read (endpoint edge.2))
      Action.modify fun output => { output with dst := output.dst.setIfInBounds i dst }) := by
  obtain ⟨_, rfl⟩ := Array.getElem?_eq_some_iff.mp hedge
  rfl

/-- An edge that does not fault writes a local ID over each of its two places. -/
theorem Numbers.exists_relabelEdge (h : t.Numbers ids) (hedge : pairs[i.val]? = some edge)
    (hnone : t.edgeFault edge = none) :
    ∃ src dst, t.Matches edge.1 src ∧ t.Matches edge.2 dst ∧
      ∀ output, relabelEdge t pairs i output =
        ⟨⟨output.src.setIfInBounds i src, output.dst.setIfInBounds i dst⟩, [], .ok ()⟩ := by
  obtain ⟨hfirst, hsecond⟩ := edgeFault_eq_none_iff.mp hnone
  obtain ⟨src, hsrc, hsrc_matches⟩ := h.exists_read_endpoint hfirst
  obtain ⟨dst, hdst, hdst_matches⟩ := h.exists_read_endpoint hsecond
  refine ⟨src, dst, hsrc_matches, hdst_matches, fun output => ?_⟩
  rw [relabelEdge_eq hedge, hsrc, hdst]
  rfl

/-- An edge whose source faults writes nothing. -/
theorem relabelEdge_of_source_fault (hedge : pairs[i.val]? = some edge)
    (hfault : t.endpointFault edge.1 = some fault) (output : Edges) :
    relabelEdge t pairs i output = ⟨output, [], .error fault⟩ := by
  rw [relabelEdge_eq hedge, read_endpoint_of_fault hfault]
  rfl

/-- An edge whose target faults writes its source only. -/
theorem Numbers.exists_relabelEdge_of_target_fault (h : t.Numbers ids)
    (hedge : pairs[i.val]? = some edge) (hsrc : t.endpointFault edge.1 = none)
    (hfault : t.endpointFault edge.2 = some fault) :
    ∃ src, t.Matches edge.1 src ∧ ∀ output, relabelEdge t pairs i output =
      ⟨⟨output.src.setIfInBounds i src, output.dst⟩, [], .error fault⟩ := by
  obtain ⟨src, hread, hmatches⟩ := h.exists_read_endpoint hsrc
  refine ⟨src, hmatches, fun output => ?_⟩
  rw [relabelEdge_eq hedge, hread, read_endpoint_of_fault hfault]
  rfl

/-- How an edge ends is up to the table alone. -/
theorem Numbers.result_relabelEdge (h : t.Numbers ids) (i : Fin pairs.size) (output : Edges) :
    (relabelEdge t pairs i output).result = (t.faultAt pairs i).elim (.ok ()) .error := by
  obtain ⟨edge, hedge⟩ : ∃ edge, pairs[i.val]? = some edge :=
    ⟨_, Array.getElem?_eq_getElem i.isLt⟩
  rw [faultAt_of_getElem? hedge]
  rcases hsrc : t.endpointFault edge.1 with _ | fault
  · rcases hdst : t.endpointFault edge.2 with _ | fault
    · have hnone := edgeFault_eq_none_iff.mpr ⟨hsrc, hdst⟩
      obtain ⟨src, dst, -, -, hok⟩ := h.exists_relabelEdge hedge hnone
      rw [hok, hnone]
      rfl
    · obtain ⟨src, -, hstop⟩ := h.exists_relabelEdge_of_target_fault hedge hsrc hdst
      rw [hstop, edgeFault, hsrc, hdst]
      rfl
  · rw [relabelEdge_of_source_fault hedge hsrc, edgeFault, hsrc]
    rfl

/-- A loop over edges, in whatever order, ends with the first of their faults. -/
theorem Numbers.result_forM_relabelEdge (h : t.Numbers ids) (order : List (Fin pairs.size))
    (output : Edges) :
    (order.forM (relabelEdge t pairs) output).result =
      (order.findSome? fun i => t.faultAt pairs i.val).elim (.ok ()) .error := by
  induction order generalizing output with
  | nil => rfl
  | cons i rest ih =>
    have hfirst := h.result_relabelEdge i output
    rw [List.findSome?_cons]
    rcases hfault : t.faultAt pairs i with _ | fault
    · rw [hfault] at hfirst
      rw [Action.forM_cons, (Action.bind_of_ok _ hfirst).1, ih]
    · rw [hfault] at hfirst
      rw [Action.forM_cons, Action.bind_apply_error _ (Action.apply_of_result hfirst)]
      rfl

end Edge

/-! ## When relabelling faults -/

/-- Some endpoint of an edge list is past the capacity or unclaimed. -/
def HasBadEndpoint (t : Table capacity) (edges : Edges) : Prop :=
  ∃ id, (id ∈ edges.src ∨ id ∈ edges.dst) ∧ (capacity ≤ id.toNat ∨ t.isClaimed id = false)

/-- An edge has a fault exactly if one of its endpoints is past the capacity or not claimed. -/
theorem edgeFault_ne_none_iff {edge : Id × Id} :
    t.edgeFault edge ≠ none ↔ (capacity ≤ edge.1.toNat ∨ t.isClaimed edge.1 = false) ∨
      (capacity ≤ edge.2.toNat ∨ t.isClaimed edge.2 = false) := by
  rw [ne_eq, edgeFault_eq_none_iff, endpointFault_eq_none_iff, endpointFault_eq_none_iff]
  tauto

/-- Some edge faults exactly if some endpoint is bad. -/
theorem exists_faultAt_iff (hlength : edges.dst.size = edges.src.size) :
    (∃ place, t.faultAt (edges.src.zip edges.dst) place ≠ none) ↔ t.HasBadEndpoint edges := by
  constructor
  · rintro ⟨place, hplace⟩
    obtain ⟨edge, hedge, hbad⟩ := faultAt_ne_none_iff.mp hplace
    obtain ⟨hsrc, hdst⟩ := Array.getElem?_zip_eq_some.mp hedge
    obtain hbad | hbad := edgeFault_ne_none_iff.mp hbad
    · exact ⟨edge.1, .inl (Array.mem_of_getElem? hsrc), hbad⟩
    · exact ⟨edge.2, .inr (Array.mem_of_getElem? hdst), hbad⟩
  · have hplace {place : Nat} {src dst : Id} (hsrc : edges.src[place]? = some src)
        (hdst : edges.dst[place]? = some dst) (hbad : t.edgeFault (src, dst) ≠ none) :
        ∃ place, t.faultAt (edges.src.zip edges.dst) place ≠ none :=
      ⟨place, faultAt_ne_none_iff.mpr ⟨_, Array.getElem?_zip_eq_some.mpr ⟨hsrc, hdst⟩, hbad⟩⟩
    rintro ⟨id, hmem | hmem, hbad⟩
    · obtain ⟨place, hlt, hget⟩ := Array.getElem_of_mem hmem
      exact hplace (Array.getElem?_eq_some_iff.mpr ⟨hlt, hget⟩)
        (Array.getElem?_eq_getElem (hlength ▸ hlt)) (edgeFault_ne_none_iff.mpr (.inl hbad))
    · obtain ⟨place, hlt, hget⟩ := Array.getElem_of_mem hmem
      exact hplace (Array.getElem?_eq_getElem (hlength ▸ hlt))
        (Array.getElem?_eq_some_iff.mpr ⟨hlt, hget⟩) (edgeFault_ne_none_iff.mpr (.inr hbad))

/-- Arrays of unequal lengths are refused before anything is written. -/
theorem relabel_of_not_sameLengths (h : ¬ edges.SameLengths output) (pool : Pool) :
    t.relabel pool edges output = ⟨output, [],
      .error (.edgeLengths edges.src.size edges.dst.size output.src.size output.dst.size)⟩ :=
  relabelOver_of_not_sameLengths h

/-- On every pool, relabelling faults exactly if the lengths differ or some endpoint is bad. -/
theorem Numbers.exists_fault_relabel_iff (h : t.Numbers ids) (pool : Pool) (edges output : Edges) :
    (∃ fault, (t.relabel pool edges output).result = .error fault) ↔
      ¬ edges.SameLengths output ∨ t.HasBadEndpoint edges := by
  by_cases hlengths : edges.SameLengths output
  · have hok : (t.relabel pool edges output).result = .ok () ↔
        ∀ place, t.faultAt (edges.src.zip edges.dst) place = none := by
      have hloop := (Action.bind_of_looking
        (x := pool.forEach _ (relabelEdge t (edges.src.zip edges.dst)))
        (f := fun _ => Action.emit (.edgesMapped edges.src.size)) (fun _ => ⟨rfl, rfl⟩) output).2
      rw [relabel_of_sameLengths hlengths, hloop, Pool.result_forEach_eq_ok_iff,
        h.result_forM_relabelEdge, elim_ok_error_eq_ok_iff, List.findSome?_eq_none_iff]
      refine ⟨fun hall place => ?_, fun hall i _ => hall i.val⟩
      by_cases hplace : place < (edges.src.zip edges.dst).size
      · exact hall ⟨place, hplace⟩ (List.mem_finRange _)
      · rw [faultAt, Array.getElem?_eq_none (Nat.le_of_not_lt hplace), Option.bind_none]
    rw [exists_eq_error_iff, ne_eq, hok, ← exists_faultAt_iff hlengths.dst]
    simp [hlengths]
  · rw [relabel_of_not_sameLengths hlengths]
    simp [hlengths]

/-! ## What a single run leaves -/

/-- Of an array, the places below a count hold the local IDs of the entries there, and the others
are as they were. -/
structure RelabelsUpTo (t : Table capacity) (globals old new : Array Id) (count : Nat) : Prop where
  size_eq : new.size = old.size
  below : ∀ i < count, ∀ id number, globals[i]? = some id → new[i]? = some number →
    t.Matches id number
  above : ∀ i, count ≤ i → new[i]? = old[i]?

namespace RelabelsUpTo

variable {globals old new : Array Id} {count : Nat}

/-- Up to the first edge nothing is relabeled. -/
theorem zero (t : Table capacity) (globals old : Array Id) : t.RelabelsUpTo globals old old 0 :=
  ⟨rfl, fun i hi => absurd hi (Nat.not_lt_zero i), fun _ _ => rfl⟩

/-- Writing the next local ID goes one place further. -/
theorem succ (h : t.RelabelsUpTo globals old new count) {id number : Id}
    (hid : globals[count]? = some id) (hmatches : t.Matches id number) :
    t.RelabelsUpTo globals old (new.setIfInBounds count number) (count + 1) where
  size_eq := Array.size_setIfInBounds.trans h.size_eq
  below i hi id' number' hid' hnumber' := by
    rw [Array.getElem?_setIfInBounds] at hnumber'
    by_cases heq : count = i
    · subst heq
      rw [if_pos rfl] at hnumber'
      split at hnumber'
      · cases hnumber'
        cases hid.symm.trans hid'
        exact hmatches
      · cases hnumber'
    · rw [if_neg heq] at hnumber'
      exact h.below i (by omega) id' number' hid' hnumber'
  above i hi := by
    rw [Array.getElem?_setIfInBounds_ne (by omega)]
    exact h.above i (by omega)

end RelabelsUpTo

/-- The first edge that faults. -/
structure FirstFault (t : Table capacity) (edges : Edges) (k : Nat) (edge : Id × Id)
    (fault : Fault) : Prop where
  src : edges.src[k]? = some edge.1
  dst : edges.dst[k]? = some edge.2
  fault : t.edgeFault edge = some fault
  before : ∀ i < k, t.faultAt (edges.src.zip edges.dst) i = none

/-- Where some endpoint is bad there is a first edge that faults. -/
theorem exists_firstFault (hlength : edges.dst.size = edges.src.size)
    (hbad : t.HasBadEndpoint edges) : ∃ k edge fault, t.FirstFault edges k edge fault := by
  obtain ⟨k, hfault⟩ := (exists_faultAt_iff hlength).mpr hbad
  induction k using Nat.strongRecOn with
  | ind k ih =>
    by_cases hbefore : ∀ i < k, t.faultAt (edges.src.zip edges.dst) i = none
    · obtain ⟨fault, hfault⟩ := Option.ne_none_iff_exists'.mp hfault
      obtain ⟨edge, hedge, hfault⟩ := Option.bind_eq_some_iff.mp hfault
      obtain ⟨hsrc, hdst⟩ := Array.getElem?_zip_eq_some.mp hedge
      exact ⟨k, edge, fault, hsrc, hdst, hfault, hbefore⟩
    · push Not at hbefore
      obtain ⟨i, hi, hfault⟩ := hbefore
      exact ih i hi hfault

/-- The edges before a place write the local IDs of their endpoints, if none of them faults. -/
theorem Numbers.forM_take_relabelEdge (h : t.Numbers ids) (output : Edges) {k : Nat}
    (hk : k ≤ (edges.src.zip edges.dst).size)
    (hbefore : ∀ i < k, t.faultAt (edges.src.zip edges.dst) i = none) :
    ∃ final : Edges,
      ((List.finRange _).take k).forM (relabelEdge t (edges.src.zip edges.dst)) output =
        ⟨final, [], .ok ()⟩ ∧
      t.RelabelsUpTo edges.src output.src final.src k ∧
      t.RelabelsUpTo edges.dst output.dst final.dst k := by
  induction k with
  | zero => exact ⟨output, rfl, .zero t edges.src output.src, .zero t edges.dst output.dst⟩
  | succ k ih =>
    obtain ⟨mid, hmid, hsrc, hdst⟩ := ih (by omega) fun i hi => hbefore i (by omega)
    obtain ⟨edge, hedge⟩ : ∃ edge, (edges.src.zip edges.dst)[k]? = some edge :=
      ⟨_, Array.getElem?_eq_getElem hk⟩
    obtain ⟨hedge_src, hedge_dst⟩ := Array.getElem?_zip_eq_some.mp hedge
    have hnone := hbefore k (Nat.lt_succ_self k)
    rw [faultAt_of_getElem? hedge] at hnone
    obtain ⟨src, dst, hsrc_matches, hdst_matches, hlast⟩ :=
      h.exists_relabelEdge (i := ⟨k, hk⟩) hedge hnone
    refine ⟨⟨_, _⟩, ?_, hsrc.succ hedge_src hsrc_matches, hdst.succ hedge_dst hdst_matches⟩
    have htake : (List.finRange (edges.src.zip edges.dst).size).take (k + 1) =
        (List.finRange _).take k ++ [⟨k, hk⟩] := by
      rw [← List.take_append_getElem (by rwa [List.length_finRange]), List.getElem_finRange]
      rfl
    rw [htake, Action.forM_append, Action.bind_apply_silent _ hmid, Action.forM_cons,
      Action.bind_apply_silent _ (hlast mid)]
    rfl

/-- A single run ends at the first edge that faults. The edges before it are relabelled, its source
is if it is not the one that faults, and nothing else is written. -/
theorem Numbers.relabel_single_of_fault (h : t.Numbers ids) (hlengths : edges.SameLengths output)
    {pool : Pool} (hsingle : edges.src.size / 2 < pool.minChunk) {k : Nat} {edge : Id × Id}
    {fault : Fault} (hfirst : t.FirstFault edges k edge fault) :
    ∃ final, t.relabel pool edges output = ⟨final, [], .error fault⟩ ∧
      t.RelabelsUpTo edges.src output.src final.src
        (if t.endpointFault edge.1 = none then k + 1 else k) ∧
      t.RelabelsUpTo edges.dst output.dst final.dst k := by
  have hedge : (edges.src.zip edges.dst)[k]? = some edge :=
    Array.getElem?_zip_eq_some.mpr ⟨hfirst.src, hfirst.dst⟩
  have hk := (Array.getElem?_eq_some_iff.mp hedge).1
  obtain ⟨mid, hmid, hsrc, hdst⟩ := h.forM_take_relabelEdge output (Nat.le_of_lt hk) hfirst.before
  have hsplit : List.finRange (edges.src.zip edges.dst).size =
      (List.finRange _).take k ++ ⟨k, hk⟩ :: (List.finRange _).drop (k + 1) := by
    conv_lhs => rw [← List.take_append_drop k (List.finRange _)]
    rw [List.drop_eq_getElem_cons (by rwa [List.length_finRange]), List.getElem_finRange]
    rfl
  have hsize : (edges.src.zip edges.dst).size = edges.src.size := by
    rw [Array.size_zip, hlengths.dst, Nat.min_self]
  -- the loop ends at the edge, so what the edge leaves is what relabelling leaves
  have hrelabel {final : Edges} (hlast : relabelEdge t (edges.src.zip edges.dst) ⟨k, hk⟩ mid =
      ⟨final, [], .error fault⟩) : t.relabel pool edges output = ⟨final, [], .error fault⟩ := by
    have hloop := Action.forM_append_cons_of_error ((List.finRange _).drop (k + 1)) hmid hlast
    rw [relabel_of_sameLengths hlengths, Pool.forEach_of_lt (by omega), hsplit]
    exact Action.bind_apply_error _ hloop
  have hfault := hfirst.fault
  rw [edgeFault] at hfault
  rcases hsource : t.endpointFault edge.1 with _ | first
  · rw [hsource, Option.none_or] at hfault
    obtain ⟨src, hmatches, hlast⟩ :=
      h.exists_relabelEdge_of_target_fault (i := ⟨k, hk⟩) hedge hsource hfault
    exact ⟨_, hrelabel (hlast mid), hsrc.succ hfirst.src hmatches, hdst⟩
  · rw [hsource, Option.some_or] at hfault
    cases hfault
    exact ⟨mid, hrelabel (relabelEdge_of_source_fault hedge hsource mid), hsrc, hdst⟩

end Table

end IdCompaction
