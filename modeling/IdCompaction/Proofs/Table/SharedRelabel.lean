import IdCompaction.Proofs.Table.RelabelFault
import IdCompaction.Proofs.Together

/-!
# Relabelling shared out among workers

Several workers may visit the edges of a list in any order and interleave their accesses to the
table and to the outputs. None of these changes the table, so what each worker comes to is known
before it starts: the first fault among its own edges, if there is one. Relabelling therefore faults
exactly if some endpoint is bad, under every schedule, and the table is never changed.
-/

namespace IdCompaction.Table

variable {capacity : Nat} {t : Table capacity} {ids : List Id} {edges output : Edges}

/-! ## Accesses to a table with an output -/

/-- One access of a worker that relabels edges. -/
inductive LiveAccess (capacity : Nat)
  /-- An access to the table. -/
  | table (op : Access capacity)
  /-- Writes the local ID of a source. -/
  | putSrc (place : Nat) (number : Id)
  /-- Writes the local ID of a target. -/
  | putDst (place : Nat) (number : Id)

/-- What an access answers. -/
@[reducible] def LiveAccess.Answer : LiveAccess capacity → Type
  | .table op => op.Answer
  | .putSrc _ _ => Unit
  | .putDst _ _ => Unit

/-- The effect of one access. -/
def LiveAccess.apply :
    (op : LiveAccess capacity) → Table capacity × Edges → op.Answer × (Table capacity × Edges)
  | .table op, (t, output) => ((op.apply t).1, (op.apply t).2, output)
  | .putSrc place number, (t, output) =>
    ((), t, { output with src := output.src.setIfInBounds place number })
  | .putDst place number, (t, output) =>
    ((), t, { output with dst := output.dst.setIfInBounds place number })

instance : SharedMemory (Table capacity × Edges) (LiveAccess capacity) LiveAccess.Answer :=
  ⟨LiveAccess.apply⟩

/-- What a worker does that relabels edges. -/
abbrev LiveRoutine (capacity : Nat) (α : Type) :=
  IdCompaction.Routine (LiveAccess capacity) LiveAccess.Answer α

/-- A routine on the table, with an output beside it. -/
def onTable {α : Type} : Routine capacity α → LiveRoutine capacity α
  | .done value => .done value
  | .stop fault => .stop fault
  | .report event next => .report event (onTable next)
  | .access op next => .access (.table op) fun answer => onTable (next answer)

/-- Relabels the edge at a place, source first. -/
def visitEdge (pairs : Array (Id × Id)) (place : Nat) : LiveRoutine capacity Unit :=
  match pairs[place]? with
  | some (src, dst) => do
    let newSrc ← onTable (endpoint src)
    Routine.ask (LiveAccess.putSrc place newSrc)
    let newDst ← onTable (endpoint dst)
    Routine.ask (LiveAccess.putDst place newDst)
  | none => .done ()

/-- What a worker does that relabels some edges. -/
def relabelling (pairs : Array (Id × Id)) (places : List Nat) : LiveRoutine capacity Unit :=
  places.forM (visitEdge pairs)

/-- Relabels an edge list with a worker for each list of places; the workers take turns as the
schedule says, and then each goes on to its own end. -/
def relabelBy (schedule : List Nat) (edges : Edges) (lists : List (List Nat)) :
    Action Fault (Table capacity × Edges) Unit :=
  relabelOver Prod.snd edges <|
    Routine.together schedule (lists.map (relabelling (edges.src.zip edges.dst)))

/-! ## A single worker -/

/-- What is done on the table leaves the edges alone. -/
theorem perform_onTable {α : Type} (r : Routine capacity α) :
    ((onTable r).perform : Action Fault (Table capacity × Edges) α) =
      (r.perform).within tablePart := by
  induction r with
  | done value => rfl
  | stop fault => rfl
  | report event next ih =>
    funext s
    simp only [onTable, Routine.perform, ih]
    rfl
  | access op next ih =>
    funext s
    exact congrFun (ih _) _

/-- A visit on its own relabels its edge from the table itself. -/
theorem perform_visitEdge (pairs : Array (Id × Id)) (i : Fin pairs.size) :
    ((visitEdge pairs i).perform : Action Fault (Table capacity × Edges) Unit) =
      relabelEdgeLive pairs i := by
  have hedge : pairs[i.val]? = some pairs[i] := Array.getElem?_eq_getElem i.isLt
  simp only [visitEdge, hedge, Routine.perform_bind, perform_onTable]
  rfl

/-- Visits one after another relabel their edges in that order. -/
theorem perform_relabelling (pairs : Array (Id × Id)) (order : List (Fin pairs.size)) :
    ((relabelling pairs (order.map Fin.val)).perform : Action Fault (Table capacity × Edges) Unit) =
      relabelLive pairs order := by
  rw [relabelLive]
  induction order with
  | nil => rfl
  | cons i rest ih =>
    change ((visitEdge pairs i >>= fun _ => relabelling pairs (rest.map Fin.val)).perform :
      Action Fault (Table capacity × Edges) Unit) = _
    rw [Routine.perform_bind, perform_visitEdge, ih]
    rfl

/-- A single worker that has all turns relabels in a single run, and only reads the table. -/
theorem onlyReads_relabelBy_nil_single (t : Table capacity) {pool : Pool}
    (hsingle : edges.src.size / 2 < pool.minChunk) :
    OnlyReads t (relabelBy [] edges [List.range edges.src.size]) (t.relabel pool edges) := by
  have hget : OnlyReads t (Action.gets Prod.snd) Action.get := fun output => rfl
  refine hget.bind fun output => ?_
  split
  · next hlengths =>
    have hsize : (edges.src.zip edges.dst).size = edges.src.size := by
      rw [Array.size_zip, hlengths.1, Nat.min_self]
    have hloop : OnlyReads t
        (Routine.together [] [relabelling (edges.src.zip edges.dst) (List.range edges.src.size)])
        (pool.forEach _ (relabelEdge t (edges.src.zip edges.dst))) := by
      rw [← hsize, ← List.map_coe_finRange_eq_range, Routine.together_nil_singleton,
        perform_relabelling, Pool.forEach_of_lt (by omega)]
      exact .relabelLive t _ _
    exact hloop.bind fun _ output => rfl
  · exact fun output => rfl

/-! ## Any number of workers -/

/-- Workers visit edges of a list, each of them unless some worker meets one that faults. -/
def EdgesSharedOut (t : Table capacity) (edges : Edges) (lists : List (List Nat)) : Prop :=
  (∀ place < edges.src.size, ∃ list ∈ lists, place ∈ list) ∨
    ∃ list ∈ lists, ∃ place ∈ list, t.faultAt (edges.src.zip edges.dst) place ≠ none

/-- The entries of an array are as they were or are the local IDs of the entries there. -/
structure PartlyRelabels (t : Table capacity) (globals old new : Array Id) : Prop where
  size_eq : new.size = old.size
  entries : ∀ i < old.size, new[i]? = old[i]? ∨
    ∃ id number, globals[i]? = some id ∧ new[i]? = some number ∧ t.Matches id number

namespace PartlyRelabels

variable {globals old new : Array Id}

/-- Nothing need be relabeled yet. -/
theorem refl (t : Table capacity) (globals old : Array Id) : t.PartlyRelabels globals old old :=
  ⟨rfl, fun _ _ => .inl rfl⟩

/-- Writing a local ID at its place relabels a part. -/
theorem put (h : t.PartlyRelabels globals old new) {place : Nat} {id number : Id}
    (hid : globals[place]? = some id) (hmatches : t.Matches id number) :
    t.PartlyRelabels globals old (new.setIfInBounds place number) where
  size_eq := Array.size_setIfInBounds.trans h.size_eq
  entries i hi := by
    rw [Array.getElem?_setIfInBounds]
    by_cases hplace : place = i
    · subst hplace
      rw [if_pos rfl, if_pos (h.size_eq ▸ hi)]
      exact .inr ⟨id, number, hid, rfl, hmatches⟩
    · rw [if_neg hplace]
      exact h.entries i hi

end PartlyRelabels

/-- The table is as it was, and of the outputs a part is relabelled. -/
structure Unharmed (t : Table capacity) (edges output : Edges) (s : Table capacity × Edges) :
    Prop where
  table : s.1 = t
  src : t.PartlyRelabels edges.src output.src s.2.src
  dst : t.PartlyRelabels edges.dst output.dst s.2.dst

section Workers

variable {lists : List (List Nat)}

/-- What reading an endpoint comes to is up to the table alone. -/
theorem settles_onTable_endpoint (t : Table capacity) (edges output : Edges) (id : Id) :
    (onTable (endpoint id)).Settles (t.Unharmed edges output) (t.read (endpoint id)) := by
  by_cases hid : id.toNat < capacity
  · have hroutine : (onTable (endpoint id) : LiveRoutine capacity Id) =
        .access (.table (.readClaim ⟨id.toNat, hid⟩)) fun claim =>
          onTable (if claim ≠ id then .stop (.neverPopulated id)
            else ask (.readLocal ⟨id.toNat, hid⟩)) := by
      simp only [endpoint, slotOf, dif_pos hid, Routine.done_bind, ask, Routine.ask_bind]
      rfl
    rw [hroutine, read, perform_endpoint t hid]
    rintro ⟨t', _⟩ hs
    obtain rfl : t = t' := hs.table.symm
    refine ⟨hs, ?_⟩
    by_cases hclaim : (t.slots.get ⟨id.toNat, hid⟩).claim ≠ id
    · rw [if_pos hclaim]
      change (onTable (if (t.slots.get ⟨id.toNat, hid⟩).claim ≠ id then _ else _)).Settles _ _
      rw [if_pos hclaim]
      rfl
    · rw [if_neg hclaim]
      change (onTable (if (t.slots.get ⟨id.toNat, hid⟩).claim ≠ id then _ else _)).Settles _ _
      rw [if_neg hclaim]
      rintro ⟨t', _⟩ hs
      obtain rfl : t = t' := hs.table.symm
      exact ⟨hs, rfl⟩
  · simp only [read, endpoint, slotOf, dif_neg hid]
    rfl

/-- A worker at a place comes to the fault of the edge there, if it has one. -/
theorem Numbers.settles_visitEdge (h : t.Numbers ids) (edges output : Edges) (place : Nat) :
    (visitEdge (edges.src.zip edges.dst) place).Settles (t.Unharmed edges output)
      ((t.faultAt (edges.src.zip edges.dst) place).elim (.ok ()) .error) := by
  rw [visitEdge, faultAt]
  rcases hedge : (edges.src.zip edges.dst)[place]? with _ | ⟨src, dst⟩
  · rfl
  obtain ⟨hsrc, hdst⟩ := Array.getElem?_zip_eq_some.mp hedge
  have hfirst := settles_onTable_endpoint t edges output src
  have hsecond := settles_onTable_endpoint t edges output dst
  rw [Option.bind_some, edgeFault]
  rcases hbad : t.endpointFault src with _ | fault
  · obtain ⟨newSrc, hread, hmatches⟩ := h.exists_read_endpoint hbad
    refine (hread ▸ hfirst).bind_ok fun s hs => ⟨⟨hs.table, hs.src.put hsrc hmatches, hs.dst⟩, ?_⟩
    rcases hbad : t.endpointFault dst with _ | fault
    · obtain ⟨newDst, hread, hmatches⟩ := h.exists_read_endpoint hbad
      exact (hread ▸ hsecond).bind_ok fun s hs =>
        ⟨⟨hs.table, hs.src, hs.dst.put hdst hmatches⟩, rfl⟩
    · exact (read_endpoint_of_fault hbad ▸ hsecond).bind_error
  · exact (read_endpoint_of_fault hbad ▸ hfirst).bind_error

/-- Arrays of unequal lengths are refused before anything is written. -/
theorem relabelBy_of_not_sameLengths (h : ¬ edges.SameLengths output) (schedule : List Nat) :
    relabelBy schedule edges lists (t, output) = ⟨(t, output), [],
      .error (.edgeLengths edges.src.size edges.dst.size output.src.size output.dst.size)⟩ :=
  relabelOver_of_not_sameLengths h

/-- Workers leave the table as it was and the outputs relabelled in part, and the first fault that
one of them comes to is the answer. -/
theorem Numbers.relabelBy_of_sameLengths (h : t.Numbers ids) (hlengths : edges.SameLengths output)
    (schedule : List Nat) :
    t.Unharmed edges output (relabelBy schedule edges lists (t, output)).state ∧
      (relabelBy schedule edges lists (t, output)).result =
        (lists.flatten.findSome? (t.faultAt (edges.src.zip edges.dst))).elim (.ok ()) .error := by
  have hstart : t.Unharmed edges output (t, output) := ⟨rfl, .refl .., .refl ..⟩
  obtain ⟨hstate, hresult⟩ := Routine.together_of_visits hstart
    (fun place (_ : place ∈ lists.flatten) => h.settles_visitEdge edges output place) schedule
  rw [← hresult, relabelBy, relabelOver_of_sameLengths hlengths]
  have hloop := Action.bind_of_looking
    (x := Routine.together schedule (lists.map (relabelling (edges.src.zip edges.dst))))
    (f := fun _ => Action.emit (.edgesMapped edges.src.size)) (fun _ => ⟨rfl, rfl⟩) (t, output)
  rw [hloop.1, hloop.2]
  exact ⟨hstate, rfl⟩

/-- Workers never harm a table. -/
theorem Numbers.unharmed_relabelBy (h : t.Numbers ids) (edges output : Edges) (schedule : List Nat)
    (lists : List (List Nat)) :
    t.Unharmed edges output (relabelBy schedule edges lists (t, output)).state := by
  by_cases hlengths : edges.SameLengths output
  · exact (h.relabelBy_of_sameLengths hlengths schedule).1
  · rw [relabelBy_of_not_sameLengths hlengths]
    exact ⟨rfl, .refl .., .refl ..⟩

/-- Some worker comes to a fault exactly if some endpoint is bad. -/
theorem EdgesSharedOut.exists_iff (hshared : t.EdgesSharedOut edges lists)
    (hlength : edges.dst.size = edges.src.size) :
    (∃ place ∈ lists.flatten, t.faultAt (edges.src.zip edges.dst) place ≠ none) ↔
      t.HasBadEndpoint edges := by
  rw [← exists_faultAt_iff hlength]
  constructor
  · rintro ⟨place, -, hplace⟩
    exact ⟨place, hplace⟩
  · rintro ⟨place, hplace⟩
    obtain hall | ⟨places, hplaces, met, hmem, hmet⟩ := hshared
    · obtain ⟨edge, hedge, -⟩ := faultAt_ne_none_iff.mp hplace
      have hlt := (Array.getElem?_eq_some_iff.mp (Array.getElem?_zip_eq_some.mp hedge).1).1
      obtain ⟨places, hplaces, hmem⟩ := hall place hlt
      exact ⟨place, List.mem_flatten_of_mem hplaces hmem, hplace⟩
    · exact ⟨met, List.mem_flatten_of_mem hplaces hmem, hmet⟩

/-- Under every schedule, relabelling faults exactly if the lengths differ or some endpoint is bad.
-/
theorem Numbers.exists_fault_relabelBy_iff (h : t.Numbers ids) (output : Edges)
    (hshared : t.EdgesSharedOut edges lists) (schedule : List Nat) :
    (∃ fault, (relabelBy schedule edges lists (t, output)).result = .error fault) ↔
      ¬ edges.SameLengths output ∨ t.HasBadEndpoint edges := by
  by_cases hlengths : edges.SameLengths output
  · rw [exists_eq_error_iff, (h.relabelBy_of_sameLengths hlengths schedule).2, ne_eq,
      elim_ok_error_eq_ok_iff, List.findSome?_eq_none_iff, ← hshared.exists_iff hlengths.dst]
    push Not
    simp [hlengths]
  · rw [relabelBy_of_not_sameLengths hlengths]
    simp [hlengths]

end Workers

/-! ## After any history -/

/-- Relabelling an edge list of a table over an output faults exactly when it must, and does no harm
then. -/
structure FaultsExactly (t : Table capacity) (edges output : Edges) : Prop where
  /-- On every pool there is a fault exactly if the lengths differ or some endpoint is bad. -/
  exists_fault_iff : ∀ pool, (∃ fault, (t.relabel pool edges output).result = .error fault) ↔
    ¬ edges.SameLengths output ∨ t.HasBadEndpoint edges
  /-- The vacant mark is past the capacity, however large that is. -/
  vacant_outOfRange : t.endpointFault vacant = some (.idOutOfRange vacant capacity)
  /-- Arrays of unequal lengths are refused before anything is written. -/
  lengths_refused : ¬ edges.SameLengths output → ∀ pool, t.relabel pool edges output = ⟨output, [],
    .error (.edgeLengths edges.src.size edges.dst.size output.src.size output.dst.size)⟩
  /-- Where some endpoint is bad there is a first edge that faults. -/
  exists_first : edges.SameLengths output → t.HasBadEndpoint edges →
    ∃ k edge fault, t.FirstFault edges k edge fault
  /-- A single run ends there, and of what comes later nothing is written. -/
  single_run : edges.SameLengths output → ∀ pool : Pool, edges.src.size / 2 < pool.minChunk →
    ∀ k edge fault, t.FirstFault edges k edge fault →
      ∃ final, t.relabel pool edges output = ⟨final, [], .error fault⟩ ∧
        t.RelabelsUpTo edges.src output.src final.src
          (if t.endpointFault edge.1 = none then k + 1 else k) ∧
        t.RelabelsUpTo edges.dst output.dst final.dst k
  /-- A single worker that makes its accesses to the table itself makes a single run. -/
  single_worker : ∀ pool : Pool, edges.src.size / 2 < pool.minChunk →
    relabelBy [] edges [List.range edges.src.size] (t, output) =
      ⟨(t, (t.relabel pool edges output).state), (t.relabel pool edges output).events,
        (t.relabel pool edges output).result⟩
  /-- The table is never changed, and the outputs are at most relabelled in part. -/
  unharmed : ∀ schedule lists,
    t.Unharmed edges output (relabelBy schedule edges lists (t, output)).state
  /-- Outputs of unequal lengths are not changed either. -/
  output_kept : ¬ edges.SameLengths output → ∀ schedule lists,
    (relabelBy schedule edges lists (t, output)).state.2 = output
  /-- Under every schedule there is a fault exactly if the lengths differ or some endpoint is bad.
  -/
  exists_fault_by_iff : ∀ schedule lists, t.EdgesSharedOut edges lists →
    ((∃ fault, (relabelBy schedule edges lists (t, output)).result = .error fault) ↔
      ¬ edges.SameLengths output ∨ t.HasBadEndpoint edges)

/-- Whatever a table has gone through, relabelling an edge list faults exactly when it must, and
does no harm then. -/
theorem relabel_faults_exactly (h : t.Reachable) (edges output : Edges) :
    t.FaultsExactly edges output := by
  obtain ⟨ids, hids⟩ := h.numbers
  exact
    { exists_fault_iff := fun pool => hids.exists_fault_relabel_iff pool edges output
      vacant_outOfRange := hids.endpointFault_vacant
      lengths_refused := relabel_of_not_sameLengths
      exists_first := fun hlengths => exists_firstFault hlengths.dst
      single_run := fun hlengths pool hsingle k edge fault =>
        hids.relabel_single_of_fault hlengths hsingle
      single_worker := fun pool hsingle => onlyReads_relabelBy_nil_single t hsingle output
      unharmed := hids.unharmed_relabelBy edges output
      output_kept := fun hlengths schedule lists => by rw [relabelBy_of_not_sameLengths hlengths]
      exists_fault_by_iff := fun schedule lists hshared =>
        hids.exists_fault_relabelBy_iff output hshared schedule }

/-- Three edges of a table of four slots, which claimed `3` and `1`. The second target is unclaimed:
a single run writes the two sources up to there and one target; of two workers one stops there, the
other goes on to the third edge, and the first edge is never visited. -/
theorem relabel_faults_exactly_four :
    ∃ t : Table 4, t.Reachable ∧
      let edges : Edges := ⟨#[1, 3, 1], #[3, 2, 1]⟩
      let output : Edges := ⟨#[7, 7, 7], #[0, 0, 0]⟩
      let relabelled := relabelBy [0, 1, 1, 0] edges [[1], [2]] (t, output)
      (∃ final, t.relabel ⟨1, 8⟩ edges output = ⟨final, [], .error (.neverPopulated 2)⟩ ∧
        t.RelabelsUpTo edges.src output.src final.src 2 ∧
        t.RelabelsUpTo edges.dst output.dst final.dst 1) ∧
      relabelled.state.1 = t ∧ ∃ fault, relabelled.result = .error fault := by
  have built :
      (allocate (HostMemory.service (Arena.heap 4096)) .cpu 4 (.fresh {})).result = .ok _ := rfl
  have hreachable := ((Reachable.built built).insert 3).insert 1
  have hfaults := relabel_faults_exactly hreachable ⟨#[1, 3, 1], #[3, 2, 1]⟩
    ⟨#[7, 7, 7], #[0, 0, 0]⟩
  refine ⟨_, hreachable, ?_, (hfaults.unharmed _ _).table, ?_⟩
  · exact hfaults.single_run ⟨rfl, rfl, rfl⟩ ⟨1, 8⟩ (by decide) 1 (3, 2) (.neverPopulated 2)
      ⟨rfl, rfl, by decide +kernel, by decide +kernel⟩
  · refine (hfaults.exists_fault_by_iff _ _ (.inr ⟨_, List.mem_cons_self, _, List.mem_cons_self,
      by decide +kernel⟩)).mpr (.inr ⟨2, .inr (by decide +kernel), .inr ?_⟩)
    decide +kernel

end IdCompaction.Table
