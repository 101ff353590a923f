import IdCompaction.Proofs.Table.Visits

/-!
# Reads of a table in use

A read of one entry makes two accesses, and claims may go on in between. It still is never wrong: it
answers what the table shows, and nothing that a table shows is ever taken back. Whatever it has
answered, every read that begins later and asks for the same entry answers, too. An owner that was
read is found under the local ID that it owns, and a local ID that was found has no other owner.
-/

namespace IdCompaction.Table

variable {capacity : Nat} {earlier t t' : Table capacity}

/-! ## What a table shows -/

/-- The table shows the answer to a read. -/
def Shows (t : Table capacity) : Query → Id → Prop
  | .localOf id, number => number ≠ vacant ∧
    ∃ h : id.toNat < capacity, t.slots.get ⟨id.toNat, h⟩ = ⟨id, number⟩
  | .globalOf number, id => id ≠ vacant ∧ number.toNat < t.numItems ∧
    ∃ h : number.toNat < capacity, t.owners.get ⟨number.toNat, h⟩ = id

/-- What a table shows is no vacant mark. -/
theorem Shows.ne_vacant {query : Query} {x : Id} (h : t.Shows query x) : x ≠ vacant := by
  cases query with
  | localOf id => exact h.1
  | globalOf number => exact h.1

/-- What a read may rely on: the table becomes a later one, and what it shows fits together. -/
def Continues (t t' : Table capacity) : Prop := t.Later t' ∧ t'.Coherent

/-- A table that continues one that continues another continues that one too. -/
theorem Continues.trans {t'' : Table capacity} (h : t.Continues t') (h' : t'.Continues t'') :
    t.Continues t'' := ⟨h.1.trans h'.1, h'.2⟩

/-- What a table shows it shows ever after. -/
theorem Shows.mono {query : Query} {x : Id} (h : t.Shows query x) (hlater : t.Continues t') :
    t'.Shows query x := by
  cases query with
  | localOf id =>
    obtain ⟨hnumber, hid, hslot⟩ := h
    have hne : id ≠ vacant := ne_vacant_of_lt (Nat.lt_of_lt_of_le hid hlater.2.fits)
    have hclaim := hlater.1.claims ⟨id.toNat, hid⟩ (hslot ▸ hne)
    have hlocal := hlater.1.localIds ⟨id.toNat, hid⟩ (hslot ▸ hnumber)
    rw [hslot] at hclaim hlocal
    exact ⟨hnumber, hid, Slot.mk.injEq .. ▸ ⟨hclaim, hlocal⟩⟩
  | globalOf number =>
    obtain ⟨hid, hcount, hnumber, howner⟩ := h
    have hkept := hlater.1.owners ⟨number.toNat, hnumber⟩ (howner ▸ hid)
    exact ⟨hid, Nat.lt_of_lt_of_le hcount hlater.1.numItems, hnumber, hkept.trans howner⟩

/-- The slot of an owner that a table shows, shows the local ID that it owns. -/
theorem Shows.localOf {number id : Id} (hcoherent : t.Coherent)
    (h : t.Shows (.globalOf number) id) : t.Shows (.localOf id) number := by
  obtain ⟨hid, -, hnumber, rfl⟩ := h
  obtain ⟨hlt, hslot⟩ := hcoherent.slot_of_owner _ hid
  rw [Nat.toUInt32, UInt32.ofNat_toNat] at hslot
  exact ⟨ne_vacant_of_lt (Nat.lt_of_lt_of_le hnumber hcoherent.fits), hlt, hslot⟩

/-- A local ID that a slot shows has no other owner. -/
theorem Shows.eq_of_globalOf {id number other : Id} (hcoherent : t.Coherent)
    (h : t.Shows (.localOf id) number) (h' : t.Shows (.globalOf number) other) : other = id := by
  obtain ⟨hnumber, hid, hslot⟩ := h
  obtain ⟨-, hother, hslot'⟩ := h'.localOf hcoherent
  have hshown : (t.slots.get ⟨other.toNat, hother⟩).localId = number := by rw [hslot']
  refine hcoherent.distinct hother hid (hshown ▸ hnumber) ?_
  rw [hshown, hslot]

/-! ## What a read ensures -/

/-- What a read has seen that began on `earlier` and ended on `t`. -/
inductive Query.Sees (query : Query) (earlier t : Table capacity) : Except Fault Reply → Prop
  /-- It has found what the table shows, and has not missed what the table showed. -/
  | found (answer : Option Id) (shown : ∀ x, answer = some x → t.Shows query x)
      (seen : ∀ x, earlier.Shows query x → answer = some x) :
      Sees query earlier t (.ok (.found answer))
  /-- An ID past the capacity is a fault. -/
  | outOfRange (id : Id) (query_eq : query = .localOf id) (le : capacity ≤ id.toNat) :
      Sees query earlier t (.error (.idOutOfRange id capacity))

/-- What a query may see does not become wrong as the table goes on. -/
theorem Query.isStable_sees (query : Query) (earlier : Table capacity) :
    Routine.IsStable Continues (query.Sees earlier) where
  trans h h' := h.trans h'
  kept h hlater := by
    cases h with
    | found answer shown seen =>
      exact .found answer (fun x hx => (shown x hx).mono hlater) seen
    | outOfRange id query_eq le => exact .outOfRange id query_eq le

/-- What is read is the answer unless it is the vacant mark. -/
theorem ite_ne_vacant_eq_some {contents x : Id} :
    (if contents ≠ vacant then some contents else none) = some x ↔
      contents = x ∧ x ≠ vacant := by
  by_cases h : contents = vacant
  · simpa [h] using fun heq => heq.symm
  · simpa [h] using fun heq => heq ▸ h

/-- Looking a global ID up takes two accesses at the most, and sees what the table shows. -/
theorem ensures_localOf (id : Id) (t : Table capacity) :
    (localOf id : Routine capacity (Option Id)).Ensures Continues
      (fun t' result => (Query.localOf id).Sees t t' (result.map .found)) 2 t := by
  by_cases hid : id.toNat < capacity
  · simp only [localOf, slotOf, dif_pos hid, Routine.done_bind, ask, Routine.ask_bind]
    intro t₁ h₁
    change Routine.Ensures _ _ (if (t₁.slots.get ⟨id.toNat, hid⟩).claim ≠ id then _ else _) 1 t₁
    by_cases hclaim : (t₁.slots.get ⟨id.toNat, hid⟩).claim ≠ id
    · rw [if_pos hclaim]
      refine .found none (fun x hx => by cases hx) fun x hx => ?_
      obtain ⟨_, _, hslot⟩ := hx.mono h₁
      exact absurd (by rw [hslot]) hclaim
    · rw [if_neg hclaim]
      intro t₂ h₂
      -- the claim that was read is still there when the local ID is
      have hclaim₁ : (t₁.slots.get ⟨id.toNat, hid⟩).claim = id := not_not.mp hclaim
      have hid_ne : id ≠ vacant := ne_vacant_of_lt (Nat.lt_of_lt_of_le hid h₁.2.fits)
      have hclaim₂ := h₂.1.claims ⟨id.toNat, hid⟩ (hclaim₁.trans_ne hid_ne)
      refine .found _ (fun x hx => ?_) fun x hx => ?_
      · obtain ⟨hlocal, hx_ne⟩ := ite_ne_vacant_eq_some.mp hx
        exact ⟨hx_ne, hid, Slot.mk.injEq .. ▸ ⟨hclaim₂.trans hclaim₁, hlocal⟩⟩
      · obtain ⟨hx_ne, _, hslot⟩ := hx.mono (h₁.trans h₂)
        exact ite_ne_vacant_eq_some.mpr ⟨congrArg Slot.localId hslot, hx_ne⟩
  · rw [localOf, slotOf, dif_neg hid]
    exact .outOfRange id rfl (Nat.le_of_not_lt hid)

/-- Looking a local ID up takes two accesses at the most, and sees what the table shows. -/
theorem ensures_globalOf (number : Id) (t : Table capacity) :
    (globalOf number : Routine capacity (Option Id)).Ensures Continues
      (fun t' result => (Query.globalOf number).Sees t t' (result.map .found)) 2 t := by
  simp only [globalOf, ask, Routine.ask_bind]
  intro t₁ h₁
  change Routine.Ensures _ _ (if t₁.numItems ≤ number.toNat then _ else _) 1 t₁
  by_cases hcount : t₁.numItems ≤ number.toNat
  · rw [if_pos hcount]
    refine .found none (fun x hx => by cases hx) fun x hx => ?_
    obtain ⟨-, hlt, -⟩ := hx.mono h₁
    exact absurd hlt (Nat.not_lt.mpr hcount)
  · have hlt : number.toNat < t₁.numItems := Nat.lt_of_not_le hcount
    have hnumber : number.toNat < capacity := Nat.lt_of_lt_of_le hlt h₁.2.numItems_le
    rw [if_neg hcount]
    simp only [placeOf, dif_pos hnumber, Routine.done_bind]
    intro t₂ h₂
    refine .found _ (fun x hx => ?_) fun x hx => ?_
    · obtain ⟨howner, hx_ne⟩ := ite_ne_vacant_eq_some.mp hx
      exact ⟨hx_ne, Nat.lt_of_lt_of_le hlt h₂.1.numItems, hnumber, howner⟩
    · obtain ⟨hx_ne, -, _, howner⟩ := hx.mono (h₁.trans h₂)
      exact ite_ne_vacant_eq_some.mpr ⟨howner, hx_ne⟩

/-- A query answers with something it may see, after two accesses at most. -/
theorem Query.ensures (query : Query) (t : Table capacity) :
    (Visit.find query).routine.Ensures Continues (query.Sees t) 2 t := by
  cases query with
  | localOf id => exact (ensures_localOf id t).map
  | globalOf number => exact (ensures_globalOf number t).map

/-- What a read of the counter has seen that began on `earlier` and ended on `t`. -/
def SeesCount (earlier t : Table capacity) (result : Except Fault Reply) : Prop :=
  ∃ items, result = .ok (.count items) ∧ earlier.numItems ≤ items ∧ items ≤ t.numItems

/-- What the counter may show does not become wrong as the table goes on. -/
theorem isStable_seesCount (earlier : Table capacity) :
    Routine.IsStable Continues earlier.SeesCount where
  trans h h' := h.trans h'
  kept := by
    rintro t t' _ ⟨items, rfl, hfrom, hto⟩ hlater
    exact ⟨items, rfl, hfrom, Nat.le_trans hto hlater.1.numItems⟩

/-- The counter shows, after one access, something that it may show. -/
theorem ensures_numItems (t : Table capacity) :
    Visit.numItems.routine.Ensures Continues t.SeesCount 1 t :=
  fun _ h => ⟨_, rfl, h.1.numItems, Nat.le_refl _⟩

/-! ## Calls in company -/

/-- The call at a place has ended with a result when a schedule is over. -/
def Ended (t : Table capacity) (visits : List Visit) (schedule : List Nat) (place : Nat)
    (visit : Visit) (result : Except Fault Reply) : Prop :=
  visits[place]? = some visit ∧ ((visited t visits).follow schedule).result? place = some result

instance (t : Table capacity) (visits : List Visit) (schedule : List Nat) (place : Nat)
    (visit : Visit) (result : Except Fault Reply) :
    Decidable (Ended t visits schedule place visit result) :=
  inferInstanceAs (Decidable (_ ∧ _))

/-- Every read of an entry that begins after a schedule finds `x`, at the latest after two turns. -/
def WillFind (t : Table capacity) (visits : List Visit) (past : List Nat) (query : Query) (x : Id) :
    Prop :=
  ∀ place, visits[place]? = some (.find query) → place ∉ past → ∀ later,
    (∀ result, Ended t visits (past ++ later) place (.find query) result →
      result = .ok (.found (some x))) ∧
    (2 ≤ later.count place →
      Ended t visits (past ++ later) place (.find query) (.ok (.found (some x))))

section Company

variable {start : List Id} (h : t.Numbers start) {visits : List Visit} {past : List Nat}
  {place : Nat} {visit : Visit}

include h

/-- A call that begins after a schedule comes to the end that it ensures there. -/
theorem Numbers.ended (past : List Nat) {post : Table capacity → Except Fault Reply → Prop}
    {count : Nat} (stable : Routine.IsStable Continues post)
    (hvisit : visits[place]? = some visit) (hbegins : place ∉ past)
    (hensures : visit.routine.Ensures Continues post count ((visited t visits).follow past).memory)
    (later : List Nat) :
    (∀ result, Ended t visits (past ++ later) place visit result →
        post ((visited t visits).follow (past ++ later)).memory result) ∧
      (count ≤ later.count place →
        ∃ result, Ended t visits (past ++ later) place visit result) := by
  have hmember : ((visited t visits).follow past).members[place]? = some visit.routine := by
    rw [Crew.getElem?_members_follow_of_notMem _ hbegins, visited, List.getElem?_map, hvisit]
    rfl
  have hfollow := Crew.result_follow stable (P := Shared t start t)
    (fun _ turn hcrew => hcrew.advance turn) (fun _ hcrew => ⟨.refl _, hcrew.coherent⟩)
    (fun _ turn hcrew => ⟨(hcrew.now.advance turn).later, (hcrew.advance turn).coherent⟩)
    ((Shared.begin h visits).follow past) hmember hensures later
  rw [← Crew.follow_append] at hfollow
  refine ⟨fun result hended => hfollow.1 result hended.2, fun hcount => ?_⟩
  obtain ⟨result, hresult⟩ := hfollow.2 hcount
  exact ⟨result, hvisit, hresult⟩

/-- What a read has seen when it has ended. -/
theorem Numbers.sees_of_ended {query : Query} {result : Except Fault Reply}
    (hended : Ended t visits past place (.find query) result) :
    query.Sees t ((visited t visits).follow past).memory result :=
  (h.ended [] (query.isStable_sees t) hended.1 List.not_mem_nil (query.ensures t)
    past).1 result hended

/-- What a read has found the table shows. -/
theorem Numbers.shows_of_ended {query : Query} {x : Id}
    (hended : Ended t visits past place (.find query) (.ok (.found (some x)))) :
    ((visited t visits).follow past).memory.Shows query x := by
  cases h.sees_of_ended hended with
  | found answer shown seen => exact shown x rfl

/-- What the table shows every read finds that begins later. -/
theorem Numbers.willFind {query : Query} {x : Id}
    (hshows : ((visited t visits).follow past).memory.Shows query x) :
    WillFind t visits past query x := by
  intro place hvisit hbegins later
  obtain ⟨hsees, hends⟩ :=
    h.ended past (query.isStable_sees _) hvisit hbegins (query.ensures _) later
  have hanswer (result : Except Fault Reply)
      (hended : Ended t visits (past ++ later) place (.find query) result) :
      result = .ok (.found (some x)) := by
    cases hsees result hended with
    | found answer shown seen => rw [seen x hshows]
    | outOfRange id query_eq le =>
      subst query_eq
      obtain ⟨-, hlt, -⟩ := hshows
      exact absurd hlt (Nat.not_lt.mpr le)
  refine ⟨hanswer, fun hcount => ?_⟩
  obtain ⟨result, hended⟩ := hends hcount
  exact hanswer result hended ▸ hended

end Company

/-- What calls on a table in use see that have ended when a schedule is over, and what calls see
that begin after it. -/
structure NeverWrong (t : Table capacity) (visits : List Visit) (past : List Nat) : Prop where
  /-- A read of an entry has ended after two turns, and only an ID past the capacity is a fault. -/
  ends : ∀ i query, visits[i]? = some (.find query) → 2 ≤ past.count i →
    (∃ answer, Ended t visits past i (.find query) (.ok (.found answer))) ∨
      ∃ id, query = .localOf id ∧ capacity ≤ id.toNat ∧
        Ended t visits past i (.find query) (.error (.idOutOfRange id capacity))
  /-- It never finds the vacant mark. -/
  ne_vacant : ∀ i query x, Ended t visits past i (.find query) (.ok (.found (some x))) →
    x ≠ vacant
  /-- An owner that was read is found under the local ID that it owns. -/
  owned : ∀ i number id, Ended t visits past i (.find (.globalOf number)) (.ok (.found (some id))) →
    WillFind t visits past (.localOf id) number
  /-- A local ID that was found has no other owner. -/
  agrees : ∀ i j id number other,
    Ended t visits past i (.find (.localOf id)) (.ok (.found (some number))) →
    Ended t visits past j (.find (.globalOf number)) (.ok (.found (some other))) → other = id
  /-- What was found once is found again. -/
  again : ∀ i query x, Ended t visits past i (.find query) (.ok (.found (some x))) →
    WillFind t visits past query x
  /-- The counter is never read lower than it was read before. -/
  counts : ∀ i j later items items', Ended t visits past i .numItems (.ok (.count items)) →
    j ∉ past → Ended t visits (past ++ later) j .numItems (.ok (.count items')) → items ≤ items'

/-- However the accesses of claiming threads and of reads are interleaved, on a table on which they
begin without a claim under way, the reads are never wrong. -/
theorem point_reads_never_wrong {start : List Id} (h : t.Numbers start) (visits : List Visit)
    (past : List Nat) : NeverWrong t visits past := by
  have hcoherent : ((visited t visits).follow past).memory.Coherent :=
    ((Shared.begin h visits).follow past).coherent
  refine ⟨fun i query hvisit hcount => ?_, fun i query x hended => ?_,
    fun i number id hended => ?_, fun i j id number other hended hended' => ?_,
    fun i query x hended => ?_, fun i j later items items' hended hbegins hended' => ?_⟩
  · obtain ⟨result, hended⟩ := (h.ended [] (query.isStable_sees t) hvisit
      List.not_mem_nil (query.ensures t) past).2 hcount
    cases h.sees_of_ended hended with
    | found answer shown seen => exact .inl ⟨answer, hended⟩
    | outOfRange id query_eq le => exact .inr ⟨id, query_eq, le, hended⟩
  · exact (h.shows_of_ended hended).ne_vacant
  · exact h.willFind ((h.shows_of_ended hended).localOf hcoherent)
  · exact (h.shows_of_ended hended).eq_of_globalOf hcoherent (h.shows_of_ended hended')
  · exact h.willFind (h.shows_of_ended hended)
  · obtain ⟨first, hfirst, -, hle⟩ := (h.ended [] (isStable_seesCount t) hended.1
      List.not_mem_nil (ensures_numItems t) past).1 _ hended
    obtain ⟨second, hsecond, hge, -⟩ := (h.ended past (isStable_seesCount _) hended'.1 hbegins
      (ensures_numItems _) later).1 _ hended'
    cases hfirst
    cases hsecond
    exact Nat.le_trans hle hge

/-- Two threads claim `1` and `2` on a table of four slots that numbered `3`. A read of `1` between
its two stores finds its local ID while its owner is not there yet; once the owner was read, a read
of `1` that begins then finds the local ID that it owns. -/
theorem point_reads_never_wrong_four :
    ∃ t : Table 4, t.Numbers [3] ∧
      let visits : List Visit := [.claims [1], .claims [2], .find (.localOf 1),
        .find (.globalOf 1), .find (.globalOf 1), .find (.localOf 1)]
      let past := [0, 1, 0, 0, 2, 2, 3, 3, 0, 4, 4]
      Ended t visits past 2 (.find (.localOf 1)) (.ok (.found (some 1))) ∧
        Ended t visits past 3 (.find (.globalOf 1)) (.ok (.found none)) ∧
        Ended t visits past 4 (.find (.globalOf 1)) (.ok (.found (some 1))) ∧
        WillFind t visits past (.localOf 1) 1 := by
  let base : Table 4 := ⟨⟨.cpu, 0, .replicate 4 .empty⟩, ⟨.cpu, 32, .replicate 4 vacant⟩, 0⟩
  have hstart : (base.showing (.settled [3])).Numbers [3] :=
    .of_showing base (by decide) (List.nodup_singleton 3)
      (List.forall_mem_singleton.mpr (by decide))
  have hended : Ended (base.showing (.settled [3])) [.claims [1], .claims [2], .find (.localOf 1),
      .find (.globalOf 1), .find (.globalOf 1), .find (.localOf 1)]
      [0, 1, 0, 0, 2, 2, 3, 3, 0, 4, 4] 4 (.find (.globalOf 1)) (.ok (.found (some 1))) := by
    decide +kernel
  exact ⟨_, hstart, by decide +kernel, by decide +kernel, hended,
    (point_reads_never_wrong hstart _ _).owned 4 1 1 hended⟩

end IdCompaction.Table
