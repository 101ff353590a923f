import IdCompaction.Proofs.Validation.Overrun
import IdCompaction.Proofs.Validation.Refusal
import Mathlib.Logic.Function.Basic

/-!
# Calls on the streams of a device

A stream stands behind a lock, which a fault of a kernel leaves poisoned. Whoever takes a poisoned
lock gets the stream all the same. So after any calls, each with a grid and a dispatch of its own, a
stream has counted its calls that came to an answer and no others, and each call came to what it
comes to on a new stream: its outcome depends on its arguments and on the flags that it found, and
not on earlier faults or on other streams.
-/

namespace IdCompaction

namespace Stream

variable {Op : Type} {Answer : Op → Type} {σ : Type} [SharedMemory σ Op Answer]

/-- The stream after one more launch. -/
def counted (s : Stream) : Stream := { s with launches := s.launches + 1 }

/-- A launch does the same on all streams of a device, and counts itself on its own. -/
theorem launchUnder_eq_map (d : Dispatch) (s : Stream) (g : Grid)
    (kernel : Lane → Routine Op Answer Unit) :
    (s.launchUnder d g kernel : Action Fault σ Stream) =
      (fun _ => s.counted) <$> (create s.device).launchUnder d g kernel := by
  simp only [launchUnder, map_bind, map_pure]
  rfl

end Stream

namespace Validator

variable {v : Validator} {s : Stream} {d : Dispatch} {input : Array Id} {fault : Fault}

/-- Without a grid a duplicate check looks at nothing. -/
theorem countDuplicatesUnder_of_noGrid {length : Nat} (h : v.grid input.size = .error fault)
    (p : Presence length) : v.countDuplicatesUnder d s input p = ⟨p, [], .error fault⟩ := by
  simp only [countDuplicatesUnder, h]
  rfl

/-- Without a grid a sentinel check looks at nothing. -/
theorem refuseSentinelUnder_of_noGrid (h : v.grid input.size = .error fault) (invalid : Id) :
    v.refuseSentinelUnder d s input invalid () = ⟨(), [], .error fault⟩ := by
  simp only [refuseSentinelUnder, h]
  rfl

/-- A duplicate check does the same on all streams of a device, and counts itself on its own. -/
theorem countDuplicatesUnder_eq_map {length : Nat} (d : Dispatch) (v : Validator) (s : Stream)
    (input : Array Id) :
    (v.countDuplicatesUnder d s input : Action Fault (Presence length) _) =
      (fun answer => (answer.1, s.counted)) <$>
        v.countDuplicatesUnder d (Stream.create s.device) input := by
  funext p
  rw [Action.map_apply]
  rcases hgrid : v.grid input.size with fault | g
  · rw [countDuplicatesUnder_of_noGrid hgrid, countDuplicatesUnder_of_noGrid hgrid]
    rfl
  · have hmap := congrFun (s.launchUnder_eq_map d g (Validation.duplicateKernel input))
      (⟨p, 0⟩ : Marking length)
    rcases hlaunch : (Stream.create s.device).launchUnder d g (Validation.duplicateKernel input)
      (⟨p, 0⟩ : Marking length) with ⟨m, events, fault | counted⟩
    · rw [Action.map_apply, hlaunch] at hmap
      rw [countDuplicatesUnder_of_error hgrid hmap, countDuplicatesUnder_of_error hgrid hlaunch]
      rfl
    · rw [Action.map_apply, hlaunch] at hmap
      rw [countDuplicatesUnder_of_ok hgrid hmap, countDuplicatesUnder_of_ok hgrid hlaunch]
      rfl

/-- A sentinel check does the same on all streams of a device, and counts itself on its own. -/
theorem refuseSentinelUnder_eq_map (d : Dispatch) (v : Validator) (s : Stream) (input : Array Id)
    (invalid : Id) :
    v.refuseSentinelUnder d s input invalid =
      (fun _ => s.counted) <$>
        v.refuseSentinelUnder d (Stream.create s.device) input invalid := by
  simp only [refuseSentinelUnder, Stream.launchUnder_eq_map d s, map_bind]

end Validator

/-! ## Calls -/

/-- What a validator is asked to check. -/
inductive Check (κ : Type)
  /-- Duplicates of a batch, against the map of this name. -/
  | duplicates (map : κ) (input : Array Id)
  /-- That a batch does not hold an invalid ID. -/
  | sentinel (input : Array Id) (invalid : Id)

/-- How many elements the batch has. -/
def Check.elements {κ : Type} : Check κ → Nat
  | .duplicates _ input => input.size
  | .sentinel input _ => input.size

/-- A call of a validator on a stream, with the way in which the device runs it. -/
structure Call (ι κ : Type) where
  stream : ι
  validator : Validator
  dispatch : Dispatch
  check : Check κ

/-- Presence maps under names. -/
abbrev Maps {κ : Type} (length : κ → Nat) := ∀ key, Presence (length key)

variable {ι κ : Type} [DecidableEq κ] {length : κ → Nat}

/-- One of the maps. -/
def Maps.part (key : κ) : Part (Maps length) (Presence (length key)) where
  get maps := maps key
  put p maps := Function.update maps key p

namespace Call

/-- What a call does; the answer is the number of reports, if it is a duplicate check. -/
def perform (c : Call ι κ) (s : Stream) : Action Fault (Maps length) (Option Nat × Stream) :=
  match c.check with
  | .duplicates key input =>
    (fun answer => (some answer.1, answer.2)) <$>
      (c.validator.countDuplicatesUnder c.dispatch s input).within (Maps.part key)
  | .sentinel input invalid =>
    (fun launched => (none, launched)) <$>
      (c.validator.refuseSentinelUnder c.dispatch s input invalid).within
        ⟨fun _ => (), fun _ maps => maps⟩

/-- What a call comes to on a new stream. -/
def alone (c : Call ι κ) (device : Device) (maps : Maps length) :
    Outcome Fault (Maps length) (Option Nat) :=
  (Prod.fst <$> c.perform (Stream.create device)) maps

/-- A call does not look at how many launches the stream has counted. -/
theorem perform_eq_map (c : Call ι κ) (s : Stream) :
    (c.perform s : Action Fault (Maps length) _) =
      (fun answer => (answer.1, s.counted)) <$> c.perform (Stream.create s.device) := by
  unfold perform
  cases c.check with
  | duplicates key input =>
    simp only [Validator.countDuplicatesUnder_eq_map c.dispatch c.validator s input,
      Action.within_map, Functor.map_map]
  | sentinel input invalid =>
    simp only [Validator.refuseSentinelUnder_eq_map c.dispatch c.validator s input invalid,
      Action.within_map, Functor.map_map]

/-- A call does the same on all streams of a device, and counts itself on its own. -/
theorem perform_apply (c : Call ι κ) (s : Stream) (maps : Maps length) :
    c.perform s maps =
      ⟨(c.alone s.device maps).state, (c.alone s.device maps).events,
        (c.alone s.device maps).result.map fun answer => (answer, s.counted)⟩ := by
  rw [perform_eq_map, alone, Action.map_apply, Action.map_apply]
  rcases (c.perform (Stream.create s.device) maps).result with fault | answer <;> rfl

/-- A call without a grid is that fault, and leaves the maps as they were. -/
theorem alone_of_noGrid {c : Call ι κ} {fault : Fault}
    (h : c.validator.grid c.check.elements = .error fault) (device : Device)
    (maps : Maps length) : c.alone device maps = ⟨maps, [], .error fault⟩ := by
  rw [alone, Action.map_apply, perform]
  cases hcheck : c.check with
  | duplicates key input =>
    rw [hcheck] at h
    simp only [Action.map_apply, Action.within, Validator.countDuplicatesUnder_of_noGrid h]
    simp [Maps.part, Except.map]
  | sentinel input invalid =>
    rw [hcheck] at h
    simp only [Action.map_apply, Action.within, Validator.refuseSentinelUnder_of_noGrid h]
    rfl

/-- A call with a block size or a tile size of zero is a fault. -/
theorem alone_of_noSize {c : Call ι κ}
    (h : c.validator.config.blockSize = 0 ∨ c.validator.config.elementsPerBlock = 0)
    (device : Device) (maps : Maps length) :
    c.alone device maps = ⟨maps, [],
      .error (if c.validator.config.blockSize = 0 then .emptyBlock else .emptyTile)⟩ := by
  refine alone_of_noGrid ?_ device maps
  rw [Validator.grid, Grid.ofConfig, Grid.covering]
  by_cases hblock : c.validator.config.blockSize = 0
  · simp [hblock]
  · have htile := h.resolve_left hblock
    have hne : c.validator.config.blockSize.toNat ≠ 0 := fun heq =>
      hblock (UInt64.toNat_inj.mp heq)
    simp [hblock, htile, hne]

/-- A call on an empty batch comes to an answer. -/
theorem alone_of_empty {c : Call ι κ} (hblock : 0 < c.validator.config.blockSize.toNat)
    (htile : 0 < c.validator.config.elementsPerBlock.toNat) (hempty : c.check.elements = 0)
    (device : Device) (maps : Maps length) : (c.alone device maps).result.isOk = true := by
  obtain ⟨g, hgrid⟩ := Validator.exists_grid hblock htile c.check.elements
  -- without elements there are no blocks, and so no lane that could overflow
  have hfits : g.Fits := by
    rw [Validator.grid, Grid.ofConfig_of_pos hblock htile, hempty] at hgrid
    intro block hlt
    rw [← Except.ok.inj hgrid, Nat.zero_add, Nat.div_eq_of_lt (by omega)] at hlt
    cases hlt
  rw [alone, Action.map_apply, perform]
  cases hcheck : c.check with
  | duplicates key input =>
    rw [hcheck] at hempty hgrid
    obtain rfl : input = #[] := Array.eq_empty_of_size_eq_zero hempty
    have hexact :=
      Validator.overrunsExactly hgrid hfits c.dispatch (Stream.create device) (maps key)
    simp only [Action.map_apply, Action.within, Maps.part]
    rcases hresult : (c.validator.countDuplicatesUnder c.dispatch (Stream.create device) #[]
      (maps key)).result with fault | answer
    · simpa using hexact.error_iff.mp ⟨fault, hresult⟩
    · rfl
  | sentinel input invalid =>
    rw [hcheck] at hempty hgrid
    obtain rfl : input = #[] := Array.eq_empty_of_size_eq_zero hempty
    have hexact := Validator.refusesExactly hgrid hfits (Stream.create device) invalid
    simp only [Action.map_apply, Action.within, (hexact.ok_iff c.dispatch).mpr (by simp)]
    rfl

end Call

/-! ## Streams behind locks -/

/-- A stream behind a lock. -/
structure Queue where
  stream : Stream
  /-- A kernel came to a fault while the lock was held. -/
  isPoisoned : Bool

namespace Queue

/-- Taking the lock; a poisoned lock gives its stream as an error. -/
def lock (q : Queue) : Except Stream Stream :=
  if q.isPoisoned then .error q.stream else .ok q.stream

/-- The stream, whether or not its lock is poisoned. -/
def enter (q : Queue) : Stream :=
  match q.lock with
  | .ok stream => stream
  | .error stream => stream

/-- What is left after a call: a call that came to a fault counts nothing, and poisons the lock if
it had a grid to launch, since it held the lock then. -/
def leave {α : Type} (q : Queue) (heldLock : Bool) : Except Fault (α × Stream) → Queue
  | .ok (_, stream) => { q with stream }
  | .error _ => { q with isPoisoned := q.isPoisoned || heldLock }

/-- A poisoned lock hands out the stream that it keeps. -/
theorem enter_eq (q : Queue) : q.enter = q.stream := by
  unfold enter lock
  cases q.isPoisoned <;> rfl

end Queue

/-- Streams and presence maps at work. -/
structure Bench (ι : Type) {κ : Type} (length : κ → Nat) where
  queues : ι → Queue
  maps : Maps length

/-- A call that was made, with the maps that it found and what it came to. -/
structure Record (ι : Type) {κ : Type} (length : κ → Nat) where
  call : Call ι κ
  found : Maps length
  outcome : Outcome Fault (Maps length) (Option Nat)

namespace Bench

/-- New streams of a device. -/
def create (device : Device) (maps : Maps length) : Bench ι length :=
  ⟨fun _ => ⟨Stream.create device, false⟩, maps⟩

/-- What a call comes to here. -/
def outcome (b : Bench ι length) (c : Call ι κ) :
    Outcome Fault (Maps length) (Option Nat × Stream) :=
  c.perform (b.queues c.stream).enter b.maps

/-- The record of a call. -/
def record (b : Bench ι length) (c : Call ι κ) : Record ι length :=
  ⟨c, b.maps, (b.outcome c).state, (b.outcome c).events, (b.outcome c).result.map Prod.fst⟩

/-- All streams are of one device. -/
def OnDevice (device : Device) (b : Bench ι length) : Prop :=
  ∀ k, (b.queues k).stream.device = device

variable {b : Bench ι length} {device : Device}

/-- A call comes to what it comes to on a new stream, and counts itself if that is an answer. -/
theorem outcome_eq (h : b.OnDevice device) (c : Call ι κ) :
    b.outcome c =
      ⟨(c.alone device b.maps).state, (c.alone device b.maps).events,
        (c.alone device b.maps).result.map fun answer =>
          (answer, (b.queues c.stream).stream.counted)⟩ := by
  rw [outcome, Queue.enter_eq, Call.perform_apply, h c.stream]

/-- The record of a call says what the call comes to on a new stream. -/
theorem outcome_record (h : b.OnDevice device) (c : Call ι κ) :
    (b.record c).outcome = c.alone device b.maps := by
  rw [record, outcome_eq h]
  rcases c.alone device b.maps with ⟨maps, events, fault | answer⟩ <;> rfl

variable [DecidableEq ι]

/-- What a call leaves. -/
def after (b : Bench ι length) (c : Call ι κ) : Bench ι length where
  queues := Function.update b.queues c.stream ((b.queues c.stream).leave
    (c.validator.grid c.check.elements).isOk (b.outcome c).result)
  maps := (b.outcome c).state

/-- What several calls leave. -/
def follow (b : Bench ι length) (calls : List (Call ι κ)) : Bench ι length := calls.foldl after b

/-- The records of several calls, one after another. -/
def records (b : Bench ι length) : List (Call ι κ) → List (Record ι length)
  | [] => []
  | c :: rest => b.record c :: (b.after c).records rest

/-- Whether a call was on this stream and came to an answer. -/
def counts (k : ι) (r : Record ι length) : Bool := r.call.stream = k && r.outcome.result.isOk

/-- A call leaves its stream on the device, with one launch more if it came to an answer, and the
other streams as they were. -/
theorem stream_after (h : b.OnDevice device) (c : Call ι κ) (k : ι) :
    ((b.after c).queues k).stream.device = device ∧
      ((b.after c).queues k).stream.launches =
        (b.queues k).stream.launches + if counts k (b.record c) then 1 else 0 := by
  rw [counts, outcome_record h]
  change _ ∧ _ = _ + if decide (c.stream = k) && (c.alone device b.maps).result.isOk then 1 else 0
  by_cases hk : c.stream = k
  · subst hk
    simp only [after, Function.update_self, outcome_eq h]
    rcases (c.alone device b.maps).result with fault | answer
    · simp [Queue.leave, Except.map, Except.isOk, Except.toBool, h c.stream]
    · simp [Queue.leave, Except.map, Except.isOk, Except.toBool, Stream.counted, h c.stream]
  · simp [after, Function.update_of_ne (Ne.symm hk), hk, h k]

/-- Calls leave the streams on their device. -/
theorem OnDevice.after (h : b.OnDevice device) (c : Call ι κ) : (b.after c).OnDevice device :=
  fun k => (stream_after h c k).1

/-- After any calls, a stream has counted its calls that came to an answer. -/
theorem launches_follow (h : b.OnDevice device) (calls : List (Call ι κ)) (k : ι) :
    ((b.follow calls).queues k).stream.launches = (b.queues k).stream.launches +
      UInt64.ofNat ((b.records calls).countP (counts k)) := by
  induction calls generalizing b with
  | nil => simp [follow, records]
  | cons c rest ih =>
    calc ((b.follow (c :: rest)).queues k).stream.launches
        = ((b.after c).queues k).stream.launches +
            UInt64.ofNat (((b.after c).records rest).countP (counts k)) := ih (h.after c)
      _ = (b.queues k).stream.launches + ((if counts k (b.record c) then 1 else 0) +
            UInt64.ofNat (((b.after c).records rest).countP (counts k))) := by
        rw [(stream_after h c k).2, UInt64.add_assoc]
      _ = (b.queues k).stream.launches +
            UInt64.ofNat ((b.records (c :: rest)).countP (counts k)) := by
        rw [records, List.countP_cons]
        split <;> simp [UInt64.add_comm]

/-- Each of several calls comes to what it comes to on a new stream. -/
theorem outcome_of_mem_records (h : b.OnDevice device) {calls : List (Call ι κ)}
    {r : Record ι length} (hr : r ∈ b.records calls) :
    r.outcome = r.call.alone device r.found := by
  induction calls generalizing b with
  | nil => cases hr
  | cons c rest ih =>
    rcases List.mem_cons.mp hr with rfl | hr
    · exact outcome_record h c
    · exact ih (h.after c) hr

/-- The records are about the calls in their order. -/
theorem map_call_records (b : Bench ι length) (calls : List (Call ι κ)) :
    (b.records calls).map Record.call = calls := by
  induction calls generalizing b with
  | nil => rfl
  | cons c rest ih => exact congrArg (c :: ·) (ih (b.after c))

/-- Each call finds the maps that the one before it left. -/
theorem maps_records (b : Bench ι length) (calls : List (Call ι κ)) :
    (b.records calls).map Record.found ++ [(b.follow calls).maps] =
      b.maps :: (b.records calls).map fun r => r.outcome.state := by
  induction calls generalizing b with
  | nil => rfl
  | cons c rest ih => exact congrArg (b.maps :: ·) (ih (b.after c))

/-- What calls come to, on streams of a device that have counted nothing yet. -/
structure EachAlone (device : Device) (b : Bench ι length) (calls : List (Call ι κ)) : Prop where
  /-- There is a record of every call. -/
  complete : (b.records calls).map Record.call = calls
  /-- Each call finds the maps that the one before it left. -/
  threaded : (b.records calls).map Record.found ++ [(b.follow calls).maps] =
    b.maps :: (b.records calls).map fun r => r.outcome.state
  /-- Each call comes to what it comes to on a new stream with the maps that it finds. -/
  alone : ∀ r ∈ b.records calls, r.outcome = r.call.alone device r.found
  /-- A stream has counted its calls that came to an answer, and no others. -/
  launches : ∀ k, ((b.follow calls).queues k).stream.launches =
    UInt64.ofNat ((b.records calls).countP (counts k))
  /-- The count is exact up to the largest number of 64 bits. -/
  toNat_launches : ∀ k, (b.records calls).countP (counts k) < 2 ^ 64 →
    ((b.follow calls).queues k).stream.launches.toNat = (b.records calls).countP (counts k)

/-- Calls on new streams of a device come to what each of them comes to alone. -/
theorem eachAlone (device : Device) (maps : Maps length) (calls : List (Call ι κ)) :
    EachAlone device (create device maps) calls := by
  have hdevice : (create device maps : Bench ι length).OnDevice device := fun _ => rfl
  have hlaunches (k : ι) : (((create device maps).follow calls).queues k).stream.launches =
      UInt64.ofNat (((create device maps).records calls).countP (counts k)) := by
    rw [launches_follow hdevice calls k]
    exact UInt64.zero_add _
  constructor
  case complete => exact map_call_records _ calls
  case threaded => exact maps_records _ calls
  case alone => exact fun r hr => outcome_of_mem_records hdevice hr
  case launches => exact hlaunches
  case toNat_launches =>
    intro k hlt
    rw [hlaunches k, UInt64.toNat_ofNat_of_lt' hlt]

/-- Any calls on the streams of a device leave streams and maps well defined. A stream counts the
calls that came to an answer, those on empty batches included; a call comes to what it comes to
alone; without a grid it leaves everything as it was. A duplicate check with a grid whose lanes fit
comes to a fault exactly if its batch overruns the map, and marks only values of the batch. The
checks that one worker makes are among these calls. -/
theorem aborted_checks_well_defined (device : Device) (maps : Maps length)
    (calls : List (Call ι κ)) :
    EachAlone device (create device maps) calls ∧
      (∀ (c : Call ι κ) (found : Maps length),
        c.validator.config.blockSize = 0 ∨ c.validator.config.elementsPerBlock = 0 →
        c.alone device found = ⟨found, [],
          .error (if c.validator.config.blockSize = 0 then .emptyBlock else .emptyTile)⟩) ∧
      (∀ (c : Call ι κ) (found : Maps length), 0 < c.validator.config.blockSize.toNat →
        0 < c.validator.config.elementsPerBlock.toNat → c.check.elements = 0 →
        (c.alone device found).result.isOk = true) ∧
      (∀ (d : Dispatch) (v : Validator) (stream : Stream) (size : Nat) (input : Array Id)
        (p : Presence size) (g : Grid), v.grid input.size = .ok g → g.Fits →
        v.OverrunsExactly d stream g input p) ∧
      ∀ (v : Validator) (stream : Stream) (input : Array Id),
        (∀ (size : Nat) (p : Presence size),
          v.countDuplicatesUnder .oneWorker stream input p = v.countDuplicates stream input p) ∧
        ∀ invalid, v.refuseSentinelUnder .oneWorker stream input invalid =
          v.refuseSentinel stream input invalid := by
  refine ⟨eachAlone device maps calls, fun _ found h => Call.alone_of_noSize h device found,
    fun _ found hblock htile hempty => Call.alone_of_empty hblock htile hempty device found,
    fun d v stream _ input p g hgrid hfits => Validator.overrunsExactly hgrid hfits d stream p,
    fun _ _ _ => ⟨fun _ _ => rfl, fun _ => rfl⟩⟩

/-- A duplicate check overruns the map at the last element of its only block, one without a block
size has no grid, and a third one finds the two values marked that came before the fault; on another
stream a sentinel is refused and an empty batch is not. Each stream has counted one launch. -/
theorem aborted_checks_well_defined_five :
    ∃ (v : Validator) (device : Device) (maps : Maps fun _ : Unit => 3)
      (calls : List (Call Bool Unit)),
      (∀ k, (((create device maps).follow calls).queues k).stream.launches.toNat = 1) ∧
      ((create device maps).records calls).map (fun r => r.outcome.result) =
        [.error (.beyondPresence 7 1 3), .error .emptyBlock, .ok (some 2),
          .error (.invalidValue 5 0), .ok none] ∧
      ∀ d, ∃ fault, (v.countDuplicatesUnder d (Stream.create device) #[1, 7, 2] (maps ())).result =
        .error fault := by
  let v : Validator := ⟨{ blockSize := 2, elementsPerBlock := 4 }⟩
  let maps : Maps fun _ : Unit => 3 := fun _ => ⟨.cpu, 4096, #v[0, 0, 0]⟩
  let calls : List (Call Bool Unit) :=
    [⟨true, v, .oneWorker, .duplicates () #[1, 7, 2]⟩,
      ⟨true, ⟨{ blockSize := 0 }⟩, .oneWorker, .duplicates () #[1, 2]⟩,
      ⟨true, v, .oneWorker, .duplicates () #[1, 2]⟩,
      ⟨false, v, .oneWorker, .sentinel #[5] 5⟩, ⟨false, v, .oneWorker, .sentinel #[] 5⟩]
  obtain ⟨halone, -, -, hoverruns, -⟩ := aborted_checks_well_defined ⟨.cpu, {}⟩ maps calls
  have hgrid : v.grid 3 = .ok ⟨1, 2, 4, 3⟩ := by decide +kernel
  have hexact := fun d => hoverruns d v (Stream.create ⟨.cpu, {}⟩) 3 #[1, 7, 2] (maps ()) _ hgrid
    (by decide +kernel)
  have hcounts (k : Bool) : ((create ⟨.cpu, {}⟩ maps).records calls).countP (counts k) = 1 := by
    cases k <;> decide +kernel
  refine ⟨v, ⟨.cpu, {}⟩, maps, calls, fun k => ?_, by decide +kernel, fun d => ?_⟩
  · rw [halone.toNat_launches k (by rw [hcounts]; decide), hcounts]
  · exact (hexact d).error_iff.mpr ⟨7, by simp, by decide⟩

end Bench

end IdCompaction
