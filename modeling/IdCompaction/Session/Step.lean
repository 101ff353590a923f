import IdCompaction.Table.Batch
import IdCompaction.Validation.Validator

/-!
# Steps and answers

A session works on named objects, one step after another. Each step is one use of the library on the
objects it names, and each has an answer. Callbacks that a step hands to the library can be told to
raise a fault at one place, so that what a fault leaves behind can be looked at.
-/

namespace IdCompaction.Session

/-- The kinds of elements that a buffer of a session holds. -/
inductive ElementKind
  | byte
  | word32
  | word64
  /-- Elements without size. -/
  | unit
  /-- Words of 64 bits that are counted when they are let go. -/
  | counted
  deriving DecidableEq

namespace ElementKind

/-- The layout of one element. -/
def layout : ElementKind → Layout
  | .byte => ⟨1, 1⟩
  | .word32 => ⟨4, 4⟩
  | .word64 => ⟨8, 8⟩
  | .unit => ⟨0, 1⟩
  | .counted => ⟨8, 8⟩

/-- What an element keeps of a word. -/
def keep (kind : ElementKind) (value : Nat) : UInt64 :=
  match kind with
  | .byte => value.toUInt8.toUInt64
  | .word32 => value.toUInt32.toUInt64
  | .word64 => value.toUInt64
  | .unit => 0
  | .counted => value.toUInt64

end ElementKind

/-- Where a batch of IDs comes from. -/
inductive IdSource
  | listed (ids : Array Id)
  /-- The numbers `(i * factor + offset) % modulus` for the first `count` values of `i`, computed as
  checked sizes and cut down to IDs. -/
  | generated (count factor offset modulus : Nat)
  /-- The claimed IDs of a table. -/
  | claimed (table pool : String)

/-- Which grid a launch asks for. -/
structure GridRequest where
  elements : Nat
  blockSize : Nat
  tileSize : Nat
  /-- Take the shape through a device configuration. -/
  fromConfig : Bool
  /-- Take this number of blocks, whatever it covers, and check nothing. -/
  blocks : Option Nat

/-- The grid that is asked for. -/
def GridRequest.grid (r : GridRequest) : Except Fault Grid :=
  match r.blocks with
  | some blocks => .ok ⟨blocks, r.blockSize, r.tileSize, r.elements⟩
  | none =>
    if r.fromConfig then
      Grid.ofConfig r.elements
        { blockSize := r.blockSize.toUInt64, elementsPerBlock := r.tileSize.toUInt64 }
    else Grid.covering r.elements r.blockSize r.tileSize

/-- Which grid shape a validator gets. -/
inductive ValidatorRequest
  | ofStream (stream : String)
  | ofConfig (config : DeviceConfig)
  | standard

/-- One step of a session. -/
inductive Step
  -- pools
  | openPool (name : String) (config : ParallelConfig)
  | poolWorker (pool : String)
  | visitIndices (pool : String) (count : Nat) (raiseAt : Option Nat)
  | updateElements (pool : String) (data : IdSource) (factor : Nat) (raiseAt : Option Nat)
  -- memory
  | openMemory (name : String) (maxBytes maxCalls : Option Nat)
  | memoryCounts (memory : String)
  | describeMemory (memory : String)
  | allocate (name memory : String) (context : Context) (kind : ElementKind) (count : Nat)
  | buildBuffer (name memory : String) (context : Context) (kind : ElementKind)
      (length factor offset : Nat) (raiseAt : Option Nat)
  | showBuffer (buffer : String)
  | setElement (buffer : String) (index value : Nat)
  | countDropped
  | drop (name : String)
  -- tables
  | openTable (name : String) (capacity : Nat) (place : Option (String × Context))
  | showTable (table : String)
  | insert (table : String) (id : Id)
  | populate (table pool : String) (ids : IdSource)
  | race (table : String) (lists : List IdSource) (pool : Option String)
  | copyNodes (table pool : String) (length : Nat) (fill : Id)
  | uniqueNodes (table pool : String) (sorted : Bool)
  | mapEdges (table pool : String) (src dst : IdSource) (fill : Id)
      (newSrcLength newDstLength : Option Nat) (restore : Bool)
  | lookUp (table : String) (id : Id)
  | lookUpAll (table : String) (ids : IdSource)
  | ownerOf (table : String) (number : Id)
  | ownersOf (table : String) (numbers : IdSource)
  | checkTable (table : String)
  | clearTable (table pool : String)
  -- devices and streams
  | openDevice (name : String) (context : Context) (config : DeviceConfig)
  | openStream (name device : String)
  | showStream (stream : String)
  | launch (stream : String) (request : GridRequest) (raiseAt : Option (Nat × Nat))
  -- validation
  | openPresence (name stream memory : String) (length : Nat)
  | showPresence (presence : String)
  | clearPresence (presence : String) (first : Option Nat)
  | setPresence (presence : String) (index : Nat) (value : Id)
  | openValidator (name : String) (request : ValidatorRequest)
  | countDuplicates (stream presence : String) (input : IdSource) (validator : Option String)
  | refuseSentinel (stream : String) (input : IdSource) (invalid : Id) (validator : Option String)

/-- One thread's visit of a recording kernel. -/
structure Visit where
  block : Nat
  thread : Nat
  global : Nat
  indices : List Nat

/-- What a recording launch leaves. -/
structure LaunchRecord where
  launches : UInt64
  visits : List Visit
  /-- More than one worker may have run blocks. -/
  isShared : Bool
  /-- The name of the only worker, if it ran. -/
  worker : Option String

/-- What a step answers. -/
inductive Answer
  | nothing
  | flag (value : Bool)
  | text (shown : String)
  | count (value : Nat)
  | counts (values : List Nat)
  | id (value : Option Id)
  | ids (values : List (Option Id))
  | pool (p : Pool)
  | memory (counts : Tally)
  | grant (isAligned isDangling : Bool)
  | buffer (kind : ElementKind) (length : Nat) (b : Buffer UInt64 length)
  | table (capacity : Nat) (t : Table capacity)
  | claimed (won : Bool) (numItems : Nat)
  | populated (numItems : Nat)
  | raced (wins numItems : Nat)
  | edges (src dst : List (Option Id))
  | consistency (isBijection : Bool) (claimed : Nat) (pastEnd : Option Id)
  | device (d : Device)
  | stream (s : Stream)
  | launch (record : LaunchRecord)
  | presence (length : Nat) (p : Presence length)
  | marked (flags : List (Nat × Id))
  | validator (v : Validator)
  | duplicates (found : Nat) (flags : List (Nat × Id)) (launches : UInt64)
  | launches (count : UInt64)

/-- Why a step failed. -/
inductive StepFailure
  | fault (fault : Fault)
  | refused (error : AllocError)
  /-- A name that stands for nothing of the kind that the step needs. -/
  | unknownName (name : String)

/-- A failed step: why, and what it left behind where a step shows that. -/
structure Stop where
  failure : StepFailure
  left : Option Answer

/-- A failure that leaves nothing to show. -/
def Stop.bare (failure : StepFailure) : Stop := ⟨failure, none⟩

/-- A fault that leaves nothing to show. -/
def Stop.ofFault (fault : Fault) : Stop := .bare (.fault fault)

/-- A failure of an allocation, which leaves nothing to show. -/
def Stop.ofFailure : Failure → Stop
  | .fault fault => .bare (.fault fault)
  | .refused error => .bare (.refused error)

end IdCompaction.Session
