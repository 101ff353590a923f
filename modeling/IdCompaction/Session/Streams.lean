import IdCompaction.Session.Pools

/-!
# Steps on devices and streams

Opening devices and streams, and launching a kernel that records every thread's visit.
-/

namespace IdCompaction.Session

/-- Opens a device. -/
def openDevice (name : String) (context : Context) (config : DeviceConfig) : Work Answer := do
  let device ← Device.create context config
  Action.modify fun s => { s with devices := s.devices.put name device }
  return .device device

/-- Opens a stream on a device. -/
def openStream (name deviceName : String) : Work Answer := do
  let stream := Stream.create (← device deviceName)
  Action.modify fun s => { s with streams := s.streams.put name stream }
  return .stream stream

/-- Shows a stream. -/
def showStream (name : String) : Work Answer := return .stream (← stream name)

/-- Puts back a stream after a launch. -/
def putStream (name : String) (stream : Stream) : Work Unit :=
  Action.modify fun s => { s with streams := s.streams.put name stream }

/-- What a recording kernel writes down. -/
structure Recording where
  /-- Some thread has begun, whether or not it came to its visit. -/
  hasBegun : Bool
  visits : Array Visit

/-- One access of a recording kernel. -/
inductive RecordingAccess
  | begin
  | write (visit : Visit)

/-- The effect of one access. -/
def RecordingAccess.apply : RecordingAccess → Recording → Unit × Recording
  | .begin, r => ((), { r with hasBegun := true })
  | .write visit, r => ((), { r with visits := r.visits.push visit })

instance : SharedMemory Recording RecordingAccess (fun _ => Unit) := ⟨RecordingAccess.apply⟩

/-- Records the visit of one thread. -/
def recordingKernel (raiseAt : Option (Nat × Nat)) (lane : Lane) :
    Routine RecordingAccess (fun _ => Unit) Unit := do
  .ask .begin
  if raiseAt = some (lane.block, lane.thread) then
    .stop (.raised s!"kernel abort in block {lane.block} thread {lane.thread}")
  else
    let global ← Routine.ofExcept lane.global
    let indices ← Routine.ofExcept lane.indices
    .ask (.write ⟨lane.block, lane.thread, global, indices.toList⟩)

/-- What a recording launch shows. -/
def record (stream : Stream) (recording : Recording) : Answer :=
  .launch
    { launches := stream.launches
      visits := recording.visits.toList
      isShared := 1 < stream.device.workers
      worker := if recording.hasBegun then some (stream.device.workerName 0) else none }

/-- Launches the recording kernel. A grid that cannot be built is no launch and leaves nothing. -/
def launch (name : String) (request : GridRequest) (raiseAt : Option (Nat × Nat)) :
    Work Answer := do
  let stream ← stream name
  let grid ← checked request.grid
  match stream.launch grid (recordingKernel raiseAt) ⟨false, #[]⟩ with
  | ⟨recording, events, .ok launched⟩ =>
    events.forM Action.emit
    putStream name launched
    return record launched recording
  | ⟨recording, events, .error fault⟩ =>
    events.forM Action.emit
    Action.fail ⟨.fault fault, some (record stream recording)⟩

end IdCompaction.Session
