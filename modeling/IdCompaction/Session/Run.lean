import IdCompaction.Session.Checks
import IdCompaction.Session.Memories
import IdCompaction.Session.Tables

/-!
# Sessions

A session makes its steps in order and reports on each: its answer or its failure, and the events of
the library during the step. A failed step creates nothing, and the session goes on.
-/

namespace IdCompaction.Session

/-- Makes one step. -/
def perform : Step → Work Answer
  | .openPool name config => openPool name config
  | .poolWorker pool => poolWorker pool
  | .visitIndices pool count raiseAt => visitIndices pool count raiseAt
  | .updateElements pool data factor raiseAt => updateElements pool data factor raiseAt
  | .openMemory name maxBytes maxCalls => openMemory name maxBytes maxCalls
  | .memoryCounts memory => memoryCounts memory
  | .describeMemory memory => describeMemory memory
  | .allocate name memory context kind count => allocate name memory context kind count
  | .buildBuffer name memory context kind length factor offset raiseAt =>
    buildBuffer name memory context kind length factor offset raiseAt
  | .showBuffer buffer => showBuffer buffer
  | .setElement buffer index value => setElement buffer index value
  | .countDropped => countDropped
  | .drop name => drop name
  | .openTable name capacity place => openTable name capacity place
  | .showTable table => showTable table
  | .insert table id => insert table id
  | .populate table pool ids => populate table pool ids
  | .race table lists pool => race table lists pool
  | .copyNodes table pool length fill => copyNodes table pool length fill
  | .uniqueNodes table pool sorted => uniqueNodes table pool sorted
  | .mapEdges table pool src dst fill newSrcLength newDstLength restore =>
    mapEdges table pool src dst fill newSrcLength newDstLength restore
  | .lookUp table id => lookUp table id
  | .lookUpAll table ids => lookUpAll table ids
  | .ownerOf table number => ownerOf table number
  | .ownersOf table numbers => ownersOf table numbers
  | .checkTable table => checkTable table
  | .clearTable table pool => clearTable table pool
  | .openDevice name context config => openDevice name context config
  | .openStream name device => openStream name device
  | .showStream stream => showStream stream
  | .launch stream request raiseAt => launch stream request raiseAt
  | .openPresence name stream memory length => openPresence name stream memory length
  | .showPresence presence => showPresence presence
  | .clearPresence presence first => clearPresence presence first
  | .setPresence presence index value => setPresence presence index value
  | .openValidator name request => openValidator name request
  | .countDuplicates stream presence input validator =>
    countDuplicates stream presence input validator
  | .refuseSentinel stream input invalid validator => refuseSentinel stream input invalid validator

/-- What a step came to. -/
structure Report where
  result : Except Stop Answer
  events : List Event

/-- Makes steps one after another. -/
def runFrom (s : State) : List Step → List Report
  | [] => []
  | step :: rest =>
    match perform step s with
    | ⟨s', events, result⟩ => ⟨result, events⟩ :: runFrom s' rest

/-- Makes the steps of a session. -/
def run (steps : List Step) : List Report := runFrom State.start steps

end IdCompaction.Session
