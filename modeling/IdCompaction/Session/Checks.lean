import IdCompaction.Session.Streams

/-!
# Steps on presence maps and validators

Opening presence maps and validators, and checking batches.
-/

namespace IdCompaction.Session

/-- Opens a presence map on the context of a stream. -/
def openPresence (name streamName memoryName : String) (length : Nat) : Work Answer := do
  let stream ← stream streamName
  let memory ← memory memoryName
  let presence ← (Presence.allocate (service memory) stream length).mapError Stop.ofFailure
  Registry.presences.hold name { memory, length, presence }
  return .presence length presence

/-- An action on the presence map under a name. -/
def onPresence {α : Type} (name : String)
    (x : {length : Nat} → Action Fault (Presence length) α) : Work α := fun s =>
  match s.presences.find? name with
  | some held =>
    match x held.presence with
    | ⟨presence, events, result⟩ =>
      ⟨Registry.presences.update name { held with presence } s, events,
        result.mapError Stop.ofFault⟩
  | none => unknown name s

/-- The marked flags of a presence map. -/
def markedFlags (name : String) : Work (List (Nat × Id)) :=
  onPresence name (Action.gets Presence.marked)

/-- Shows a presence map. -/
def showPresence (name : String) : Work Answer := return .marked (← markedFlags name)

/-- Clears the flags of a presence map, all or the first ones. -/
def clearPresence (name : String) (first : Option Nat) : Work Answer := do
  onPresence name fun {length} =>
    let stop := first.getD length
    if stop ≤ length then Action.modify fun p => p.clearFirst stop
    else Action.fail (.rangeOutOfBounds length stop)
  showPresence name

/-- Sets one flag of a presence map. -/
def setPresence (name : String) (index : Nat) (value : Id) : Work Answer := do
  onPresence name fun {length} p =>
    if h : index < length then ⟨p.put ⟨index, h⟩ value, [], .ok ()⟩
    else ⟨p, [], .error (.indexOutOfBounds length index)⟩
  showPresence name

/-- Opens a validator. -/
def openValidator (name : String) (request : ValidatorRequest) : Work Answer := do
  let validator ← match request with
    | .ofStream streamName => Validator.ofStream <$> stream streamName
    | .ofConfig config => pure ⟨config⟩
    | .standard => pure default
  Action.modify fun s => { s with validators := s.validators.put name validator }
  return .validator validator

/-- The validator under a name, or the one of a stream's device. -/
def validatorFor (stream : Stream) : Option String → Work Validator
  | some name => need name fun s => s.validators.find? name
  | none => return Validator.ofStream stream

/-- Checks a batch for duplicates. -/
def countDuplicates (streamName presenceName : String) (input : IdSource)
    (validatorName : Option String) : Work Answer := do
  let stream ← stream streamName
  let validator ← validatorFor stream validatorName
  let input ← input.resolve
  let (found, launched) ← onPresence presenceName (validator.countDuplicates stream input)
  putStream streamName launched
  return .duplicates found (← markedFlags presenceName) launched.launches

/-- Checks that a batch does not hold an invalid ID. -/
def refuseSentinel (streamName : String) (input : IdSource) (invalid : Id)
    (validatorName : Option String) : Work Answer := do
  let stream ← stream streamName
  let validator ← validatorFor stream validatorName
  let input ← input.resolve
  let nothing : Part State Unit := ⟨fun _ => (), fun _ s => s⟩
  let check := (validator.refuseSentinel stream input invalid).mapError Stop.ofFault
  let launched ← check.within nothing
  putStream streamName launched
  return .launches launched.launches

end IdCompaction.Session
