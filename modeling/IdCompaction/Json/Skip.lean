import IdCompaction.Json.Value

/-!
# Skipped values

The values of unknown members are skipped. They are checked against the grammar, but nothing is
built from them, and they may be nested to any depth: the open lists and objects are kept on a
stack.
-/

namespace IdCompaction.Json

open Reader

/-- A list or an object around a value. -/
inductive Frame
  | list
  | object
  deriving DecidableEq

namespace Frame

/-- The byte that closes the frame. -/
def closer : Frame → UInt8
  | .list => 0x5D
  | .object => 0x7D

/-- What is wrong if the text ends inside. -/
def atEnd : Frame → Cause
  | .list => .endInList
  | .object => .endInObject

/-- What is wrong if neither a comma nor the closer follows an element. -/
def unclosed : Frame → Cause
  | .list => .expectedListEnd
  | .object => .expectedObjectEnd

end Frame

namespace Skip

/-- What stands before each value of a frame: in an object, a key and its colon. -/
def lead : Frame → Reader Unit
  | .list => return ()
  | .object => do
    if (← token .endInObject) = 0x22 then
      let _ ← Text.body true
      Value.colon
    else failHere .keyNotString

/-- Skips what follows the opener of a frame: the closer, or what leads to the first value. Answers
the frame if it goes on. -/
def enter (frame : Frame) : Reader (Option Frame) := do
  match ← peekToken with
  | none => failNext frame.atEnd
  | some byte =>
    if byte = frame.closer then
      let _ ← next
      return none
    else
      lead frame
      return some frame

/-- Skips the beginning of a value: all of a scalar or of an empty list or object, or the opener of
another and what leads to its first value. Answers the frame that was opened, if it goes on. -/
def begin : Reader (Option Frame) := do
  let first ← token .endInValue
  if first = 0x5B then enter .list
  else if first = 0x7B then enter .object
  else if Value.beginsNumber first then
    Number.skip first
    return none
  else if first = 0x22 then
    let _ ← Text.body true
    return none
  else if first = 0x6E then
    Value.word Value.nullRest
    return none
  else if first = 0x74 then
    Value.word Value.trueRest
    return none
  else if first = 0x66 then
    Value.word Value.falseRest
    return none
  else failHere .expectedValue

/-- Skips what follows a value in its frame: the closer, or a comma and what leads to the next
value. Answers whether the frame goes on. -/
def follow (frame : Frame) : Reader Bool := do
  let byte ← token frame.atEnd
  if byte = 0x2C then
    lead frame
    return true
  else if byte = frame.closer then return false
  else failHere frame.unclosed

/-- Where the skipping goes on: before a value or after one. -/
inductive Stage
  | before
  | after
  deriving DecidableEq

/-- Skips the rest of a value with the given frames open. -/
def run : Stage → List Frame → Bytes → Except Halt (Unit × Bytes)
  | .after, [], text => .ok ((), text)
  | .before, frames, text =>
    match h : begin.read text with
    | .error halt => .error halt
    | .ok (none, rest) =>
      have : rest.length < text.length := length_lt_of_token_bind h
      run .after frames rest
    | .ok (some frame, rest) =>
      have : rest.length < text.length := length_lt_of_token_bind h
      run .before (frame :: frames) rest
  | .after, frame :: frames, text =>
    match h : (follow frame).read text with
    | .error halt => .error halt
    | .ok (true, rest) =>
      have : rest.length < text.length := length_lt_of_token_bind h
      run .before (frame :: frames) rest
    | .ok (false, rest) =>
      have : rest.length < text.length := length_lt_of_token_bind h
      run .after frames rest
termination_by _ _ text => text.length

/-- Skipping never makes a text longer. -/
theorem length_le_of_run {stage : Stage} {frames : List Frame} {text rest : Bytes} {value : Unit}
    (h : run stage frames text = .ok (value, rest)) : rest.length ≤ text.length := by
  fun_induction run stage frames text with
  | case1 text =>
    injection h with h
    injection h with _ h
    exact h ▸ Nat.le_refl _
  | case2 => simp at h
  | case3 _ _ _ _ hlt ih => exact Nat.le_of_lt (Nat.lt_of_le_of_lt (ih h) hlt)
  | case4 _ _ _ _ _ hlt ih => exact Nat.le_of_lt (Nat.lt_of_le_of_lt (ih h) hlt)
  | case5 => simp at h
  | case6 _ _ _ _ _ hlt ih => exact Nat.le_of_lt (Nat.lt_of_le_of_lt (ih h) hlt)
  | case7 _ _ _ _ _ hlt ih => exact Nat.le_of_lt (Nat.lt_of_le_of_lt (ih h) hlt)

/-- Skips one value of any kind. -/
def value : Reader Unit := ⟨run .before [], length_le_of_run⟩

end Skip

end IdCompaction.Json
