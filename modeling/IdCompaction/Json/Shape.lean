import IdCompaction.Json.Skip

/-!
# Shapes of records

A shape says how a record stands in a document: the name of its type and its fields in order. It is
read from an object, whose members may come in any order and be missing, or from a list of the first
fields in order; fields that are not there keep their defaults. Members that the shape does not know
are skipped, and a field that comes twice is an error. It is written as an object with every field.
-/

namespace IdCompaction.Json

/-- One field of a record `σ`. -/
structure Shape.Field (σ : Type) where
  name : String
  /-- Reads a value, as the change that it makes to the record. -/
  reader : Reader (σ → σ)
  /-- The tokens of the value. -/
  tokens : σ → List String

/-- How a record stands in a document. -/
structure Shape (σ : Type) where
  /-- What an error says was expected. -/
  expected : String
  /-- The record without any field set. -/
  default : σ
  fields : List (Shape.Field σ)

/-- The token of a name without characters to escape. -/
def nameToken (name : String) : String := "\"" ++ name ++ "\""

/-- The tokens of an object, member by member. -/
def objectTokens (members : List (String × List String)) : List String :=
  let written := members.map fun (name, tokens) => nameToken name :: ":" :: tokens
  "\x7b" :: (written.intersperse [","]).flatten ++ ["\x7d"]

namespace Shape

open Reader

variable {σ : Type}

/-- The field with a given name, spelled in bytes. -/
def field? (shape : Shape σ) (name : Bytes) : Option (Field σ) :=
  shape.fields.find? fun field => field.name.toUTF8.toList == name

/-- The next key of an object, or nothing at its end. -/
def memberKey (isFirst : Bool) : Reader (Option Bytes) := do
  let byte ← token .endInObject
  if byte = 0x7D then return none
  else if isFirst then
    if byte = 0x22 then return some (← Text.body false) else failHere .keyNotString
  else if byte = 0x2C then
    let byte ← token .endInValue
    if byte = 0x22 then return some (← Text.body false)
    else if byte = 0x7D then failHere .trailingComma
    else failHere .keyNotString
  else failHere .expectedObjectEnd

/-- Halts because a field comes twice. The place is after any blanks and the object's end, if it is
there. -/
def repeated (name : String) : Reader Unit := do
  let _ ← takeWhile isBlank
  let _ ← accept 0x7D
  failHere (.duplicateField name)

/-- What follows the key of a member: nothing is changed by an unknown one. -/
def member (shape : Shape σ) (seen : List String) (key : Bytes) :
    Reader (Option String × (σ → σ)) := do
  match shape.field? key with
  | none =>
    Value.colon
    Skip.value
    return (none, id)
  | some field =>
    if field.name ∈ seen then repeated field.name
    Value.colon
    let change ← field.reader
    return (some field.name, change)

/-- The rest of an object; `seen` are the fields that came before, and `record` is what they made.
-/
def readMembers (shape : Shape σ) (isFirst : Bool) (seen : List String) (record : σ)
    (text : Bytes) : Except Halt (σ × Bytes) :=
  match hkey : (memberKey isFirst).read text with
  | .error halt => .error halt
  | .ok (none, rest) => .ok (record, rest)
  | .ok (some key, rest) =>
    match hmember : (shape.member seen key).read rest with
    | .error halt => .error halt
    | .ok ((name, change), rest') =>
      have : rest'.length < text.length :=
        Nat.lt_of_le_of_lt ((shape.member seen key).length_le hmember)
          (length_lt_of_token_bind hkey)
      readMembers shape false (name.toList ++ seen) (change record) rest'
termination_by text.length

/-- Reading members never makes a text longer. -/
theorem length_le_of_readMembers {shape : Shape σ} {isFirst : Bool} {seen : List String}
    {record : σ} {text rest : Bytes} {value : σ}
    (h : readMembers shape isFirst seen record text = .ok (value, rest)) :
    rest.length ≤ text.length := by
  fun_induction readMembers shape isFirst seen record text with
  | case1 => simp at h
  | case2 isFirst seen record text rest' hkey =>
    injection h with h
    injection h with _ h
    exact h ▸ (memberKey isFirst).length_le hkey
  | case3 => simp at h
  | case4 _ _ _ _ _ _ _ _ _ _ _ hlt ih => exact Nat.le_of_lt (Nat.lt_of_le_of_lt (ih h) hlt)

/-- The rest of an object after its opener. -/
def members (shape : Shape σ) : Reader σ :=
  ⟨readMembers shape true [] shape.default, length_le_of_readMembers⟩

/-- Whether a list goes on with another element. -/
def moreElements (isFirst : Bool) : Reader Bool := do
  match ← peekToken with
  | none => failNext .endInList
  | some byte =>
    if byte = 0x5D then
      let _ ← next
      return false
    else if isFirst then return true
    else if byte = 0x2C then
      let _ ← next
      match ← peekToken with
      | none => failNext .endInValue
      | some byte => if byte = 0x5D then failNext .trailingComma else return true
    else failNext .expectedListEnd

/-- The end of a list that has an element for every field. -/
def listEnd : Reader Unit := do
  let byte ← token .endInList
  if byte = 0x5D then return ()
  else if byte = 0x2C then
    if (← peekToken) = some 0x5D then failNext .trailingComma else failNext .trailingCharacters
  else failHere .trailingCharacters

/-- The rest of a list, one element for each field. -/
def elements (isFirst : Bool) : List (Field σ) → σ → Reader σ
  | [], record => do
    listEnd
    return record
  | field :: fields, record => do
    if ← moreElements isFirst then
      let change ← field.reader
      elements false fields (change record)
    else return record

/-- Reads a record. -/
def reader (shape : Shape σ) : Reader σ := do
  let first ← token .endInValue
  if first = 0x7B then shape.members
  else if first = 0x5B then elements true shape.fields shape.default
  else Value.wrongType first shape.expected

/-- The tokens of a record. -/
def tokens (shape : Shape σ) (record : σ) : List String :=
  objectTokens (shape.fields.map fun field => (field.name, field.tokens record))

end Shape

end IdCompaction.Json
