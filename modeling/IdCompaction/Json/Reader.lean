import IdCompaction.Json.Error

/-!
# Readers

A reader takes something off the front of a text, which is a list of bytes, or halts with a cause
and the place where it applies. Places are counted from the end: a place is how many bytes of the
text lie behind it. That no reader lengthens what it reads is part of a reader, so that loops over
readers come to an end.
-/

namespace IdCompaction.Json

/-- A text, or what is left of it. -/
abbrev Bytes := List UInt8

/-- Why a reader stopped, and how many bytes lie behind the place; some causes have no place. -/
structure Halt where
  cause : Cause
  behind : Option Nat
  deriving DecidableEq

/-- A function that reads an `α` off the front of a text. -/
structure Reader (α : Type) where
  read : Bytes → Except Halt (α × Bytes)
  length_le : ∀ {text : Bytes} {value : α} {rest : Bytes},
    read text = .ok (value, rest) → rest.length ≤ text.length

namespace Reader

variable {α β : Type}

/-- Reads nothing. -/
protected def pure (value : α) : Reader α where
  read text := .ok (value, text)
  length_le h := by
    injection h with h
    injection h with _ h
    exact h ▸ Nat.le_refl _

/-- Reads one thing after another. -/
protected def bind (r : Reader α) (f : α → Reader β) : Reader β where
  read text :=
    match r.read text with
    | .error halt => .error halt
    | .ok (value, rest) => (f value).read rest
  length_le {text _ _} h := by
    rcases hr : r.read text with halt | ⟨value, rest⟩
    · simp [hr] at h
    · simp only [hr] at h
      exact Nat.le_trans ((f value).length_le h) (r.length_le hr)

instance : Monad Reader where
  pure := Reader.pure
  bind := Reader.bind

/-- Halts at the place that has been reached. -/
def failHere (cause : Cause) : Reader α where
  read text := .error ⟨cause, some text.length⟩
  length_le h := by simp at h

/-- Halts one byte further on, or at the end. -/
def failNext (cause : Cause) : Reader α where
  read text := .error ⟨cause, some (text.length - 1)⟩
  length_le h := by simp at h

/-- Halts some bytes before the place that has been reached. -/
def failBefore (count : Nat) (cause : Cause) : Reader α where
  read text := .error ⟨cause, some (text.length + count)⟩
  length_le h := by simp at h

/-- Halts without a place. -/
def failNowhere (cause : Cause) : Reader α where
  read _ := .error ⟨cause, none⟩
  length_le h := by simp at h

/-- The next byte, which stays. -/
def peek : Reader (Option UInt8) where
  read text := .ok (text.head?, text)
  length_le h := by
    injection h with h
    injection h with _ h
    exact h ▸ Nat.le_refl _

/-- Takes the next byte. -/
def next : Reader (Option UInt8) where
  read text := .ok (text.head?, text.tail)
  length_le {text _ _} h := by
    injection h with h
    injection h with _ h
    subst h
    simp

/-- Takes bytes as long as they pass a test. -/
def takeWhile (test : UInt8 → Bool) : Reader Bytes where
  read text := .ok (text.takeWhile test, text.dropWhile test)
  length_le {text _ _} h := by
    injection h with h
    injection h with _ h
    subst h
    exact (List.dropWhile_suffix test).length_le

/-- Space, line feed, carriage return and tab separate tokens. -/
def isBlank (byte : UInt8) : Bool := byte == 0x20 || byte == 0x0A || byte == 0x0D || byte == 0x09

/-- A decimal digit. -/
def isDigit (byte : UInt8) : Bool := 0x30 ≤ byte && byte ≤ 0x39

/-- The next byte after any blanks, which stays. -/
def peekToken : Reader (Option UInt8) := do
  let _ ← takeWhile isBlank
  peek

/-- Takes the next byte if it is the given one; says whether it was. -/
def accept (byte : UInt8) : Reader Bool := do
  if (← peek) = some byte then
    let _ ← next
    return true
  else return false

/-- Takes the next byte, which must be there. -/
def nextOr (atEnd : Cause) : Reader UInt8 where
  read
    | [] => .error ⟨atEnd, some 0⟩
    | byte :: rest => .ok (byte, rest)
  length_le {text _ _} h := by
    match text with
    | [] => simp at h
    | byte :: rest =>
      injection h with h
      injection h with _ h
      subst h
      exact Nat.le_succ _

/-- Takes the next byte after any blanks, which must be there. -/
def token (atEnd : Cause) : Reader UInt8 := do
  let _ ← takeWhile isBlank
  nextOr atEnd

/-! ## Equations -/

/-- A reader that takes nothing leaves the text as it is. -/
theorem read_pure (value : α) (text : Bytes) :
    (pure value : Reader α).read text = .ok (value, text) :=
  rfl

/-- After a value the sequence goes on with the rest. -/
theorem read_bind_ok {r : Reader α} {text rest : Bytes} {value : α} (f : α → Reader β)
    (h : r.read text = .ok (value, rest)) : (r >>= f).read text = (f value).read rest := by
  change (Reader.bind r f).read text = _
  simp only [Reader.bind, h]

/-- A halt ends the sequence. -/
theorem read_bind_error {r : Reader α} {text : Bytes} {halt : Halt} (f : α → Reader β)
    (h : r.read text = .error halt) : (r >>= f).read text = .error halt := by
  change (Reader.bind r f).read text = _
  simp only [Reader.bind, h]

/-- A token takes at least one byte. -/
theorem length_lt_of_token {atEnd : Cause} {text rest : Bytes} {byte : UInt8}
    (h : (token atEnd).read text = .ok (byte, rest)) : rest.length < text.length := by
  have blanks : (List.dropWhile isBlank text).length ≤ text.length :=
    (List.dropWhile_suffix isBlank).length_le
  change (nextOr atEnd).read (text.dropWhile isBlank) = _ at h
  match hd : text.dropWhile isBlank with
  | [] =>
    rw [hd] at h
    simp [nextOr] at h
  | first :: others =>
    rw [hd] at h blanks
    injection h with h
    injection h with _ h
    subst h
    exact blanks

/-- What begins with a token takes at least one byte. -/
theorem length_lt_of_token_bind {atEnd : Cause} {text rest : Bytes} {value : α}
    {f : UInt8 → Reader α} (h : (token atEnd >>= f).read text = .ok (value, rest)) :
    rest.length < text.length := by
  rcases ht : (token atEnd).read text with halt | ⟨byte, middle⟩
  · rw [read_bind_error f ht] at h
    simp at h
  · rw [read_bind_ok f ht] at h
    exact Nat.lt_of_le_of_lt ((f byte).length_le h) (length_lt_of_token ht)

end Reader

/-- The line and column of a place with `behind` bytes after it: one more than the line feeds before
it, and the bytes since the last of them. -/
def placeOf (text : Bytes) (behind : Nat) : Nat × Nat :=
  let before := text.take (text.length - behind)
  (1 + before.count 0x0A, (before.reverse.takeWhile (· != 0x0A)).length)

/-- Reads a whole text: after what the reader reads, nothing but blanks may follow. -/
def readAll {α : Type} (reader : Reader α) (text : String) : Except Error α :=
  let bytes := text.toUTF8.toList
  let whole : Reader α := do
    let value ← reader
    match ← Reader.peekToken with
    | none => return value
    | some _ => Reader.failNext .trailingCharacters
  match whole.read bytes with
  | .ok (value, _) => .ok value
  | .error ⟨cause, none⟩ => .error ⟨cause, 0, 0⟩
  | .error ⟨cause, some behind⟩ =>
    let (line, column) := placeOf bytes behind
    .error ⟨cause, line, column⟩

end IdCompaction.Json
