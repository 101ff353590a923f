import IdCompaction.Json.Reader

/-!
# Quoted strings of a document

A string is read up to its closing quote. Escapes stand for one character each, except that a pair
of escaped surrogates stands for one character together; a surrogate by itself is an error. Strings
that are only skipped are not looked at so closely: their surrogates need no partner.
-/

namespace IdCompaction.Json.Text

open Reader

/-- The value of a hexadecimal digit. -/
def hexValue? (byte : UInt8) : Option Nat :=
  if 0x30 ≤ byte ∧ byte ≤ 0x39 then some (byte.toNat - 0x30)
  else if 0x61 ≤ byte ∧ byte ≤ 0x66 then some (byte.toNat - 0x61 + 10)
  else if 0x41 ≤ byte ∧ byte ≤ 0x46 then some (byte.toNat - 0x41 + 10)
  else none

/-- Four hexadecimal digits. -/
def fourHex : Reader Nat where
  read
    | a :: b :: c :: d :: rest =>
      match hexValue? a, hexValue? b, hexValue? c, hexValue? d with
      | some a, some b, some c, some d => .ok (((a * 16 + b) * 16 + c) * 16 + d, rest)
      | _, _, _, _ => .error ⟨.invalidEscape, some rest.length⟩
    | _ => .error ⟨.endInString, some 0⟩
  length_le {text _ _} h := by
    match text with
    | a :: b :: c :: d :: rest =>
      simp only at h
      split at h
      · injection h with h
        injection h with _ h
        subst h
        simp only [List.length_cons]
        omega
      · simp at h
    | [] => simp at h
    | [_] => simp at h
    | [_, _] => simp at h
    | [_, _, _] => simp at h

/-- The character that an escape's first letter stands for by itself. -/
def simpleEscape? (byte : UInt8) : Option UInt8 :=
  if byte = 0x22 ∨ byte = 0x5C ∨ byte = 0x2F then some byte
  else if byte = 0x62 then some 0x08
  else if byte = 0x66 then some 0x0C
  else if byte = 0x6E then some 0x0A
  else if byte = 0x72 then some 0x0D
  else if byte = 0x74 then some 0x09
  else none

/-- The second half of a surrogate pair must be the given byte. -/
def expectInPair (byte : UInt8) : Reader Unit := do
  if (← nextOr .endInString) ≠ byte then failHere .brokenSurrogate

/-- The bytes of a character given by its number. -/
def encode (code : Nat) : Bytes := String.utf8EncodeChar (Char.ofNat code)

/-- A character given by its number, or by the numbers of its two surrogates. -/
def numberEscape : Reader Bytes := do
  let code ← fourHex
  if 0xDC00 ≤ code ∧ code ≤ 0xDFFF then failHere .loneSurrogate
  else if 0xD800 ≤ code ∧ code ≤ 0xDBFF then
    expectInPair 0x5C
    expectInPair 0x75
    let second ← fourHex
    if 0xDC00 ≤ second ∧ second ≤ 0xDFFF then
      return encode (0x10000 + (code - 0xD800) * 0x400 + (second - 0xDC00))
    else failHere .loneSurrogate
  else return encode code

/-- What stands after a backslash. A skipped number is not looked at. -/
def escape (skipping : Bool) : Reader Bytes := do
  let letter ← nextOr .endInString
  match simpleEscape? letter with
  | some byte => return [byte]
  | none =>
    if letter ≠ 0x75 then failHere .invalidEscape
    else if skipping then do
      let _ ← fourHex
      return []
    else numberEscape

/-- The rest of a string after its opening quote, up to and with its closing quote. -/
def readBody (skipping : Bool) : Bytes → Except Halt (Bytes × Bytes)
  | [] => .error ⟨.endInString, some 0⟩
  | byte :: rest =>
    if byte = 0x22 then .ok ([], rest)
    else if byte = 0x5C then
      match h : (escape skipping).read rest with
      | .error halt => .error halt
      | .ok (first, rest') =>
        have : rest'.length ≤ rest.length := (escape skipping).length_le h
        match readBody skipping rest' with
        | .error halt => .error halt
        | .ok (more, last) => .ok (first ++ more, last)
    else if byte < 0x20 then
      .error ⟨.controlCharacter, some (if skipping then rest.length + 1 else rest.length)⟩
    else
      match readBody skipping rest with
      | .error halt => .error halt
      | .ok (more, last) => .ok (byte :: more, last)
termination_by text => text.length

/-- Reading a string never makes a text longer. -/
theorem length_le_of_readBody {skipping : Bool} {text content rest : Bytes}
    (h : readBody skipping text = .ok (content, rest)) : rest.length ≤ text.length := by
  fun_induction readBody skipping text generalizing content rest with
  | case1 => simp at h
  | case2 tail =>
    injection h with h
    injection h with _ h
    subst h
    simp
  | case3 => simp at h
  | case4 => simp_all
  | case5 tail first after hread hle more last heq hne ih =>
    injection h with h
    injection h with _ h
    subst h
    exact Nat.le_succ_of_le (Nat.le_trans (ih heq) hle)
  | case6 => simp at h
  | case7 => simp_all
  | case8 byte tail hq hb hc more last heq ih =>
    injection h with h
    injection h with _ h
    subst h
    exact Nat.le_succ_of_le (ih heq)

/-- The contents of a string whose opening quote has been taken. -/
def body (skipping : Bool) : Reader Bytes := ⟨readBody skipping, length_le_of_readBody⟩

/-- Bytes as text; what is read from a text is always text again. -/
def ofBytes (bytes : Bytes) : String := (String.fromUTF8? ⟨bytes.toArray⟩).getD ""

end IdCompaction.Json.Text
