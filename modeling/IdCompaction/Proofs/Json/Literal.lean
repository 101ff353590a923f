import IdCompaction.Proofs.Json.Spacing

/-!
# String literals

A literal is written between quotes, from characters that stand for themselves and from escapes. A
skipped literal is passed over up to its closing quote, whatever its escapes. A literal without
escapes, as keys of a document are, is read as its characters.
-/

namespace IdCompaction.Json

open Reader

/-! ## Pieces of literals -/

/-- A character that stands for itself: no quote, no backslash and no control character. -/
def IsPlain (c : Char) : Prop := 0x20 ≤ c.toNat ∧ c ≠ '"' ∧ c ≠ '\\'

instance : DecidablePred IsPlain := fun c =>
  inferInstanceAs (Decidable (0x20 ≤ c.toNat ∧ c ≠ '"' ∧ c ≠ '\\'))

/-- A text of plain characters. -/
def IsPlainText (text : String) : Prop := text.toList.all (IsPlain ·) = true

instance : DecidablePred IsPlainText := fun text =>
  inferInstanceAs (Decidable (text.toList.all (IsPlain ·) = true))

/-- Each character of a plain text is plain. -/
theorem IsPlainText.isPlain {text : String} (h : IsPlainText text) {c : Char}
    (hc : c ∈ text.toList) : IsPlain c :=
  of_decide_eq_true (List.all_eq_true.mp h c hc)

/-- A name without characters to escape. -/
structure Key where
  name : String
  isPlain : IsPlainText name

/-- What may come after a backslash, but for the escapes by number. -/
def escapeLetters : List Char := ['"', '\\', '/', 'b', 'f', 'n', 'r', 't']

/-- The digits of an escape by number. -/
def hexDigits : List Char := "0123456789abcdefABCDEF".toList

/-- A character of a literal. -/
inductive Piece
  | plain (c : Char) (h : IsPlain c)
  | escaped (letter : Char) (h : letter ∈ escapeLetters)
  /-- A number in four digits; it need not be one of a character. -/
  | numbered (a b c d : Char) (h : ∀ digit ∈ [a, b, c, d], digit ∈ hexDigits)

/-- A piece as it is written. -/
def Piece.chars : Piece → List Char
  | .plain c _ => [c]
  | .escaped letter _ => ['\\', letter]
  | .numbered a b c d _ => ['\\', 'u', a, b, c, d]

/-- The token of the literal with the given contents. -/
def literalToken (content : List Piece) : String :=
  nameToken (String.ofList (content.flatMap Piece.chars))

/-- A literal is its contents between quotes. -/
theorem bytesOf_nameToken (name : String) :
    bytesOf (nameToken name) = 0x22 :: (bytesOf name ++ [0x22]) := by
  have hquote : bytesOf "\"" = [0x22] := by
    rw [bytesOf_eq_flatMap]
    rfl
  rw [nameToken, bytesOf_append, bytesOf_append, hquote]
  rfl

/-- The bytes of plain characters have no meaning of their own. -/
theorem of_mem_utf8EncodeChar {c : Char} (h : IsPlain c) {byte : UInt8}
    (hbyte : byte ∈ String.utf8EncodeChar c) : byte ≠ 0x22 ∧ byte ≠ 0x5C ∧ ¬ byte < 0x20 := by
  obtain ⟨hcontrol, hquote, hbackslash⟩ := h
  by_cases hsmall : c.toNat < 128
  · have htoNat : (UInt8.ofNat c.toNat).toNat = c.toNat :=
      UInt8.toNat_ofNat_of_lt' (Nat.lt_trans hsmall (by decide))
    have hne (code : UInt8) (other : Char) (hother : other.toNat = code.toNat) (hc : c ≠ other) :
        UInt8.ofNat c.toNat ≠ code :=
      fun heq => hc (Char.toNat_inj.mp (by rw [hother, ← heq, htoNat]))
    rw [utf8EncodeChar_of_lt hsmall, List.mem_singleton] at hbyte
    subst hbyte
    refine ⟨hne 0x22 '"' rfl hquote, hne 0x5C '\\' rfl hbackslash, ?_⟩
    rw [UInt8.lt_iff_toNat_lt, htoNat]
    exact Nat.not_lt.mpr hcontrol
  · have hlarge := UInt8.le_iff_toNat_le.mp (le_of_mem_utf8EncodeChar (Nat.not_lt.mp hsmall) hbyte)
    refine ⟨?_, ?_, ?_⟩
    · rintro rfl
      exact absurd hlarge (by decide)
    · rintro rfl
      exact absurd hlarge (by decide)
    · rw [UInt8.lt_iff_toNat_lt]
      exact fun hlt => absurd (Nat.le_trans hlarge (Nat.le_of_lt hlt)) (by decide)

/-! ## Reading -/

namespace Text

variable {skipping : Bool} {rest : Bytes}

/-- A quote ends a literal. -/
theorem readBody_quote (skipping : Bool) (rest : Bytes) :
    readBody skipping (0x22 :: rest) = .ok ([], rest) := by
  rw [readBody, if_pos rfl]

/-- Bytes without a meaning of their own are taken as they are. -/
theorem readBody_append {bytes content text : Bytes}
    (hbytes : ∀ byte ∈ bytes, byte ≠ 0x22 ∧ byte ≠ 0x5C ∧ ¬ byte < 0x20)
    (h : readBody skipping text = .ok (content, rest)) :
    readBody skipping (bytes ++ text) = .ok (bytes ++ content, rest) := by
  induction bytes with
  | nil => exact h
  | cons byte bytes ih =>
    obtain ⟨⟨hquote, hbackslash, hcontrol⟩, hmore⟩ := List.forall_mem_cons.mp hbytes
    rw [List.cons_append, readBody, if_neg hquote, if_neg hbackslash, if_neg hcontrol, ih hmore]
    rfl

/-- What stands for an escape comes before the rest. -/
theorem readBody_escape {first content text middle : Bytes}
    (hescape : (escape skipping).read text = .ok (first, middle))
    (h : readBody skipping middle = .ok (content, rest)) :
    readBody skipping (0x5C :: text) = .ok (first ++ content, rest) := by
  have hne : (0x5C : UInt8) ≠ 0x22 := by decide
  rw [readBody, if_neg hne, if_pos rfl]
  split
  · simp_all
  · simp_all

/-- An escape of one letter is passed over. -/
theorem exists_read_escape_letter (skipping : Bool) {letter : Char} (h : letter ∈ escapeLetters)
    (text : Bytes) :
    ∃ first, (escape skipping).read (String.utf8EncodeChar letter ++ text) = .ok (first, text) := by
  have hletters : escapeLetters.all fun letter =>
      letter.toNat < 128 ∧ (simpleEscape? (UInt8.ofNat letter.toNat)).isSome := by decide
  obtain ⟨hsmall, hsome⟩ := of_decide_eq_true (List.all_eq_true.mp hletters letter h)
  obtain ⟨byte, hbyte⟩ := Option.isSome_iff_exists.mp hsome
  refine ⟨[byte], ?_⟩
  rw [utf8EncodeChar_of_lt hsmall, List.singleton_append, escape, read_bind_ok _ rfl, hbyte,
    read_pure]

/-- The digits of an escape by number are read together. -/
theorem exists_read_fourHex {a b c d : Char} (h : ∀ digit ∈ [a, b, c, d], digit ∈ hexDigits)
    (text : Bytes) :
    ∃ code, fourHex.read ([a, b, c, d].flatMap String.utf8EncodeChar ++ text) =
      .ok (code, text) := by
  have hvalues : hexDigits.all fun digit =>
      digit.toNat < 128 ∧ (hexValue? (UInt8.ofNat digit.toNat)).isSome := by decide
  have hdigit (digit : Char) (hmem : digit ∈ [a, b, c, d]) :
      ∃ value, String.utf8EncodeChar digit = [UInt8.ofNat digit.toNat] ∧
        hexValue? (UInt8.ofNat digit.toNat) = some value := by
    obtain ⟨hsmall, hsome⟩ := of_decide_eq_true (List.all_eq_true.mp hvalues digit (h digit hmem))
    obtain ⟨value, hvalue⟩ := Option.isSome_iff_exists.mp hsome
    exact ⟨value, utf8EncodeChar_of_lt hsmall, hvalue⟩
  obtain ⟨valueA, hbyteA, hvalueA⟩ := hdigit a (by simp)
  obtain ⟨valueB, hbyteB, hvalueB⟩ := hdigit b (by simp)
  obtain ⟨valueC, hbyteC, hvalueC⟩ := hdigit c (by simp)
  obtain ⟨valueD, hbyteD, hvalueD⟩ := hdigit d (by simp)
  refine ⟨((valueA * 16 + valueB) * 16 + valueC) * 16 + valueD, ?_⟩
  simp [fourHex, hbyteA, hbyteB, hbyteC, hbyteD, hvalueA, hvalueB, hvalueC, hvalueD]

/-- A skipped number is passed over, whatever it is. -/
theorem read_escape_number {a b c d : Char} (h : ∀ digit ∈ [a, b, c, d], digit ∈ hexDigits)
    (text : Bytes) :
    (escape true).read (0x75 :: ([a, b, c, d].flatMap String.utf8EncodeChar ++ text)) =
      .ok ([], text) := by
  have hnone : simpleEscape? 0x75 = none := by decide
  obtain ⟨code, hcode⟩ := exists_read_fourHex h text
  rw [escape, read_bind_ok _ rfl, hnone]
  simp only [ne_eq, not_true_eq_false, if_false, if_true]
  rw [read_bind_ok _ hcode, read_pure]

/-- A piece of a skipped literal is passed over. -/
theorem exists_readBody_piece (piece : Piece) {content text : Bytes}
    (h : readBody true text = .ok (content, rest)) :
    ∃ bytes, readBody true (piece.chars.flatMap String.utf8EncodeChar ++ text) =
      .ok (bytes, rest) := by
  have hbackslash : String.utf8EncodeChar '\\' = [0x5C] := by decide
  have hletter : String.utf8EncodeChar 'u' = [0x75] := by decide
  cases piece with
  | plain c hplain =>
    refine ⟨_, readBody_append ?_ h⟩
    simpa [Piece.chars] using fun byte => of_mem_utf8EncodeChar hplain
  | escaped letter hletter =>
    obtain ⟨first, hescape⟩ := exists_read_escape_letter true hletter text
    refine ⟨first ++ content, ?_⟩
    simp only [Piece.chars, List.flatMap_cons, hbackslash, List.flatMap_nil, List.append_nil,
      List.cons_append, List.nil_append]
    exact readBody_escape hescape h
  | numbered a b c d hdigits =>
    refine ⟨[] ++ content, ?_⟩
    rw [Piece.chars, List.flatMap_cons, List.flatMap_cons, hbackslash, hletter]
    exact readBody_escape (read_escape_number hdigits text) h

/-- A skipped literal is passed over up to its closing quote. -/
theorem exists_read_body_skipping (content : List Piece) (rest : Bytes) :
    ∃ bytes, (body true).read
      (bytesOf (String.ofList (content.flatMap Piece.chars)) ++ 0x22 :: rest) =
        .ok (bytes, rest) := by
  rw [bytesOf_ofList]
  induction content with
  | nil => exact ⟨[], readBody_quote true rest⟩
  | cons piece content ih =>
    obtain ⟨bytes, hbytes⟩ := ih
    rw [List.flatMap_cons, List.flatMap_append, List.append_assoc]
    exact exists_readBody_piece piece hbytes

/-- A literal without escapes is read as its characters. -/
theorem read_body_of_plain {name : String} (h : IsPlainText name) (rest : Bytes) :
    (body skipping).read (bytesOf name ++ 0x22 :: rest) = .ok (bytesOf name, rest) := by
  have hbytes : ∀ byte ∈ bytesOf name, byte ≠ 0x22 ∧ byte ≠ 0x5C ∧ ¬ byte < 0x20 := by
    rw [bytesOf_eq_flatMap]
    intro byte hbyte
    obtain ⟨c, hc, hbyte⟩ := List.mem_flatMap.mp hbyte
    exact of_mem_utf8EncodeChar (h.isPlain hc) hbyte
  simpa [body] using readBody_append hbytes (readBody_quote skipping rest)

end Text

end IdCompaction.Json
