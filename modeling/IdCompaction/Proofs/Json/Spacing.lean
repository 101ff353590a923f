import IdCompaction.Json.Shape
import Mathlib.Data.List.TakeWhile

/-!
# Tokens and the blanks between them

A document is made of tokens. Any blanks may stand before, between and after them, and a reader that
begins with a token takes the blanks in front of it away. So what is said here about reading is said
about every spacing of a list of tokens at once, and leaves off at a spacing of the tokens that are
left.

A number does not show where it ends. Its reader also needs that what follows cannot belong to it,
and after a value of a document there is nothing, or a comma, or a closing bracket.
-/

namespace IdCompaction.Json

/-! ## Texts as bytes -/

/-- The bytes of a text. -/
def bytesOf (text : String) : Bytes := text.toUTF8.toList

/-- The list of the bytes of an array, as its loop makes it. -/
theorem toList_loop_eq (array : ByteArray) (index : Nat) (before : Bytes) :
    ByteArray.toList.loop array index before = before.reverse ++ array.data.toList.drop index := by
  induction index, before using ByteArray.toList.loop.induct array with
  | case1 index before hlt ih =>
    have hindex : index < array.data.toList.length := by simpa using hlt
    have hget : array.get! index = array.data.toList[index] := by
      rw [Array.getElem_toList]
      exact getElem!_pos array.data index (by simpa using hlt)
    rw [ByteArray.toList.loop, if_pos hlt, ih, List.drop_eq_getElem_cons hindex, hget]
    simp
  | case2 index before hge =>
    have hlength : array.data.toList.length ≤ index := by simpa using hge
    rw [ByteArray.toList.loop, if_neg hge, List.drop_eq_nil_of_le hlength, List.append_nil]

/-- The bytes of a text are those of its characters. -/
theorem bytesOf_eq_flatMap (text : String) :
    bytesOf text = text.toList.flatMap String.utf8EncodeChar := by
  have hdata : bytesOf text = text.toByteArray.data.toList := by
    rw [bytesOf, ByteArray.toList, toList_loop_eq]
    rfl
  rw [hdata, ← String.utf8Encode_toList, List.utf8Encode, List.toList_data_toByteArray]

/-- Texts put together have their bytes put together. -/
@[simp] theorem bytesOf_append (a b : String) : bytesOf (a ++ b) = bytesOf a ++ bytesOf b := by
  simp [bytesOf_eq_flatMap]

/-- The bytes of a text that is made of characters. -/
theorem bytesOf_ofList (chars : List Char) :
    bytesOf (String.ofList chars) = chars.flatMap String.utf8EncodeChar := by
  simp [bytesOf_eq_flatMap]

/-- The empty text has no bytes. -/
theorem bytesOf_empty : bytesOf "" = [] := by
  rw [bytesOf_eq_flatMap]
  rfl

/-- Different texts have different bytes. -/
theorem bytesOf_inj {a b : String} : bytesOf a = bytesOf b ↔ a = b := by
  constructor
  · intro h
    have hdata : a.toByteArray.data.toList = b.toByteArray.data.toList := by
      simpa only [bytesOf, String.toUTF8, ByteArray.toList, toList_loop_eq, List.drop_zero,
        List.reverse_nil, List.nil_append] using h
    have harray : a.toByteArray = b.toByteArray := ByteArray.ext (Array.toList_inj.mp hdata)
    rwa [String.toByteArray_inj] at harray
  · rintro rfl
    rfl

/-- A character below 128 is one byte. -/
theorem utf8EncodeChar_of_lt {c : Char} (h : c.toNat < 128) :
    String.utf8EncodeChar c = [UInt8.ofNat c.toNat] :=
  if_pos (Nat.le_of_lt_succ h)

/-- Any other character is bytes from 128 on. -/
theorem le_of_mem_utf8EncodeChar {c : Char} (h : 128 ≤ c.toNat) {byte : UInt8}
    (hbyte : byte ∈ String.utf8EncodeChar c) : 128 ≤ byte := by
  have hcode : ¬ c.val.toNat ≤ 127 := Nat.not_le_of_gt h
  have hsmall (n : Nat) (hle : 128 ≤ n) (hlt : n < 256) : (128 : UInt8) ≤ UInt8.ofNat n := by
    rw [UInt8.le_iff_toNat_le, UInt8.toNat_ofNat_of_lt' hlt]
    exact hle
  unfold String.utf8EncodeChar at hbyte
  simp only [hcode, if_false] at hbyte
  split at hbyte
  · simp only [List.mem_cons, List.not_mem_nil, or_false] at hbyte
    rcases hbyte with rfl | rfl <;> exact hsmall _ (by omega) (by omega)
  · split at hbyte
    · simp only [List.mem_cons, List.not_mem_nil, or_false] at hbyte
      rcases hbyte with rfl | rfl | rfl <;> exact hsmall _ (by omega) (by omega)
    · simp only [List.mem_cons, List.not_mem_nil, or_false] at hbyte
      rcases hbyte with rfl | rfl | rfl | rfl <;> exact hsmall _ (by omega) (by omega)

/-! ## Steps of readers -/

namespace Reader

variable {α β : Type}

/-- A sequence reads its second part from where the first left off. -/
theorem read_bind (r : Reader α) (f : α → Reader β) (text : Bytes) :
    (r >>= f).read text =
      match r.read text with
      | .error halt => Except.error halt
      | .ok (value, rest) => (f value).read rest :=
  rfl

/-- What begins with a peek at the next token goes on behind the blanks. -/
theorem read_peekToken_bind (f : Option UInt8 → Reader β) (text : Bytes) :
    (peekToken >>= f).read text =
      (f (text.dropWhile isBlank).head?).read (text.dropWhile isBlank) :=
  rfl

/-- What begins with a token goes on behind its first byte. -/
theorem read_token_bind (atEnd : Cause) (f : UInt8 → Reader β) (text : Bytes) :
    (token atEnd >>= f).read text =
      match text.dropWhile isBlank with
      | [] => Except.error ⟨atEnd, some 0⟩
      | byte :: rest => (f byte).read rest := by
  have htoken : (token atEnd).read text = (nextOr atEnd).read (text.dropWhile isBlank) := rfl
  rw [read_bind, htoken]
  cases text.dropWhile isBlank <;> rfl

/-- A byte is taken if it comes next, and nothing is taken otherwise. -/
theorem read_accept (byte : UInt8) (text : Bytes) :
    (accept byte).read text =
      if text.head? = some byte then .ok (true, text.tail) else .ok (false, text) := by
  change (if text.head? = some byte then (next >>= fun _ => pure true : Reader Bool)
    else pure false).read text = _
  split <;> rfl

/-- The expected byte is taken. -/
theorem read_accept_self (byte : UInt8) (rest : Bytes) :
    (accept byte).read (byte :: rest) = .ok (true, rest) := by
  simp [read_accept]

/-- Any other byte is left. -/
theorem read_accept_of_ne {byte : UInt8} {text : Bytes} (h : text.head? ≠ some byte) :
    (accept byte).read text = .ok (false, text) := by
  rw [read_accept, if_neg h]

end Reader

/-! ## Spacings -/

open Reader

/-- Bytes that only separate tokens. -/
def Blank (gap : Bytes) : Prop := ∀ byte ∈ gap, isBlank byte = true

/-- Blanks after blanks are blanks. -/
theorem Blank.append {gap gap' : Bytes} (h : Blank gap) (h' : Blank gap') : Blank (gap ++ gap') :=
  fun byte hbyte => (List.mem_append.mp hbyte).elim (h byte) (h' byte)

/-- Blanks before a text go with the blanks that it begins with. -/
theorem Blank.dropWhile_append {gap : Bytes} (h : Blank gap) (text : Bytes) :
    (gap ++ text).dropWhile isBlank = text.dropWhile isBlank :=
  List.dropWhile_append_of_pos h

/-- A text that has the tokens in this order, with any blanks before each and after the last. -/
inductive Spaced : List String → Bytes → Prop
  | nil {gap : Bytes} (hgap : Blank gap) : Spaced [] gap
  | cons {gap rest : Bytes} {tokens : List String} (first : String) (hgap : Blank gap)
      (hrest : Spaced tokens rest) : Spaced (first :: tokens) (gap ++ (bytesOf first ++ rest))

namespace Spaced

variable {first : String} {tokens after : List String} {text : Bytes} {byte : UInt8}

/-- The tokens one after another are a spacing without any blanks. -/
theorem flatMap_bytesOf (tokens : List String) : Spaced tokens (tokens.flatMap bytesOf) := by
  induction tokens with
  | nil => exact .nil (List.forall_mem_nil _)
  | cons first rest ih => exact .cons first (List.forall_mem_nil _) ih

/-- Blanks may be put before a spacing. -/
theorem blank_append {gap : Bytes} (hgap : Blank gap) (h : Spaced tokens text) :
    Spaced tokens (gap ++ text) := by
  cases h with
  | nil h => exact .nil (hgap.append h)
  | cons first h hrest =>
    rw [← List.append_assoc]
    exact .cons first (hgap.append h) hrest

/-- Behind the blanks comes the first token. -/
theorem dropWhile_cons (h : Spaced (first :: tokens) text) {more : Bytes}
    (hbytes : bytesOf first = byte :: more) (hbyte : isBlank byte = false) :
    ∃ rest, text.dropWhile isBlank = byte :: (more ++ rest) ∧ Spaced tokens rest := by
  cases h with
  | @cons gap rest _ _ hgap hrest =>
    refine ⟨rest, ?_, hrest⟩
    rw [hgap.dropWhile_append, hbytes, List.cons_append]
    exact List.dropWhile_cons_of_neg (by simp [hbyte])

/-- A reader that takes the next token goes on with the rest of the token and those after it. -/
theorem exists_read_token {β : Type} (h : Spaced (first :: tokens) text) {more : Bytes}
    (hbytes : bytesOf first = byte :: more) (hbyte : isBlank byte = false) (atEnd : Cause)
    (f : UInt8 → Reader β) :
    ∃ rest, (token atEnd >>= f).read text = (f byte).read (more ++ rest) ∧ Spaced tokens rest := by
  obtain ⟨rest, hdrop, hrest⟩ := h.dropWhile_cons hbytes hbyte
  refine ⟨rest, ?_, hrest⟩
  rw [read_token_bind, hdrop]

/-- A peek at the next token finds its first byte, in front of the rest of the token. -/
theorem exists_read_peekToken {β : Type} (h : Spaced (first :: tokens) text) {more : Bytes}
    (hbytes : bytesOf first = byte :: more) (hbyte : isBlank byte = false)
    (f : Option UInt8 → Reader β) :
    ∃ rest, (peekToken >>= f).read text = (f (some byte)).read (byte :: (more ++ rest)) ∧
      Spaced tokens rest := by
  obtain ⟨rest, hdrop, hrest⟩ := h.dropWhile_cons hbytes hbyte
  refine ⟨rest, ?_, hrest⟩
  rw [read_peekToken_bind, hdrop, List.head?_cons]

/-- A token in front of a spacing, without blanks between. -/
theorem cons_bytes {more : Bytes} (hbytes : bytesOf first = byte :: more)
    (h : Spaced tokens text) : Spaced (first :: tokens) (byte :: (more ++ text)) := by
  have hspaced := Spaced.cons first (List.forall_mem_nil _) h
  rwa [hbytes] at hspaced

end Spaced

/-- Reads the tokens as a value, whatever comes after them. -/
def Reader.Passes {α : Type} (r : Reader α) (tokens : List String) (value : α) : Prop :=
  ∀ (after : List String) (text : Bytes), Spaced (tokens ++ after) text →
    ∃ rest, r.read text = .ok (value, rest) ∧ Spaced after rest

/-! ## What follows a value -/

/-- After a value there is nothing, or a comma, or a closing bracket. -/
def Follows (after : List String) : Prop := ∀ next ∈ after.head?, next ∈ [",", "]", "\x7d"]

/-- Whether a byte can belong to a number that began before it. -/
def continuesNumber (byte : UInt8) : Bool :=
  isDigit byte || byte == 0x2E || byte == 0x65 || byte == 0x45

/-- A text that does not go on with a number. -/
def Stops (text : Bytes) : Prop := ∀ byte ∈ text.head?, continuesNumber byte = false

/-- A comma is one byte. -/
theorem bytesOf_comma : bytesOf "," = [0x2C] := by
  rw [bytesOf_eq_flatMap]
  rfl

/-- A colon is one byte. -/
theorem bytesOf_colon : bytesOf ":" = [0x3A] := by
  rw [bytesOf_eq_flatMap]
  rfl

/-- The bracket that opens a list is one byte. -/
theorem bytesOf_listOpener : bytesOf "[" = [0x5B] := by
  rw [bytesOf_eq_flatMap]
  rfl

/-- The bracket that closes a list is one byte. -/
theorem bytesOf_listCloser : bytesOf "]" = [0x5D] := by
  rw [bytesOf_eq_flatMap]
  rfl

/-- The bracket that opens an object is one byte. -/
theorem bytesOf_objectOpener : bytesOf "\x7b" = [0x7B] := by
  rw [bytesOf_eq_flatMap]
  rfl

/-- The bracket that closes an object is one byte. -/
theorem bytesOf_objectCloser : bytesOf "\x7d" = [0x7D] := by
  rw [bytesOf_eq_flatMap]
  rfl

/-- Blanks do not belong to numbers. -/
theorem continuesNumber_of_isBlank {byte : UInt8} (h : isBlank byte = true) :
    continuesNumber byte = false := by
  simp only [isBlank, Bool.or_eq_true, beq_iff_eq] at h
  rcases h with ((rfl | rfl) | rfl) | rfl <;> rfl

/-- Whatever blanks there are, a number does not go on behind a value. -/
theorem Spaced.stops {after : List String} {text : Bytes} (h : Spaced after text)
    (hfollows : Follows after) : Stops text := by
  intro byte hbyte
  cases h with
  | nil hgap => exact continuesNumber_of_isBlank (hgap byte (List.mem_of_mem_head? hbyte))
  | @cons gap rest tokens first hgap hrest =>
    cases gap with
    | cons blank gap =>
      obtain rfl : blank = byte := by simpa using hbyte
      exact continuesNumber_of_isBlank (hgap blank List.mem_cons_self)
    | nil =>
      have hfirst := hfollows first rfl
      simp only [List.mem_cons, List.not_mem_nil, or_false] at hfirst
      rcases hfirst with rfl | rfl | rfl <;>
        simp only [bytesOf_comma, bytesOf_listCloser, bytesOf_objectCloser, List.nil_append,
          List.cons_append, List.head?_cons, Option.mem_some_iff] at hbyte <;>
        exact hbyte ▸ rfl

/-- Reads the tokens as a value, if what comes after them may follow a value. -/
def Reader.Takes {α : Type} (r : Reader α) (tokens : List String) (value : α) : Prop :=
  ∀ (after : List String) (text : Bytes), Spaced (tokens ++ after) text → Follows after →
    ∃ rest, r.read text = .ok (value, rest) ∧ Spaced after rest

/-- A reader that shows its own end needs nothing of what follows. -/
theorem Reader.Passes.takes {α : Type} {r : Reader α} {tokens : List String} {value : α}
    (h : r.Passes tokens value) : r.Takes tokens value :=
  fun after text htext _ => h after text htext

/-- A whole text is read as a value if nothing but blanks are left. -/
theorem readAll_eq_ok_iff {α : Type} {r : Reader α} {text : String} {value : α} :
    readAll r text = .ok value ↔
      ∃ rest, r.read (bytesOf text) = .ok (value, rest) ∧ Blank rest := by
  rcases hread : r.read (bytesOf text) with halt | ⟨found, rest⟩
  · have hwhole := fun f : α → Reader α => read_bind_error f hread
    rw [bytesOf] at hwhole
    rcases halt with ⟨cause, behind | behind⟩ <;> simp only [Json.readAll, hwhole] <;> simp
  · have hwhole := fun f : α → Reader α => read_bind_ok f hread
    rw [bytesOf] at hwhole
    simp only [Json.readAll, hwhole, read_peekToken_bind]
    cases hblank : rest.dropWhile isBlank with
    | nil =>
      have hrest : Blank rest := List.dropWhile_eq_nil_iff.mp hblank
      simp [read_pure]
      grind
    | cons byte more =>
      have hrest : ¬ Blank rest := fun h => by
        rw [List.dropWhile_eq_nil_iff.mpr h] at hblank
        cases hblank
      simp [failNext]
      grind

/-- What halts a reader is the cause of the error. -/
theorem exists_readAll_error {α : Type} {r : Reader α} {text : String} {halt : Halt}
    (h : r.read (bytesOf text) = .error halt) :
    ∃ error, readAll r text = .error error ∧ error.cause = halt.cause := by
  have hwhole := fun f : α → Reader α => read_bind_error f h
  rw [bytesOf] at hwhole
  rcases halt with ⟨cause, behind | behind⟩
  · refine ⟨⟨cause, 0, 0⟩, ?_, rfl⟩
    simp only [Json.readAll, hwhole]
  · let place := placeOf text.toUTF8.toList behind
    refine ⟨⟨cause, place.1, place.2⟩, ?_, rfl⟩
    simp only [Json.readAll, hwhole, place]

/-- A whole text that is a spacing of a value's tokens is read as the value. -/
theorem Reader.Takes.readAll {α : Type} {r : Reader α} {tokens : List String} {value : α}
    (h : r.Takes tokens value) {text : String} (htext : Spaced tokens (bytesOf text)) :
    readAll r text = .ok value := by
  obtain ⟨rest, hread, hrest⟩ := h [] _ (by rwa [List.append_nil]) (by simp [Follows])
  cases hrest with
  | nil hblank => exact readAll_eq_ok_iff.mpr ⟨rest, hread, hblank⟩

end IdCompaction.Json
