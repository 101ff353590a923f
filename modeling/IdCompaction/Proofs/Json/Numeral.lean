import IdCompaction.Proofs.Json.Spacing

/-!
# Numerals

A numeral is a sign, a whole part that does not begin with a needless zero, and then perhaps a
fraction and an exponent. Whatever its size, a numeral is read to its end and no further, if what
follows does not go on with a number. The decimal digits of a natural number below the limit of 64
bits are read as that number, up to the last one.
-/

namespace IdCompaction.Json

open Reader

/-! ## Digits -/

/-- Digits are taken up to the first byte that is none. -/
theorem read_takeWhile_isDigit {digits rest : Bytes}
    (hdigits : ∀ digit ∈ digits, isDigit digit = true)
    (hstop : ∀ byte ∈ rest.head?, isDigit byte = false) :
    (takeWhile isDigit).read (digits ++ rest) = .ok (digits, rest) := by
  have hnone : rest.takeWhile isDigit = [] ∧ rest.dropWhile isDigit = rest := by
    cases rest with
    | nil => exact ⟨rfl, rfl⟩
    | cons byte rest =>
      have hbyte := hstop byte rfl
      simp [hbyte]
  change Except.ok ((digits ++ rest).takeWhile isDigit, (digits ++ rest).dropWhile isDigit) = _
  rw [List.takeWhile_append_of_pos hdigits, List.dropWhile_append_of_pos hdigits, hnone.1, hnone.2,
    List.append_nil]

/-- A text that goes on neither with digits nor with a fraction. -/
def EndsDigits (text : Bytes) : Prop := ∀ byte ∈ text.head?, isDigit byte = false ∧ byte ≠ 0x2E

/-- What cannot belong to a number ends its digits. -/
theorem Stops.endsDigits {text : Bytes} (h : Stops text) : EndsDigits text := by
  intro byte hbyte
  have hcontinues := h byte hbyte
  simp only [continuesNumber, Bool.or_eq_false_iff, beq_eq_false_iff_ne] at hcontinues
  exact ⟨hcontinues.1.1.1, hcontinues.1.1.2⟩

/-- One digit or more. -/
structure Digits where
  first : Fin 10
  rest : List (Fin 10)

/-- The byte of a digit. -/
def digitByte (digit : Fin 10) : UInt8 := UInt8.ofNat (0x30 + digit.val)

/-- The byte of a digit is a digit. -/
theorem isDigit_digitByte : ∀ digit, isDigit (digitByte digit) = true := by decide

namespace Digits

/-- Digits as they are written. -/
def text (d : Digits) : String :=
  String.ofList ((d.first :: d.rest).map fun digit => digit.val.digitChar)

/-- Digits as they are read. -/
def bytes (d : Digits) : Bytes := (d.first :: d.rest).map digitByte

/-- Digits are read as they are written. -/
theorem bytesOf_text (d : Digits) : bytesOf d.text = d.bytes := by
  have hdigit : ∀ digit : Fin 10,
      String.utf8EncodeChar digit.val.digitChar = [digitByte digit] := by decide
  rw [text, bytesOf_ofList, List.flatMap_map, bytes]
  simp only [hdigit, ← List.map_eq_flatMap]

/-- Digits have no other bytes. -/
theorem isDigit_of_mem_bytes {d : Digits} {digit : UInt8} (h : digit ∈ d.bytes) :
    isDigit digit = true := by
  obtain ⟨digit, -, rfl⟩ := List.mem_map.mp h
  exact isDigit_digitByte digit

/-- Digits are taken up to the first byte that is none. -/
theorem read_bytes (d : Digits) {rest : Bytes}
    (hstop : ∀ byte ∈ rest.head?, isDigit byte = false) :
    (takeWhile isDigit).read (d.bytes ++ rest) = .ok (d.bytes, rest) :=
  read_takeWhile_isDigit (fun _ => isDigit_of_mem_bytes) hstop

end Digits

/-! ## Parts of numerals -/

/-- The point of a fraction is one byte. -/
theorem bytesOf_point : bytesOf "." = [0x2E] := by
  rw [bytesOf_eq_flatMap]
  rfl

/-- The plus of an exponent is one byte. -/
theorem bytesOf_plus : bytesOf "+" = [0x2B] := by
  rw [bytesOf_eq_flatMap]
  rfl

/-- A minus is one byte. -/
theorem bytesOf_minus : bytesOf "-" = [0x2D] := by
  rw [bytesOf_eq_flatMap]
  rfl

/-- The mark of an exponent is one byte. -/
theorem bytesOf_smallMark : bytesOf "e" = [0x65] := by
  rw [bytesOf_eq_flatMap]
  rfl

/-- The mark of an exponent may be capital. -/
theorem bytesOf_capitalMark : bytesOf "E" = [0x45] := by
  rw [bytesOf_eq_flatMap]
  rfl

/-- What is written before the digits of an exponent. -/
inductive Sign
  | none
  | plus
  | minus

/-- The sign as it is written. -/
def Sign.text : Sign → String
  | .none => ""
  | .plus => "+"
  | .minus => "-"

/-- Whether the exponent is negative. -/
def Sign.isMinus : Sign → Bool
  | .minus => true
  | _ => false

/-- The exponent of a numeral. -/
structure Exponent where
  isCapital : Bool
  sign : Sign
  digits : Digits

/-- The exponent as it is written. -/
def Exponent.text (e : Exponent) : String :=
  (if e.isCapital then "E" else "e") ++ e.sign.text ++ e.digits.text

/-- The exponent as it is read. -/
def Exponent.spelled (e : Exponent) : Bool × Bytes := (e.sign.isMinus, e.digits.bytes)

/-- A number of any size as it can be written. -/
structure Numeral where
  isNegative : Bool
  whole : Digits
  /-- A zero at the beginning of the whole part is all of it. -/
  noLeadingZero : whole.first = 0 → whole.rest = []
  fraction : Option Digits
  exponent : Option Exponent

namespace Numeral

/-- The fraction as it is written. -/
def fractionText (n : Numeral) : String := n.fraction.elim "" fun digits => "." ++ digits.text

/-- The exponent as it is written. -/
def exponentText (n : Numeral) : String := n.exponent.elim "" Exponent.text

/-- The token of a numeral. -/
def token (n : Numeral) : String :=
  (if n.isNegative then "-" else "") ++ n.whole.text ++ n.fractionText ++ n.exponentText

/-- The numeral as it is read. -/
def spelling (n : Numeral) : Spelling :=
  ⟨n.isNegative, n.whole.bytes, n.fraction.elim [] Digits.bytes, n.exponent.map Exponent.spelled⟩

end Numeral

namespace Number

variable {first : UInt8} {more rest : Bytes} {atEnd : Cause}

/-- The digits before the point are taken; a zero is the only one of them if it is the first. -/
theorem read_wholePart (hdigits : ∀ digit ∈ first :: more, isDigit digit = true)
    (hzero : first = 0x30 → more = []) (hstop : ∀ byte ∈ rest.head?, isDigit byte = false) :
    (wholePart first).read (more ++ rest) = .ok (first :: more, rest) := by
  obtain ⟨hfirst, hmore⟩ := List.forall_mem_cons.mp hdigits
  unfold wholePart
  by_cases h : first = 0x30
  · subst h
    obtain rfl := hzero rfl
    have hpeek : rest.head?.any isDigit = false := by
      cases rest with
      | nil => rfl
      | cons byte rest => simpa using hstop byte rfl
    simp [read_bind, peek, hpeek, read_pure]
  · rw [if_neg h, if_pos hfirst, read_bind_ok _ (read_takeWhile_isDigit hmore hstop), read_pure]

/-- The fraction is read, if there is one. -/
theorem read_fractionPart (n : Numeral) (hends : EndsDigits rest) :
    (fractionPart atEnd).read (bytesOf n.fractionText ++ rest) =
      .ok (n.fraction.elim [] Digits.bytes, rest) := by
  rcases hfraction : n.fraction with - | digits
  · have hhead : rest.head? ≠ some 0x2E := fun h => (hends _ h).2 rfl
    simp [Numeral.fractionText, hfraction, fractionPart, bytesOf_empty, read_bind,
      read_accept_of_ne hhead, read_pure]
  · have htake := digits.read_bytes fun byte hbyte => (hends byte hbyte).1
    rw [Numeral.fractionText, hfraction, Option.elim_some, bytesOf_append, bytesOf_point,
      digits.bytesOf_text, List.append_assoc, List.cons_append, List.nil_append, fractionPart,
      read_bind_ok _ (read_accept_self 0x2E _), if_pos rfl, read_bind_ok _ htake]
    rfl

/-- What follows the whole part does not go on with its digits. -/
theorem isDigit_of_head_fractionText (n : Numeral) (hends : EndsDigits rest) :
    ∀ byte ∈ (bytesOf n.fractionText ++ rest).head?, isDigit byte = false := by
  rcases hfraction : n.fraction with - | digits
  · simpa [Numeral.fractionText, hfraction, bytesOf_empty] using
      fun byte hbyte => (hends byte hbyte).1
  · simp [Numeral.fractionText, hfraction, bytesOf_point, isDigit]

/-- An exponent has its mark, its sign and its digits. -/
theorem bytesOf_exponent (e : Exponent) :
    bytesOf e.text =
      (if e.isCapital then 0x45 else 0x65) :: (bytesOf e.sign.text ++ e.digits.bytes) := by
  rw [Exponent.text, bytesOf_append, bytesOf_append, Digits.bytesOf_text]
  cases e.isCapital
  · simp [bytesOf_smallMark]
  · simp [bytesOf_capitalMark]

/-- The exponent is read, if there is one. -/
theorem read_exponentPart (n : Numeral) (hstop : Stops rest) :
    (exponentPart atEnd).read (bytesOf n.exponentText ++ rest) =
      .ok (n.exponent.map Exponent.spelled, rest) := by
  rcases hexponent : n.exponent with - | e
  · have hsmall : rest.head? ≠ some 0x65 := fun h => by
      have := hstop _ h
      simp [continuesNumber] at this
    have hcapital : rest.head? ≠ some 0x45 := fun h => by
      have := hstop _ h
      simp [continuesNumber] at this
    simp [Numeral.exponentText, hexponent, exponentPart, bytesOf_empty, read_bind,
      read_accept_of_ne, hsmall, hcapital, read_pure]
  · have hmarks : ∀ digit, digitByte digit ≠ 0x2B ∧ digitByte digit ≠ 0x2D := by decide
    have hmore : ∀ digit ∈ e.digits.rest.map digitByte, isDigit digit = true := by
      simp [isDigit_digitByte]
    have htake := read_takeWhile_isDigit hmore fun byte hbyte =>
      (hstop.endsDigits byte hbyte).1
    rw [Numeral.exponentText, hexponent, Option.elim_some, bytesOf_exponent]
    rcases e with ⟨isCapital, sign, digits⟩
    cases isCapital <;> cases sign <;>
      simp [exponentPart, read_bind, read_accept, Sign.text, bytesOf_plus, bytesOf_minus,
        bytesOf_empty, hmarks, nextOr, Digits.bytes, isDigit_digitByte, htake, read_pure,
        Exponent.spelled, Sign.isMinus]

/-- What follows the fraction does not go on with its digits. -/
theorem endsDigits_exponentText (n : Numeral) (hstop : Stops rest) :
    EndsDigits (bytesOf n.exponentText ++ rest) := by
  rcases hexponent : n.exponent with - | e
  · simpa [Numeral.exponentText, hexponent, bytesOf_empty] using hstop.endsDigits
  · rw [Numeral.exponentText, hexponent, Option.elim_some, bytesOf_exponent]
    cases e.isCapital <;> simp [EndsDigits, isDigit]

/-- Reads what follows the sign of a number. -/
def unsigned (atEnd : Cause) (isNegative : Bool) (first : UInt8) : Reader Spelling := do
  let whole ← wholePart first
  let fraction ← fractionPart atEnd
  let exponent ← exponentPart atEnd
  return ⟨isNegative, whole, fraction, exponent⟩

/-- A minus goes before a number without a sign. -/
theorem read_spelling_minus (atEnd : Cause) (byte : UInt8) (text : Bytes) :
    (spelling atEnd 0x2D).read (byte :: text) = (unsigned atEnd true byte).read text :=
  rfl

/-- Any other first byte is that of a number without a sign. -/
theorem spelling_of_ne {first : UInt8} (h : first ≠ 0x2D) (atEnd : Cause) :
    spelling atEnd first = unsigned atEnd false first := by
  have hfirst : (first == 0x2D) = false := by simpa using h
  simp [spelling, unsigned, hfirst]

/-- Behind its sign a numeral is read up to its end. -/
theorem read_unsigned (atEnd : Cause) (n : Numeral) (isNegative : Bool) (hstop : Stops rest) :
    (unsigned atEnd isNegative (digitByte n.whole.first)).read
      (n.whole.rest.map digitByte ++
        (bytesOf n.fractionText ++ (bytesOf n.exponentText ++ rest))) =
      .ok ({ n.spelling with isNegative := isNegative }, rest) := by
  have hzero : ∀ digit : Fin 10, digitByte digit = 0x30 → digit = 0 := by decide
  have hends := endsDigits_exponentText n hstop
  have hwhole := read_wholePart (fun _ => Digits.isDigit_of_mem_bytes (d := n.whole))
    (fun h => by rw [n.noLeadingZero (hzero _ h), List.map_nil])
    (isDigit_of_head_fractionText n hends)
  rw [unsigned, read_bind_ok _ hwhole, read_bind_ok _ (read_fractionPart n hends),
    read_bind_ok _ (read_exponentPart n hstop), read_pure]
  rfl

end Number

namespace Numeral

/-- A numeral is read from its first byte on, whole and with nothing of what follows. -/
theorem exists_read_spelling (n : Numeral) :
    ∃ first more, bytesOf n.token = first :: more ∧ Value.beginsNumber first = true ∧
      ∀ atEnd rest, Stops rest →
        (Number.spelling atEnd first).read (more ++ rest) = .ok (n.spelling, rest) := by
  have hbegins : ∀ digit, Value.beginsNumber (digitByte digit) = true ∧ digitByte digit ≠ 0x2D := by
    decide
  obtain ⟨hdigit, hne⟩ := hbegins n.whole.first
  have hsame : n.spelling = { n.spelling with isNegative := n.isNegative } := rfl
  rcases hsign : n.isNegative with - | -
  · refine ⟨digitByte n.whole.first, n.whole.rest.map digitByte ++
      (bytesOf n.fractionText ++ bytesOf n.exponentText), ?_, hdigit, ?_⟩
    · simp [token, hsign, Digits.bytesOf_text, Digits.bytes]
    · intro atEnd rest hstop
      rw [Number.spelling_of_ne hne, hsame, hsign]
      simpa using Number.read_unsigned atEnd n false hstop
  · refine ⟨0x2D, digitByte n.whole.first :: (n.whole.rest.map digitByte ++
      (bytesOf n.fractionText ++ bytesOf n.exponentText)), ?_, rfl, ?_⟩
    · simp [token, hsign, bytesOf_minus, Digits.bytesOf_text, Digits.bytes]
    · intro atEnd rest hstop
      rw [List.cons_append, Number.read_spelling_minus, hsame, hsign]
      simpa using Number.read_unsigned atEnd n true hstop

end Numeral

/-! ## Natural numbers -/

/-- The number that digits after a number make of it. -/
def valueFrom (value : Nat) (digits : List (Fin 10)) : Nat :=
  digits.foldl (fun value digit => value * 10 + digit.val) value

/-- Digits after a number never make less of it. -/
theorem le_valueFrom (value : Nat) (digits : List (Fin 10)) : value ≤ valueFrom value digits := by
  induction digits generalizing value with
  | nil => exact Nat.le_refl value
  | cons digit digits ih =>
    have := ih (value * 10 + digit.val)
    simp only [valueFrom, List.foldl_cons] at this ⊢
    omega

/-- All digits are gathered if their number stays below the limit. -/
theorem gather_eq {limit value : Nat} {digits : List (Fin 10)}
    (h : valueFrom value digits < limit) :
    Number.gather limit value (digits.map digitByte) = (valueFrom value digits, digits.length) := by
  have hvalue : ∀ digit, Number.digitValue (digitByte digit) = digit.val := by decide
  induction digits generalizing value with
  | nil => rfl
  | cons digit digits ih =>
    have hlonger : value * 10 + digit.val < limit :=
      Nat.lt_of_le_of_lt (le_valueFrom _ digits) h
    simp [Number.gather, hvalue, hlonger, ih h, valueFrom]

/-- The decimal digits of a natural number. -/
theorem exists_digits (n : Nat) :
    ∃ digits : Digits, digits.text = toString n ∧ (digits.first = 0 → digits.rest = []) ∧
      valueFrom 0 (digits.first :: digits.rest) = n := by
  induction n using Nat.strongRecOn with
  | ind n ih =>
    by_cases hsmall : n < 10
    · refine ⟨⟨⟨n, hsmall⟩, []⟩, ?_, fun _ => rfl, ?_⟩
      · rw [Nat.toString_eq_ofList_toDigits, Nat.toDigits_of_lt_base hsmall]
        rfl
      · simp [valueFrom]
    · obtain ⟨digits, htext, hzero, hvalue⟩ := ih (n / 10) (by omega)
      refine ⟨⟨digits.first, digits.rest ++ [⟨n % 10, Nat.mod_lt n (by decide)⟩]⟩, ?_, ?_, ?_⟩
      · rw [Nat.toString_eq_ofList_toDigits] at htext ⊢
        rw [Nat.toDigits_of_base_le (by decide) (by omega)]
        rw [Digits.text, String.ofList_inj] at htext
        rw [← htext, Digits.text]
        simp
      · intro h
        have : n / 10 = 0 := by rw [← hvalue, h, hzero h]; rfl
        omega
      · rw [valueFrom] at hvalue
        rw [← List.cons_append, valueFrom, List.foldl_append, hvalue]
        simp only [List.foldl_cons, List.foldl_nil]
        omega

/-- The numeral of a natural number without needless zeros. -/
def Digits.numeral (digits : Digits) (hzero : digits.first = 0 → digits.rest = []) : Numeral :=
  ⟨false, digits, hzero, none, none⟩

/-- A natural number is written with its digits only. -/
theorem Digits.token_numeral (digits : Digits) (hzero : digits.first = 0 → digits.rest = []) :
    (digits.numeral hzero).token = digits.text := by
  simp [Numeral.token, numeral, Numeral.fractionText, Numeral.exponentText]

namespace Number

/-- Digits below the limit of a word stand for their number. -/
theorem read_ofSpelling_numeral (digits : Digits) (hzero : digits.first = 0 → digits.rest = [])
    (hvalue : valueFrom 0 (digits.first :: digits.rest) < wordLimit) (text : Bytes) :
    (ofSpelling (digits.numeral hzero).spelling).read text =
      .ok (.natural (valueFrom 0 (digits.first :: digits.rest)), text) := by
  have hlength : digits.bytes.length = (digits.first :: digits.rest).length := by
    simp [Digits.bytes]
  have hgather := gather_eq hvalue
  rw [← Digits.bytes] at hgather
  simp [ofSpelling, Numeral.spelling, Digits.numeral, hgather, hlength, read_pure]

end Number

namespace Value

/-- A number does not begin with a blank. -/
theorem isBlank_of_beginsNumber {byte : UInt8} (h : beginsNumber byte = true) :
    isBlank byte = false := by
  by_contra hblank
  simp only [isBlank, Bool.not_eq_false, Bool.or_eq_true, beq_iff_eq] at hblank
  rcases hblank with ((rfl | rfl) | rfl) | rfl <;> cases h

/-- The decimal digits of a natural number below the limit are read as that number. -/
theorem takes_natural {limit n : Nat} (hlimit : limit ≤ Number.wordLimit) (hn : n < limit)
    (expected : String) : (natural limit expected).Takes [toString n] n := by
  intro after text htext hfollows
  obtain ⟨digits, hdigits, hzero, hvalue⟩ := exists_digits n
  have hnumber := Number.read_ofSpelling_numeral digits hzero (by rw [hvalue]; omega)
  obtain ⟨first, more, hbytes, hbegins, hspelling⟩ := (digits.numeral hzero).exists_read_spelling
  rw [Digits.token_numeral, hdigits] at hbytes
  obtain ⟨rest, hread, hrest⟩ := htext.exists_read_token hbytes (isBlank_of_beginsNumber hbegins)
    .endInValue _
  refine ⟨rest, ?_, hrest⟩
  have hreader : (Number.reader first).read (more ++ rest) = .ok (.natural n, rest) := by
    rw [Number.reader, read_bind_ok _ (hspelling _ _ (hrest.stops hfollows)), hnumber, hvalue]
  rw [natural, hread, if_pos hbegins, read_bind_ok _ hreader]
  simp only [if_pos hn, read_pure]

end Value

end IdCompaction.Json
