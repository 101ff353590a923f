import IdCompaction.Proofs.Json.Literal
import IdCompaction.Proofs.Json.Numeral

/-!
# Values of any kind

A value is a word, a number, a string, a list or an object, nested to any depth. A reader that skips
values takes all the tokens of a value away, whatever the value, and no others: the open lists and
objects are on its stack, and each value leaves the stack as it was.
-/

namespace IdCompaction.Json

open Reader

/-! ## Tokens -/

/-- Items of a list or an object, with a comma before each but the first. -/
def listed : (isFirst : Bool) → List (List String) → List String
  | _, [] => []
  | true, item :: items => item ++ listed false items
  | false, item :: items => "," :: (item ++ listed false items)

/-- An item comes after a comma, unless it is the first. -/
theorem listed_cons (isFirst : Bool) (item : List String) (items : List (List String)) :
    listed isFirst (item :: items) =
      (if isFirst then [] else [","]) ++ item ++ listed false items := by
  cases isFirst <;> simp [listed]

/-- A value of any kind. -/
inductive Tree
  | null
  | boolean (value : Bool)
  | number (numeral : Numeral)
  | text (content : List Piece)
  | list (elements : List Tree)
  /-- Keys may come more than once. -/
  | object (members : List (List Piece × Tree))

mutual

/-- The tokens of a value. -/
def Tree.tokens : Tree → List String
  | .null => ["null"]
  | .boolean true => ["true"]
  | .boolean false => ["false"]
  | .number numeral => [numeral.token]
  | .text content => [literalToken content]
  | .list elements => "[" :: (listed true (elementTokens elements) ++ ["]"])
  | .object members => "\x7b" :: (listed true (memberTokens members) ++ ["\x7d"])

/-- The tokens of the elements of a list. -/
def elementTokens : List Tree → List (List String)
  | [] => []
  | element :: elements => element.tokens :: elementTokens elements

/-- The tokens of the members of an object. -/
def memberTokens : List (List Piece × Tree) → List (List String)
  | [] => []
  | (key, value) :: members => (literalToken key :: ":" :: value.tokens) :: memberTokens members

end

/-- The first byte of the first token, which is no blank. -/
def Begins (tokens : List String) (byte : UInt8) : Prop :=
  isBlank byte = false ∧ ∃ first more rest, tokens = first :: rest ∧ bytesOf first = byte :: more

/-- What comes after tokens does not change how they begin. -/
theorem Begins.append {tokens : List String} {byte : UInt8} (h : Begins tokens byte)
    (after : List String) : Begins (tokens ++ after) byte := by
  obtain ⟨hblank, first, more, rest, rfl, hbytes⟩ := h
  exact ⟨hblank, first, more, rest ++ after, rfl, hbytes⟩

/-- The word for nothing, with the letters that follow its first. -/
theorem bytesOf_null : bytesOf "null" = 0x6E :: Value.nullRest := by
  rw [bytesOf_eq_flatMap]
  rfl

/-- The word for true, with the letters that follow its first. -/
theorem bytesOf_true : bytesOf "true" = 0x74 :: Value.trueRest := by
  rw [bytesOf_eq_flatMap]
  rfl

/-- The word for false, with the letters that follow its first. -/
theorem bytesOf_false : bytesOf "false" = 0x66 :: Value.falseRest := by
  rw [bytesOf_eq_flatMap]
  rfl

/-- No value begins like the end of a list or an object. -/
theorem Tree.exists_begins (tree : Tree) :
    ∃ byte, Begins tree.tokens byte ∧ byte ≠ 0x5D ∧ byte ≠ 0x7D := by
  cases tree with
  | null => exact ⟨0x6E, ⟨rfl, _, _, _, rfl, bytesOf_null⟩, by decide, by decide⟩
  | boolean value =>
    cases value
    · exact ⟨0x66, ⟨rfl, _, _, _, rfl, bytesOf_false⟩, by decide, by decide⟩
    · exact ⟨0x74, ⟨rfl, _, _, _, rfl, bytesOf_true⟩, by decide, by decide⟩
  | number numeral =>
    obtain ⟨first, more, hbytes, hbegins, -⟩ := numeral.exists_read_spelling
    refine ⟨first, ⟨Value.isBlank_of_beginsNumber hbegins, _, _, _, rfl, hbytes⟩, ?_, ?_⟩
    · rintro rfl
      cases hbegins
    · rintro rfl
      cases hbegins
  | text content =>
    exact ⟨0x22, ⟨rfl, _, _, _, rfl, bytesOf_nameToken _⟩, by decide, by decide⟩
  | list elements =>
    exact ⟨0x5B, ⟨rfl, _, _, _, rfl, bytesOf_listOpener⟩, by decide, by decide⟩
  | object members =>
    exact ⟨0x7B, ⟨rfl, _, _, _, rfl, bytesOf_objectOpener⟩, by decide, by decide⟩

/-- A word is taken letter by letter. -/
theorem Value.read_word (letters rest : Bytes) :
    (word letters).read (letters ++ rest) = .ok ((), rest) := by
  induction letters with
  | nil => rfl
  | cons letter letters ih =>
    rw [List.cons_append, word, read_bind_ok _ rfl, if_pos rfl, ih]

/-- A colon is read from its token. -/
theorem Value.passes_colon : colon.Passes [":"] () := by
  intro after text h
  obtain ⟨rest, hread, hrest⟩ := h.exists_read_token bytesOf_colon rfl .endInObject _
  exact ⟨rest, hread, hrest⟩

/-! ## Skipping -/

namespace Frame

/-- The token that opens the frame. -/
def openToken : Frame → String
  | .list => "["
  | .object => "\x7b"

/-- The token that closes the frame. -/
def closeToken : Frame → String
  | .list => "]"
  | .object => "\x7d"

/-- The closer of a frame is one byte. -/
theorem bytesOf_closeToken (frame : Frame) : bytesOf frame.closeToken = [frame.closer] := by
  cases frame
  · exact bytesOf_listCloser
  · exact bytesOf_objectCloser

/-- The closer of a frame is no blank. -/
theorem isBlank_closer (frame : Frame) : isBlank frame.closer = false := by
  cases frame <;> rfl

/-- After an item there is a comma or the end of the frame. -/
theorem follows_listed (frame : Frame) (items : List (List String)) (after : List String) :
    Follows (listed false items ++ frame.closeToken :: after) := by
  cases items <;> cases frame <;> simp [listed, Follows, closeToken]

end Frame

namespace Skip

variable {frame : Frame} {frames : List Frame} {text rest : Bytes} {led after : List String}

/-- A value that is over at its beginning leaves the run behind it. -/
theorem run_of_begin_none (h : begin.read text = .ok (none, rest)) :
    run .before frames text = run .after frames rest := by
  rw [run]
  split <;> simp_all

/-- A value that opens a frame leaves the run before the first value of the frame. -/
theorem run_of_begin_some (h : begin.read text = .ok (some frame, rest)) :
    run .before frames text = run .before (frame :: frames) rest := by
  rw [run]
  split <;> simp_all

/-- A frame that goes on leaves the run before its next value. -/
theorem run_of_follow_true (h : (follow frame).read text = .ok (true, rest)) :
    run .after (frame :: frames) text = run .before (frame :: frames) rest := by
  conv =>
    lhs
    rw [run]
  split <;> simp_all

/-- A frame that ends leaves the run behind the value that it was. -/
theorem run_of_follow_false (h : (follow frame).read text = .ok (false, rest)) :
    run .after (frame :: frames) text = run .after frames rest := by
  rw [run]
  split <;> simp_all

/-- Nothing leads to an element of a list. -/
theorem passes_lead_list : (lead .list).Passes [] () :=
  fun _ text h => ⟨text, rfl, h⟩

/-- A key and its colon lead to a value of an object. -/
theorem passes_lead_object (key : List Piece) :
    (lead .object).Passes [literalToken key, ":"] () := by
  intro after text h
  obtain ⟨rest, hread, hrest⟩ := h.exists_read_token (bytesOf_nameToken _) rfl .endInObject _
  obtain ⟨content, hbody⟩ := Text.exists_read_body_skipping key rest
  obtain ⟨rest', hcolon, hrest'⟩ := Value.passes_colon after rest hrest
  refine ⟨rest', ?_, hrest'⟩
  rw [lead, hread, if_pos rfl, List.append_assoc, List.singleton_append, read_bind_ok _ hbody,
    hcolon]

/-- The closer ends a frame. -/
theorem passes_follow_closeToken (frame : Frame) :
    (follow frame).Passes [frame.closeToken] false := by
  intro after text h
  obtain ⟨rest, hread, hrest⟩ :=
    h.exists_read_token frame.bytesOf_closeToken frame.isBlank_closer frame.atEnd _
  refine ⟨rest, ?_, hrest⟩
  rw [follow, hread]
  cases frame <;> rfl

/-- A comma leads to the next value of a frame. -/
theorem passes_follow_comma (hlead : (lead frame).Passes led ()) :
    (follow frame).Passes ("," :: led) true := by
  intro after text h
  obtain ⟨middle, hread, hmiddle⟩ := h.exists_read_token bytesOf_comma rfl frame.atEnd _
  obtain ⟨rest, hled, hrest⟩ := hlead after middle hmiddle
  refine ⟨rest, ?_, hrest⟩
  rw [follow, hread, if_pos rfl, List.nil_append, read_bind_ok _ hled, read_pure]

/-- A frame may end at its opener. -/
theorem passes_enter_closeToken (frame : Frame) :
    (enter frame).Passes [frame.closeToken] none := by
  intro after text h
  obtain ⟨rest, hread, hrest⟩ :=
    h.exists_read_peekToken frame.bytesOf_closeToken frame.isBlank_closer _
  refine ⟨rest, ?_, hrest⟩
  rw [enter, hread]
  simp only [if_pos, List.nil_append]
  rfl

/-- What leads to the first item of a frame is taken with its opener. -/
theorem exists_read_enter {byte : UInt8} (hlead : (lead frame).Passes led ())
    (hbegins : Begins (led ++ after) byte) (hne : byte ≠ frame.closer)
    (h : Spaced (led ++ after) text) :
    ∃ rest, (enter frame).read text = .ok (some frame, rest) ∧ Spaced after rest := by
  obtain ⟨hblank, first, more, tokens, htokens, hbytes⟩ := hbegins
  rw [htokens] at h
  obtain ⟨middle, hread, hmiddle⟩ := h.exists_read_peekToken hbytes hblank _
  have hspaced := hmiddle.cons_bytes hbytes
  rw [← htokens] at hspaced
  obtain ⟨rest, hled, hrest⟩ := hlead after _ hspaced
  refine ⟨rest, ?_, hrest⟩
  rw [enter, hread]
  simp only [if_neg hne]
  rw [read_bind_ok _ hled, read_pure]

/-- The tokens are those of a value: they are passed over with any frames open. -/
def Passed (tokens : List String) : Prop :=
  ∀ (frames : List Frame) (after : List String) (text : Bytes), Spaced (tokens ++ after) text →
    Follows after → ∃ rest, run .before frames text = run .after frames rest ∧ Spaced after rest

/-- A value without parts is passed over at its beginning. -/
theorem passed_of_begin {tokens : List String} (h : begin.Takes tokens none) : Passed tokens := by
  intro frames after text htext hfollows
  obtain ⟨rest, hread, hrest⟩ := h after text htext hfollows
  exact ⟨rest, run_of_begin_none hread, hrest⟩

/-- The words are passed over. -/
theorem passes_begin_word {token : String} {byte : UInt8} {letters : Bytes}
    (hbytes : bytesOf token = byte :: letters)
    (hword : (byte, letters) ∈
      [(0x6E, Value.nullRest), (0x74, Value.trueRest), (0x66, Value.falseRest)]) :
    begin.Passes [token] none := by
  simp only [List.mem_cons, Prod.mk.injEq, List.not_mem_nil, or_false] at hword
  intro after text h
  rcases hword with ⟨rfl, rfl⟩ | ⟨rfl, rfl⟩ | ⟨rfl, rfl⟩ <;>
  · obtain ⟨rest, hread, hrest⟩ := h.exists_read_token hbytes rfl .endInValue _
    exact ⟨rest, hread.trans (read_bind_ok _ (Value.read_word _ rest)), hrest⟩

/-- A text is passed over at its beginning. -/
theorem passes_begin_text (content : List Piece) : begin.Passes [literalToken content] none := by
  intro after text h
  obtain ⟨rest, hread, hrest⟩ := h.exists_read_token (bytesOf_nameToken _) rfl .endInValue _
  obtain ⟨found, hbody⟩ := Text.exists_read_body_skipping content rest
  refine ⟨rest, ?_, hrest⟩
  rw [begin, hread, List.append_assoc, List.singleton_append]
  exact read_bind_ok _ hbody

/-- So is a number, if what follows cannot belong to it. -/
theorem takes_begin_number (numeral : Numeral) : begin.Takes [numeral.token] none := by
  intro after text h hfollows
  obtain ⟨first, more, hbytes, hbegins, hspelling⟩ := numeral.exists_read_spelling
  obtain ⟨rest, hread, hrest⟩ := h.exists_read_token hbytes
    (Value.isBlank_of_beginsNumber hbegins) .endInValue _
  have hskip : (Number.skip first).read (more ++ rest) = .ok ((), rest) := by
    rw [Number.skip, read_bind_ok _ (hspelling _ rest (hrest.stops hfollows)), read_pure]
  have hlist : first ≠ 0x5B := by
    rintro rfl
    cases hbegins
  have hobject : first ≠ 0x7B := by
    rintro rfl
    cases hbegins
  refine ⟨rest, ?_, hrest⟩
  rw [begin, hread, if_neg hlist, if_neg hobject, if_pos hbegins, read_bind_ok _ hskip, read_pure]

/-- After its opener the skipping of a frame enters it. -/
theorem exists_read_begin_openToken (frame : Frame) (h : Spaced (frame.openToken :: after) text) :
    ∃ rest, begin.read text = (enter frame).read rest ∧ Spaced after rest := by
  cases frame with
  | list =>
    obtain ⟨rest, hread, hrest⟩ := h.exists_read_token bytesOf_listOpener rfl .endInValue _
    exact ⟨rest, hread, hrest⟩
  | object =>
    obtain ⟨rest, hread, hrest⟩ := h.exists_read_token bytesOf_objectOpener rfl .endInValue _
    exact ⟨rest, hread, hrest⟩

/-- An item of a frame: what leads to a value, and the value. -/
structure Item (frame : Frame) where
  led : List String
  value : List String
  passes_led : (lead frame).Passes led ()
  passed_value : Passed value
  exists_begins : ∃ byte, Begins (led ++ value) byte ∧ byte ≠ frame.closer

/-- The tokens of an item. -/
def Item.tokens (item : Item frame) : List String := item.led ++ item.value

/-- After a value the rest of its frame is passed over. -/
theorem exists_run_items (items : List (Item frame)) (frames : List Frame)
    (h : Spaced (listed false (items.map Item.tokens) ++ frame.closeToken :: after) text) :
    ∃ rest, run .after (frame :: frames) text = run .after frames rest ∧ Spaced after rest := by
  induction items generalizing text with
  | nil =>
    obtain ⟨rest, hread, hrest⟩ := passes_follow_closeToken frame after text h
    exact ⟨rest, run_of_follow_false hread, hrest⟩
  | cons item items ih =>
    simp only [List.map_cons, listed, Item.tokens, List.cons_append, List.append_assoc] at h
    obtain ⟨lead, hread, hlead⟩ := passes_follow_comma item.passes_led _ text h
    obtain ⟨middle, hvalue, hmiddle⟩ :=
      item.passed_value (frame :: frames) _ lead hlead (frame.follows_listed _ after)
    obtain ⟨rest, hrun, hrest⟩ := ih hmiddle
    exact ⟨rest, by rw [run_of_follow_true hread, hvalue, hrun], hrest⟩

/-- A list or an object is passed over if its items are. -/
theorem passed_frame (items : List (Item frame)) :
    Passed (frame.openToken :: (listed true (items.map Item.tokens) ++ [frame.closeToken])) := by
  intro frames after text h hfollows
  rw [List.cons_append, List.append_assoc, List.singleton_append] at h
  obtain ⟨inside, hbegin, hinside⟩ := exists_read_begin_openToken frame h
  cases items with
  | nil =>
    obtain ⟨rest, hread, hrest⟩ := passes_enter_closeToken frame after inside hinside
    exact ⟨rest, run_of_begin_none (hbegin.trans hread), hrest⟩
  | cons item items =>
    obtain ⟨byte, hbegins, hne⟩ := item.exists_begins
    simp only [List.map_cons, listed, Item.tokens, List.append_assoc] at hinside
    have hfirst := hbegins.append
      (listed false (items.map Item.tokens) ++ frame.closeToken :: after)
    rw [List.append_assoc] at hfirst
    obtain ⟨lead, hread, hlead⟩ := exists_read_enter item.passes_led hfirst hne hinside
    obtain ⟨middle, hvalue, hmiddle⟩ :=
      item.passed_value (frame :: frames) _ lead hlead (frame.follows_listed _ after)
    obtain ⟨rest, hrun, hrest⟩ := exists_run_items items frames hmiddle
    exact ⟨rest, by rw [run_of_begin_some (hbegin.trans hread), hvalue, hrun], hrest⟩

/-- An element of a list is an item of it. -/
def elementItem (element : Tree) (h : Passed element.tokens) : Item .list where
  led := []
  value := element.tokens
  passes_led := passes_lead_list
  passed_value := h
  exists_begins := by
    obtain ⟨byte, hbegins, hne, -⟩ := element.exists_begins
    exact ⟨byte, hbegins, hne⟩

/-- A member of an object is an item of it. -/
def memberItem (member : List Piece × Tree) (h : Passed member.2.tokens) : Item .object where
  led := [literalToken member.1, ":"]
  value := member.2.tokens
  passes_led := passes_lead_object member.1
  passed_value := h
  exists_begins := ⟨0x22, ⟨rfl, _, _, _, rfl, bytesOf_nameToken _⟩, by decide⟩

mutual

/-- Every value is passed over. -/
theorem passed_tokens (tree : Tree) : Passed tree.tokens := by
  cases tree with
  | null => exact passed_of_begin (passes_begin_word bytesOf_null (by simp)).takes
  | boolean value =>
    cases value
    · exact passed_of_begin (passes_begin_word bytesOf_false (by simp)).takes
    · exact passed_of_begin (passes_begin_word bytesOf_true (by simp)).takes
  | number numeral => exact passed_of_begin (takes_begin_number numeral)
  | text content => exact passed_of_begin (passes_begin_text content).takes
  | list elements =>
    obtain ⟨items, hitems⟩ := exists_elementItems elements
    rw [Tree.tokens, ← hitems]
    exact passed_frame items
  | object members =>
    obtain ⟨items, hitems⟩ := exists_memberItems members
    rw [Tree.tokens, ← hitems]
    exact passed_frame items

/-- All elements of a list are items of it. -/
theorem exists_elementItems (elements : List Tree) :
    ∃ items : List (Item .list), items.map Item.tokens = elementTokens elements := by
  cases elements with
  | nil => exact ⟨[], rfl⟩
  | cons element elements =>
    obtain ⟨items, hitems⟩ := exists_elementItems elements
    refine ⟨elementItem element (passed_tokens element) :: items, ?_⟩
    rw [List.map_cons, hitems]
    rfl

/-- All members of an object are items of it. -/
theorem exists_memberItems (members : List (List Piece × Tree)) :
    ∃ items : List (Item .object), items.map Item.tokens = memberTokens members := by
  match members with
  | [] => exact ⟨[], rfl⟩
  | (key, value) :: members =>
    obtain ⟨items, hitems⟩ := exists_memberItems members
    refine ⟨memberItem (key, value) (passed_tokens value) :: items, ?_⟩
    rw [List.map_cons, hitems]
    rfl

end

/-- Whatever the value, all of its tokens are skipped and no others. -/
theorem takes_value (tree : Tree) : value.Takes tree.tokens () := by
  intro after text h hfollows
  obtain ⟨rest, hrun, hrest⟩ := passed_tokens tree [] after text h hfollows
  refine ⟨rest, hrun.trans ?_, hrest⟩
  rw [run]

end Skip

end IdCompaction.Json
