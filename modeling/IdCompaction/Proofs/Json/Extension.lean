import IdCompaction.Proofs.Json.Tree

/-!
# Readers and what follows

What a reader has read does not depend on what follows the text, as long as something is left of
the text, so that the reader has seen where to stop. A record shows its own end: once it has been
read, it is read again in front of any other text.
-/

namespace IdCompaction.Json

namespace Reader

variable {α β : Type} {atEnd : Bool}

/-! ## Readers that stay the same -/

/-- What has been read stays the same if the text goes on, as long as something of it is left; with
`atEnd`, also if nothing is left. -/
def Extends (atEnd : Bool) (r : Reader α) : Prop :=
  ∀ (text : Bytes) (value : α) (rest more : Bytes), r.read text = .ok (value, rest) →
    atEnd = true ∨ rest ≠ [] → r.read (text ++ more) = .ok (value, rest ++ more)

/-- Nothing is ever read. -/
def Fails (r : Reader α) : Prop :=
  ∀ (text : Bytes) (value : α) (rest : Bytes), r.read text ≠ .ok (value, rest)

/-- A sequence of readers has read what its second part reads behind the first. -/
theorem read_bind_eq_ok_iff {r : Reader α} {f : α → Reader β} {text rest : Bytes} {value : β} :
    (r >>= f).read text = .ok (value, rest) ↔
      ∃ first middle, r.read text = .ok (first, middle) ∧
        (f first).read middle = .ok (value, rest) := by
  rw [read_bind]
  rcases r.read text with halt | ⟨first, middle⟩
  · simp
  · simp [and_assoc]

/-- A reader that never reads anything has nothing to change. -/
theorem Fails.extends {r : Reader α} (h : r.Fails) : r.Extends atEnd :=
  fun text value rest _ hread => absurd hread (h text value rest)

/-- A sequence fails if its second part does, whatever the first reads. -/
theorem Fails.bind (r : Reader α) {f : α → Reader β} (h : ∀ value, (f value).Fails) :
    (r >>= f).Fails := by
  intro text value rest hread
  obtain ⟨first, middle, -, hf⟩ := read_bind_eq_ok_iff.mp hread
  exact h first middle value rest hf

/-- A halt at the place that has been reached reads nothing. -/
theorem fails_failHere (cause : Cause) : (failHere cause : Reader α).Fails :=
  fun _ _ _ => nofun

/-- Nor does a halt one byte further on. -/
theorem fails_failNext (cause : Cause) : (failNext cause : Reader α).Fails :=
  fun _ _ _ => nofun

/-- Nor does a halt some bytes back. -/
theorem fails_failBefore (count : Nat) (cause : Cause) :
    (failBefore count cause : Reader α).Fails :=
  fun _ _ _ => nofun

/-- A sequence of two readers stays the same if both do: what the second leaves the first has left
too. -/
theorem Extends.bind {r : Reader α} {f : α → Reader β} (hr : r.Extends atEnd)
    (hf : ∀ value, (f value).Extends atEnd) : (r >>= f).Extends atEnd := by
  intro text value rest more hread hleft
  obtain ⟨first, middle, hfirst, hrest⟩ := read_bind_eq_ok_iff.mp hread
  have hmiddle : atEnd = true ∨ middle ≠ [] := by
    refine hleft.imp_right fun hne hnil => hne ?_
    have hlength := (f first).length_le hrest
    rw [hnil] at hlength
    exact List.length_eq_zero_iff.mp (Nat.le_zero.mp hlength)
  rw [read_bind_ok _ (hr text first middle more hfirst hmiddle)]
  exact hf first middle value rest more hrest hleft

/-- Either branch may be taken. -/
theorem Extends.ite {p : Prop} [Decidable p] {r s : Reader α} (hr : r.Extends atEnd)
    (hs : s.Extends atEnd) : (if p then r else s).Extends atEnd := by
  split <;> assumption

/-- A choice between failures fails. -/
theorem Fails.ite {p : Prop} [Decidable p] {r s : Reader α} (hr : r.Fails) (hs : s.Fails) :
    (if p then r else s).Fails := by
  split <;> assumption

/-- A reader that takes nothing stays the same even at the end of the text. -/
theorem extends_pure (value : α) : (pure value : Reader α).Extends atEnd := by
  intro text found rest more hread _
  rw [read_pure] at hread ⊢
  injection hread with hread
  injection hread with hfound htext
  rw [hfound, htext]

/-- One byte shows its own end. -/
theorem extends_nextOr (cause : Cause) : (nextOr cause).Extends atEnd := by
  intro text found rest more hread _
  cases text with
  | nil => cases hread
  | cons byte text =>
    cases hread
    rfl

/-- A byte that was seen ahead is still ahead. -/
theorem extends_peek : peek.Extends false := by
  intro text found rest more hread hleft
  cases text with
  | nil =>
    cases hread
    simp at hleft
  | cons byte text =>
    cases hread
    rfl

/-- The longest run of bytes that pass a test ends at the byte that is left. -/
theorem extends_takeWhile (test : UInt8 → Bool) : (takeWhile test).Extends false := by
  intro text found rest more hread hleft
  cases hread
  have hne : (text.dropWhile test).isEmpty = false := by simpa using hleft
  have htake : (text ++ more).takeWhile test = text.takeWhile test := by
    rw [List.takeWhile_append]
    refine if_neg fun hlength => ?_
    have hsplit : (text.takeWhile test ++ text.dropWhile test).length = text.length := by
      rw [List.takeWhile_append_dropWhile]
    rw [List.length_append, hlength] at hsplit
    have hnil : text.dropWhile test = [] := List.length_eq_zero_iff.mp (by omega)
    rw [hnil] at hne
    cases hne
  change Except.ok ((text ++ more).takeWhile test, (text ++ more).dropWhile test) = _
  rw [htake, List.dropWhile_append, hne]
  rfl

/-- A byte that was not the expected one is left, and it is still not. -/
theorem extends_accept (byte : UInt8) : (accept byte).Extends false := by
  intro text found rest more hread hleft
  rw [read_accept] at hread ⊢
  cases text with
  | nil =>
    cases hread
    simp at hleft
  | cons first text =>
    rw [List.cons_append, List.head?_cons, List.tail_cons]
    rw [List.head?_cons, List.tail_cons] at hread
    by_cases hbyte : some first = some byte
    · rw [if_pos hbyte] at hread ⊢
      cases hread
      rfl
    · rw [if_neg hbyte] at hread ⊢
      cases hread
      rfl

/-- A token has seen where the blanks before it stop. -/
theorem extends_token (cause : Cause) : (token cause).Extends atEnd := by
  intro text byte rest more hread _
  have htoken (text : Bytes) :
      (token cause).read text = (nextOr cause).read (text.dropWhile isBlank) := rfl
  rw [htoken] at hread ⊢
  rw [List.dropWhile_append]
  cases hdrop : text.dropWhile isBlank with
  | nil =>
    rw [hdrop] at hread
    cases hread
  | cons first tail =>
    rw [hdrop] at hread
    exact extends_nextOr cause _ _ _ more hread (.inl rfl)

/-- What begins with a peek at the next token only goes on where there is one. -/
theorem extends_peekToken_bind {f : Option UInt8 → Reader β} (hnone : (f none).Fails)
    (hsome : ∀ byte text (value : β) rest more,
      (f (some byte)).read (byte :: text) = .ok (value, rest) →
        (f (some byte)).read (byte :: (text ++ more)) = .ok (value, rest ++ more)) :
    (peekToken >>= f).Extends atEnd := by
  intro text value rest more hread _
  rw [read_peekToken_bind] at hread ⊢
  rw [List.dropWhile_append]
  cases hdrop : text.dropWhile isBlank with
  | nil =>
    rw [hdrop] at hread
    exact absurd hread (hnone _ _ _)
  | cons byte tail =>
    rw [hdrop] at hread
    exact hsome byte tail value rest more hread

/-- Nothing is read from an empty text. -/
def Needs (r : Reader α) : Prop := ∀ (value : α) (rest : Bytes), r.read [] ≠ .ok (value, rest)

/-- What begins with a token needs a byte that is no blank. -/
theorem needs_token_bind (cause : Cause) (f : UInt8 → Reader β) : (token cause >>= f).Needs :=
  fun _ _ => nofun

/-- So does what begins with a look at the next token, if it fails where there is none. -/
theorem needs_peekToken_bind {f : Option UInt8 → Reader β} (h : (f none).Fails) :
    (peekToken >>= f).Needs :=
  fun value rest hread => h [] value rest hread

/-- What a sequence begins with is what it needs. -/
theorem Needs.bind {r : Reader α} (h : r.Needs) (f : α → Reader β) : (r >>= f).Needs := by
  intro value rest hread
  obtain ⟨first, middle, hfirst, -⟩ := read_bind_eq_ok_iff.mp hread
  exact h first middle hfirst

/-- What comes after something that does not show its own end shows it instead. -/
theorem Extends.bind_needs {r : Reader α} {f : α → Reader β} (hr : r.Extends false)
    (hf : ∀ value, (f value).Extends true) (hneeds : ∀ value, (f value).Needs) :
    (r >>= f).Extends true := by
  intro text value rest more hread hleft
  obtain ⟨first, middle, hfirst, hrest⟩ := read_bind_eq_ok_iff.mp hread
  have hmiddle : middle ≠ [] := by
    rintro rfl
    exact hneeds first value rest hrest
  rw [read_bind_ok _ (hr text first middle more hfirst (.inr hmiddle))]
  exact hf first middle value rest more hrest hleft

end Reader

/-! ## Readers of documents -/

open Reader

variable {atEnd : Bool}

namespace Text

/-- Four digits show their own end. -/
theorem extends_fourHex : fourHex.Extends atEnd := by
  intro text code rest more hread _
  match text with
  | [] => cases hread
  | [_] => cases hread
  | [_, _] => cases hread
  | [_, _, _] => cases hread
  | a :: b :: c :: d :: tail =>
    simp only [fourHex, List.cons_append] at hread ⊢
    split at hread
    · cases hread
      simp_all
    · cases hread

/-- So does a byte that has to be there. -/
theorem extends_expectInPair (byte : UInt8) : (expectInPair byte).Extends atEnd := by
  unfold expectInPair
  exact (extends_nextOr _).bind fun _ => (fails_failHere _).extends.ite (extends_pure ())

/-- An escape by number goes on to a second one only if its own number asks for it. -/
theorem extends_numberEscape : numberEscape.Extends atEnd := by
  unfold numberEscape
  refine extends_fourHex.bind fun code => (fails_failHere _).extends.ite (.ite ?_ (extends_pure _))
  refine (extends_expectInPair _).bind fun _ => (extends_expectInPair _).bind fun _ => ?_
  exact extends_fourHex.bind fun _ => (extends_pure _).ite (fails_failHere _).extends

/-- Every escape of a string shows its own end. -/
theorem extends_escape (skipping : Bool) : (escape skipping).Extends atEnd := by
  unfold escape
  refine (extends_nextOr _).bind fun letter => ?_
  cases simpleEscape? letter with
  | some byte => exact extends_pure _
  | none =>
    refine (fails_failHere _).extends.ite (.ite ?_ extends_numberEscape)
    exact extends_fourHex.bind fun _ => extends_pure _

/-- A string shows its own end. -/
theorem extends_body (skipping : Bool) : (body skipping).Extends atEnd := by
  intro text value rest more hread hleft
  change readBody skipping text = .ok (value, rest) at hread
  change readBody skipping (text ++ more) = .ok (value, rest ++ more)
  clear hleft
  fun_induction readBody skipping text generalizing value rest with
  | case1 => cases hread
  | case2 tail =>
    cases hread
    exact readBody_quote skipping _
  | case3 => cases hread
  | case4 => cases hread
  | case5 tail first after hescape _ content last hbody hne ih =>
    cases hread
    exact readBody_escape (extends_escape skipping _ _ _ more hescape (.inl rfl)) (ih _ _ hbody)
  | case6 => cases hread
  | case7 => cases hread
  | case8 byte tail hquote hbackslash hcontrol content last hbody ih =>
    cases hread
    have hplain : ∀ b ∈ [byte], b ≠ 0x22 ∧ b ≠ 0x5C ∧ ¬ b < 0x20 :=
      List.forall_mem_singleton.mpr ⟨hquote, hbackslash, hcontrol⟩
    exact readBody_append hplain (ih _ _ hbody)

end Text

namespace Value

/-- A word is read letter by letter, and its last letter is its end. -/
theorem extends_word (letters : Bytes) : (word letters).Extends atEnd := by
  induction letters with
  | nil => exact extends_pure ()
  | cons letter letters ih =>
    exact (extends_nextOr _).bind fun _ => ih.ite (fails_failHere _).extends

/-- A colon is a token. -/
theorem extends_colon : colon.Extends atEnd :=
  (extends_token _).bind fun _ => (fails_failHere _).extends.ite (extends_pure ())

/-- A value of the wrong type is never read. -/
theorem fails_wrongType {α : Type} (first : UInt8) (expected : String) :
    (wrongType first expected : Reader α).Fails := by
  unfold wrongType
  refine .ite (.bind _ fun _ => fails_failHere _) ?_
  refine .ite (.bind _ fun _ => fails_failHere _) ?_
  refine .ite (.bind _ fun _ => fails_failHere _) ?_
  refine .ite (.bind _ fun _ => fails_failHere _) ?_
  refine .ite (.bind _ fun _ => fails_failHere _) ?_
  exact (fails_failBefore _ _).ite ((fails_failBefore _ _).ite (fails_failHere _))

end Value

namespace Number

/-- The digits before the point go on until some other byte is left. -/
theorem extends_wholePart (first : UInt8) : (wholePart first).Extends false := by
  unfold wholePart
  refine .ite (extends_peek.bind fun _ => ?_)
    (.ite ((extends_takeWhile _).bind fun _ => extends_pure _) (fails_failHere _).extends)
  exact (fails_failNext _).extends.ite (extends_pure _)

/-- The digits behind the point do too. -/
theorem extends_fractionPart (cause : Cause) : (fractionPart cause).Extends false := by
  unfold fractionPart
  refine (extends_accept _).bind fun _ => ?_
  refine .ite ((extends_takeWhile _).bind fun digits => ?_) (extends_pure [])
  refine .ite (extends_peek.bind fun byte => ?_) (extends_pure digits)
  cases byte
  · exact (fails_failNext _).extends
  · exact (fails_failNext _).extends

/-- The exponent, with its sign and digits, does too. -/
theorem extends_exponentPart (cause : Cause) : (exponentPart cause).Extends false := by
  unfold exponentPart
  refine (extends_accept _).bind fun _ => ?_
  refine .ite ((extends_pure true).bind ?marked) ((extends_accept _).bind ?marked)
  refine fun marked => .ite ((extends_accept _).bind fun plus => ?_) (extends_pure none)
  refine .ite ((extends_pure false).bind ?signed) ((extends_accept _).bind ?signed)
  refine fun isNegative => (extends_nextOr cause).bind fun first => ?_
  exact .ite ((extends_takeWhile _).bind fun _ => extends_pure _) (fails_failHere _).extends

/-- A number ends where something is left that cannot belong to it. -/
theorem extends_spelling (cause : Cause) (first : UInt8) :
    (spelling cause first).Extends false := by
  unfold spelling
  refine .ite (.bind ((extends_nextOr cause).bind extends_wholePart) ?whole)
    ((extends_wholePart first).bind ?whole)
  refine fun whole => (extends_fractionPart cause).bind fun _ => ?_
  exact (extends_exponentPart cause).bind fun _ => extends_pure _

/-- Working out a number takes nothing from the text. -/
theorem extends_ofDigits (isNegative : Bool) (digits : Nat) (places : Int) :
    (ofDigits isNegative digits places).Extends atEnd := by
  unfold ofDigits
  split
  · exact extends_pure _
  · exact (fails_failHere _).extends

/-- The same with the parts of the number put together. -/
theorem extends_ofSpelling (s : Spelling) : (ofSpelling s).Extends atEnd := by
  unfold ofSpelling
  dsimp only
  split
  · exact .ite (.ite (extends_pure _) (.ite (extends_pure _) (extends_ofDigits _ _ _)))
      (extends_ofDigits _ _ _)
  · refine .ite (extends_ofDigits _ _ _) (.ite (fails_failBefore _ _).extends (extends_pure _))

/-- A number is spelt and then worked out. -/
theorem extends_reader (first : UInt8) : (reader first).Extends false :=
  (extends_spelling _ first).bind extends_ofSpelling

/-- A number that is skipped is spelt all the same. -/
theorem extends_skip (first : UInt8) : (skip first).Extends false :=
  (extends_spelling _ first).bind fun _ => extends_pure ()

end Number

/-- A number does not show its own end. -/
theorem Value.extends_natural (limit : Nat) (expected : String) :
    (natural limit expected).Extends false := by
  unfold natural
  refine (extends_token _).bind fun first => .ite ?_ (fails_wrongType first expected).extends
  refine (Number.extends_reader first).bind fun number => ?_
  cases number with
  | natural value => exact (extends_pure value).ite (fails_failHere _).extends
  | negative magnitude => exact (fails_failHere _).extends
  | real isNegative magnitude => exact (fails_failHere _).extends

namespace Skip

/-- What leads to a value of a frame is nothing, or a key with its colon. -/
theorem extends_lead (frame : Frame) : (lead frame).Extends atEnd := by
  cases frame with
  | list => exact extends_pure ()
  | object =>
    refine (extends_token _).bind fun _ => .ite ?_ (fails_failHere _).extends
    exact (Text.extends_body true).bind fun _ => Value.extends_colon

/-- What follows a value begins with a token, a comma or the closer. -/
theorem extends_follow (frame : Frame) : (follow frame).Extends atEnd := by
  unfold follow
  refine (extends_token _).bind fun _ => .ite ?_ ((extends_pure _).ite (fails_failHere _).extends)
  exact (extends_lead frame).bind fun _ => extends_pure true

/-- What follows an opener is the closer, or what leads to the first value. -/
theorem extends_enter (frame : Frame) : (enter frame).Extends atEnd := by
  unfold enter
  refine extends_peekToken_bind (fails_failNext _) fun byte text value rest more hread => ?_
  dsimp only at hread ⊢
  split at hread
  · cases hread
    simp_all
    rfl
  · rw [if_neg ‹_›]
    exact ((extends_lead frame).bind fun _ => extends_pure (some frame)) _ _ _ more hread (.inl rfl)

/-- The beginning of a value may be a number, which does not show its own end. -/
theorem extends_begin : begin.Extends false := by
  unfold begin
  refine (extends_token _).bind fun first => ?_
  refine .ite (extends_enter _) (.ite (extends_enter _) ?_)
  refine .ite ((Number.extends_skip first).bind fun _ => extends_pure _) ?_
  refine .ite ((Text.extends_body true).bind fun _ => extends_pure _) ?_
  refine .ite ((Value.extends_word _).bind fun _ => extends_pure _) ?_
  refine .ite ((Value.extends_word _).bind fun _ => extends_pure _) ?_
  exact .ite ((Value.extends_word _).bind fun _ => extends_pure _) (fails_failHere _).extends

/-- The frames are closed again by what is read, so that only the end of a number matters. -/
theorem extends_run {stage : Stage} {frames : List Frame} {text rest : Bytes} {found : Unit}
    (more : Bytes) (hread : run stage frames text = .ok (found, rest)) (hne : rest ≠ []) :
    run stage frames (text ++ more) = .ok (found, rest ++ more) := by
  have hlonger {stage : Stage} {frames : List Frame} {middle : Bytes}
      (hrun : run stage frames middle = .ok (found, rest)) : middle ≠ [] := by
    rintro rfl
    exact hne (List.length_eq_zero_iff.mp (Nat.le_zero.mp (length_le_of_run hrun)))
  -- Along the run, something is left of every text that it stops at on its way.
  fun_induction run stage frames text with
  | case1 text =>
    cases hread
    rw [run]
  | case2 => cases hread
  | case3 frames text tail hbegin hlt ih =>
    rw [run_of_begin_none (extends_begin _ _ _ more hbegin (.inr (hlonger hread))), ih hread]
  | case4 frames text frame tail hbegin hlt ih =>
    rw [run_of_begin_some (extends_begin _ _ _ more hbegin (.inr (hlonger hread))), ih hread]
  | case5 => cases hread
  | case6 frame frames text tail hfollow hlt ih =>
    rw [run_of_follow_true (extends_follow frame _ _ _ more hfollow (.inl rfl)), ih hread]
  | case7 frame frames text tail hfollow hlt ih =>
    rw [run_of_follow_false (extends_follow frame _ _ _ more hfollow (.inl rfl)), ih hread]

/-- Skipping a value takes the same bytes in front of more text. -/
theorem extends_value : value.Extends false := by
  intro text found rest more hread hleft
  exact extends_run more hread (by simpa using hleft)

end Skip

/-! ## Records -/

namespace Shape

variable {σ : Type} {shape : Shape σ}

/-- The key of a member shows its own end, and so does the end of the members. -/
theorem extends_memberKey (isFirst : Bool) : (memberKey isFirst).Extends atEnd := by
  have hkey : (Text.body false >>= fun key => pure (some key)).Extends atEnd :=
    (Text.extends_body false).bind fun _ => extends_pure _
  unfold memberKey
  refine (extends_token _).bind fun byte => .ite (extends_pure none) (.ite ?_ (.ite ?_ ?_))
  · exact .ite hkey (fails_failHere _).extends
  · refine (extends_token _).bind fun byte => .ite hkey ?_
    exact .ite (fails_failHere _).extends (fails_failHere _).extends
  · exact (fails_failHere _).extends

/-- A repeated field is never read. -/
theorem fails_repeated (name : String) : (repeated name).Fails :=
  .bind _ fun _ => .bind _ fun _ => fails_failHere _

/-- A member stays the same if the readers of the fields do. -/
theorem extends_member (hfields : ∀ field ∈ shape.fields, field.reader.Extends false)
    (seen : List String) (key : Bytes) : (shape.member seen key).Extends false := by
  unfold member
  cases hfield : shape.field? key with
  | none =>
    exact Value.extends_colon.bind fun _ => Skip.extends_value.bind fun _ => extends_pure _
  | some field =>
    have hknown : (do
        Value.colon
        let change ← field.reader
        pure (some field.name, change)).Extends false :=
      Value.extends_colon.bind fun _ =>
        (hfields field (List.mem_of_find?_eq_some hfield)).bind fun _ => extends_pure _
    exact .ite ((fails_repeated _).extends.bind fun _ => hknown) hknown

section Members

variable {isFirst : Bool} {seen : List String} {record : σ} {text middle rest key : Bytes}

/-- Reading members stops where no key comes. -/
theorem readMembers_of_end (h : (memberKey isFirst).read text = .ok (none, rest)) :
    readMembers shape isFirst seen record text = .ok (record, rest) := by
  rw [readMembers]
  split <;> simp_all

/-- A member is read, and the others go on with the record that it has changed. -/
theorem readMembers_of_member {name : Option String} {change : σ → σ}
    (hkey : (memberKey isFirst).read text = .ok (some key, middle))
    (hmember : (shape.member seen key).read middle = .ok ((name, change), rest)) :
    readMembers shape isFirst seen record text =
      readMembers shape false (name.toList ++ seen) (change record) rest := by
  conv =>
    lhs
    rw [readMembers]
  split
  · simp_all
  · simp_all
  · next key' middle' hkey' =>
    cases hkey'.symm.trans hkey
    split <;> simp_all

/-- The first member that fails ends the reading of all. -/
theorem readMembers_of_error {halt : Halt}
    (hkey : (memberKey isFirst).read text = .ok (some key, middle))
    (hmember : (shape.member seen key).read middle = .error halt) :
    readMembers shape isFirst seen record text = .error halt := by
  rw [readMembers]
  split
  · simp_all
  · simp_all
  · next key' middle' hkey' =>
    cases hkey'.symm.trans hkey
    split <;> simp_all

/-- The closing bracket of an object ends the last of its members. -/
theorem extends_readMembers (hfields : ∀ field ∈ shape.fields, field.reader.Extends false)
    {value : σ} (more : Bytes)
    (hread : readMembers shape isFirst seen record text = .ok (value, rest)) :
    readMembers shape isFirst seen record (text ++ more) = .ok (value, rest ++ more) := by
  fun_induction readMembers shape isFirst seen record text with
  | case1 => cases hread
  | case2 isFirst seen record text tail hkey =>
    cases hread
    exact readMembers_of_end (extends_memberKey isFirst _ _ _ more hkey (.inl rfl))
  | case3 => cases hread
  | case4 isFirst seen record text key middle hkey name change tail hmember hlt ih =>
    have htail : tail ≠ [] := by
      rintro rfl
      rw [readMembers] at hread
      split at hread
      · cases hread
      · exact needs_token_bind _ _ _ _ ‹_›
      · exact needs_token_bind _ _ _ _ ‹_›
    rw [readMembers_of_member (extends_memberKey isFirst _ _ _ more hkey (.inl rfl))
      (extends_member hfields seen key _ _ _ more hmember (.inr htail))]
    exact ih hread

end Members

/-- The members of a record show their own end, the bracket. -/
theorem extends_members (hfields : ∀ field ∈ shape.fields, field.reader.Extends false) :
    shape.members.Extends true :=
  fun _ _ _ more hread _ => extends_readMembers hfields more hread

/-- Whether another element comes is seen at the next token. -/
theorem extends_moreElements (isFirst : Bool) : (moreElements isFirst).Extends atEnd := by
  unfold moreElements
  refine extends_peekToken_bind (fails_failNext _) fun byte text value rest more hread => ?_
  dsimp only at hread ⊢
  by_cases hcloser : byte = 0x5D
  · rw [if_pos hcloser] at hread ⊢
    cases hread
    rfl
  rw [if_neg hcloser] at hread ⊢
  by_cases hfirst : isFirst = true
  · rw [if_pos hfirst] at hread ⊢
    cases hread
    rfl
  rw [if_neg hfirst] at hread ⊢
  by_cases hcomma : byte = 0x2C
  · rw [if_pos hcomma] at hread ⊢
    have hnext (text : Bytes) : next.read (byte :: text) = .ok (some byte, text) := rfl
    rw [read_bind_ok _ (hnext _)] at hread ⊢
    refine extends_peekToken_bind (fails_failNext _) ?_ text value rest more hread (.inl rfl)
    intro byte text value rest more hread
    dsimp only at hread ⊢
    by_cases hcloser : byte = 0x5D
    · rw [if_pos hcloser] at hread
      cases hread
    · rw [if_neg hcloser] at hread ⊢
      cases hread
      rfl
  · rw [if_neg hcomma] at hread
    cases hread

/-- The end of a list is a token. -/
theorem extends_listEnd : listEnd.Extends atEnd := by
  unfold listEnd
  refine (extends_token _).bind fun byte => .ite (extends_pure ()) ?_
  refine .ite ?_ (fails_failHere _).extends
  exact (Fails.bind _ fun next => (fails_failNext _).ite (fails_failNext _)).extends

/-- Elements need at least the bracket that ends them. -/
theorem needs_elements (isFirst : Bool) (fields : List (Field σ)) (record : σ) :
    (elements isFirst fields record).Needs := by
  cases fields with
  | nil => exact (needs_token_bind _ _).bind _
  | cons field fields => exact (needs_peekToken_bind (fails_failNext _)).bind _

/-- A list shows its own end. -/
theorem extends_elements (isFirst : Bool) (fields : List (Field σ))
    (hfields : ∀ field ∈ fields, field.reader.Extends false) (record : σ) :
    (elements isFirst fields record).Extends true := by
  induction fields generalizing isFirst record with
  | nil => exact extends_listEnd.bind fun _ => extends_pure record
  | cons field fields ih =>
    obtain ⟨hfield, hmore⟩ := List.forall_mem_cons.mp hfields
    refine (extends_moreElements isFirst).bind fun _ => .ite ?_ (extends_pure record)
    exact hfield.bind_needs (fun change => ih false hmore (change record))
      fun change => needs_elements false fields (change record)

/-- A record shows its own end. -/
theorem extends_reader (hfields : ∀ field ∈ shape.fields, field.reader.Extends false) :
    shape.reader.Extends true := by
  unfold reader
  refine (extends_token _).bind fun first => .ite (extends_members hfields) ?_
  exact .ite (extends_elements true shape.fields hfields shape.default)
    (Value.fails_wrongType first shape.expected).extends

/-- A document of a record can stand where a value of its type is read. -/
theorem passes_document (hfields : ∀ field ∈ shape.fields, field.reader.Extends false)
    {document : String} {record : σ} (h : readAll shape.reader document = .ok record) :
    shape.reader.Passes [document] record := by
  intro after text htext
  obtain ⟨blank, hread, hblank⟩ := readAll_eq_ok_iff.mp h
  cases htext with
  | @cons gap rest _ _ hgap hrest =>
    have hskip (text : Bytes) : shape.reader.read (gap ++ text) = shape.reader.read text := by
      rw [reader, read_token_bind, read_token_bind, hgap.dropWhile_append]
    refine ⟨blank ++ rest, ?_, hrest.blank_append hblank⟩
    rw [hskip]
    exact extends_reader hfields _ _ _ rest hread (.inl rfl)

end Shape

end IdCompaction.Json
