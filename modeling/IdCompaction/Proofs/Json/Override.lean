import IdCompaction.Proofs.Json.Extension
import Mathlib.Data.List.Nodup

/-!
# Documents that override defaults

A document of a record is an object with members for some of its fields, in any order, and with any
members that the record does not know in between; or it is a list of the values of its first fields.
Either way the record starts from its defaults, and each member for a field replaces what that field
holds. A field that comes twice is an error, wherever it comes again.
-/

namespace IdCompaction.Json

open Reader

/-- Reads from the first byte after any blanks on, and nothing that begins like the end of a list.
-/
def Reader.StartsElement {α : Type} (r : Reader α) : Prop :=
  ∀ text, r.read text = r.read (text.dropWhile isBlank) ∧ ∀ value rest,
    r.read text = .ok (value, rest) →
      ∃ byte more, text.dropWhile isBlank = byte :: more ∧ byte ≠ 0x5D

/-- What begins with a token may stand in a list, if it fails at the bracket that ends one. -/
theorem Reader.startsElement_token_bind {α : Type} {cause : Cause} {f : UInt8 → Reader α}
    (h : (f 0x5D).Fails) : (token cause >>= f).StartsElement := by
  intro text
  refine ⟨?_, fun value rest hread => ?_⟩
  · have hblank : Blank (text.takeWhile isBlank) := fun _ => List.mem_takeWhile_imp
    have hdrop := hblank.dropWhile_append (text.dropWhile isBlank)
    rw [List.takeWhile_append_dropWhile] at hdrop
    rw [read_token_bind, read_token_bind, ← hdrop]
  · rw [read_token_bind] at hread
    cases hdrop : text.dropWhile isBlank with
    | nil =>
      rw [hdrop] at hread
      cases hread
    | cons byte more =>
      rw [hdrop] at hread
      refine ⟨byte, more, rfl, ?_⟩
      rintro rfl
      exact h more value rest hread

/-- A sequence may stand in a list if its first part may. -/
theorem Reader.StartsElement.bind {α β : Type} {r : Reader α} (h : r.StartsElement)
    (f : α → Reader β) : (r >>= f).StartsElement := by
  intro text
  obtain ⟨hsame, hstart⟩ := h text
  refine ⟨?_, fun value rest hread => ?_⟩
  · rw [read_bind, read_bind, hsame]
  · obtain ⟨first, middle, hfirst, -⟩ := read_bind_eq_ok_iff.mp hread
    exact hstart first middle hfirst

/-- How the fields of a record can be overridden. -/
structure Overrides (σ : Type) where
  /-- A field together with a value for it. -/
  Override : Type
  /-- The names of the fields in order. -/
  names : List String
  /-- The name of the field. -/
  name : Override → String
  /-- The tokens of the value. -/
  tokens : Override → List String
  /-- The record with the value in the field. -/
  apply : Override → σ → σ
  /-- The record has the value in the field. -/
  Holds : Override → σ → Prop

namespace Overrides

variable {σ : Type}

/-- A member of an object. -/
inductive Member (V : Overrides σ)
  | known (override : V.Override)
  /-- The value of an unknown member can be anything. -/
  | unknown (key : Key) (h : key.name ∉ V.names) (value : Tree)

variable (V : Overrides σ)

/-- The tokens of a member. -/
def memberTokens : V.Member → List String
  | .known override => nameToken (V.name override) :: ":" :: V.tokens override
  | .unknown key _ value => nameToken key.name :: ":" :: value.tokens

/-- The override that a member is, if its field is known. -/
def override? : V.Member → Option V.Override
  | .known override => some override
  | .unknown .. => none

/-- The overrides among members. -/
def overrides (members : List V.Member) : List V.Override := members.filterMap V.override?

/-- The names of the known fields among members. -/
def fieldNames (members : List V.Member) : List String := (V.overrides members).map V.name

/-- The tokens of an object with the given members. -/
def objectTokens (members : List V.Member) : List String :=
  "\x7b" :: (listed true (members.map V.memberTokens) ++ ["\x7d"])

/-- The tokens of a list with the given values. -/
def listTokens (overrides : List V.Override) : List String :=
  "[" :: (listed true (overrides.map V.tokens) ++ ["]"])

/-- The record with the fields replaced one after another. -/
def applyAll (record : σ) (overrides : List V.Override) : σ :=
  overrides.foldl (fun record override => V.apply override record) record

/-- The shape of a record reads the overrides. -/
structure Fits (V : Overrides σ) (shape : Shape σ) : Prop where
  names_eq : shape.fields.map (·.name) = V.names
  nodup : V.names.Nodup
  isPlain : ∀ name ∈ V.names, IsPlainText name
  reads : ∀ override, ∃ field ∈ shape.fields, field.name = V.name override ∧
    field.reader.Takes (V.tokens override) (V.apply override)
  starts : ∀ field ∈ shape.fields, field.reader.StartsElement

/-- Each override replaces one field and leaves the others alone. -/
structure Independent (V : Overrides σ) : Prop where
  holds_apply : ∀ override record, V.Holds override (V.apply override record)
  holds_apply_iff : ∀ override other record, V.name override ≠ V.name other →
    (V.Holds override (V.apply other record) ↔ V.Holds override record)
  apply_comm : ∀ override other record, V.name override ≠ V.name other →
    V.apply override (V.apply other record) = V.apply other (V.apply override record)

end Overrides

namespace Shape

variable {σ : Type} {shape : Shape σ} {V : Overrides σ}

/-- Where the object ends, there is no key. -/
theorem passes_memberKey_closer (isFirst : Bool) :
    (memberKey isFirst).Passes ["\x7d"] none := by
  intro after text h
  obtain ⟨rest, hread, hrest⟩ := h.exists_read_token bytesOf_objectCloser rfl .endInObject _
  exact ⟨rest, hread, hrest⟩

/-- The next key is read, after a comma if it is not the first. -/
theorem passes_memberKey {name : String} (h : IsPlainText name) (isFirst : Bool) :
    (memberKey isFirst).Passes ((if isFirst then [] else [","]) ++ [nameToken name])
      (some (bytesOf name)) := by
  intro after text htext
  have hkey (rest : Bytes) : (Text.body false >>= fun key => pure (some key)).read
      (bytesOf name ++ 0x22 :: rest) = .ok (some (bytesOf name), rest) := by
    rw [read_bind_ok _ (Text.read_body_of_plain h rest), read_pure]
  cases isFirst with
  | true =>
    obtain ⟨rest, hread, hrest⟩ := htext.exists_read_token (bytesOf_nameToken _) rfl .endInObject _
    refine ⟨rest, ?_, hrest⟩
    rw [memberKey, hread, List.append_assoc]
    exact hkey rest
  | false =>
    obtain ⟨middle, hcomma, hmiddle⟩ := htext.exists_read_token bytesOf_comma rfl .endInObject _
    obtain ⟨rest, hdrop, hrest⟩ := hmiddle.dropWhile_cons (bytesOf_nameToken _) rfl
    refine ⟨rest, hcomma.trans ?_, hrest⟩
    change (token .endInValue >>= _).read middle = _
    rw [read_token_bind, hdrop, List.append_assoc]
    exact hkey rest

/-- A name that no field has is the name of no field. -/
theorem field?_eq_none {name : String} (h : name ∉ shape.fields.map (·.name)) :
    shape.field? (bytesOf name) = none := by
  refine List.find?_eq_none.mpr fun field hfield hname => h ?_
  rw [beq_iff_eq] at hname
  exact List.mem_map.mpr ⟨field, hfield, bytesOf_inj.mp hname⟩

/-- A field is found by its name. -/
theorem field?_of_mem (hnodup : (shape.fields.map (·.name)).Nodup) {field : Field σ}
    (hmem : field ∈ shape.fields) : shape.field? (bytesOf field.name) = some field := by
  cases hfound : shape.field? (bytesOf field.name) with
  | none =>
    exact absurd (beq_iff_eq.mpr rfl) (List.find?_eq_none.mp hfound field hmem)
  | some found =>
    have hname : found.name = field.name := by
      have := List.find?_some hfound
      exact bytesOf_inj.mp (beq_iff_eq.mp this)
    have hmem' := List.mem_of_find?_eq_some hfound
    exact congrArg some (List.inj_on_of_nodup_map hnodup hmem' hmem hname)

/-! ## Members -/

variable {isFirst : Bool} {seen : List String} {record : σ} {after : List String} {text : Bytes}

/-- The value of an unknown member is skipped. -/
theorem takes_member_unknown (seen : List String) {name : String}
    (h : name ∉ shape.fields.map (·.name)) (value : Tree) :
    (shape.member seen (bytesOf name)).Takes (":" :: value.tokens) (none, id) := by
  intro after text htext hfollows
  obtain ⟨middle, hcolon, hmiddle⟩ := Value.passes_colon _ text htext
  obtain ⟨rest, hvalue, hrest⟩ := Skip.takes_value value after middle hmiddle hfollows
  refine ⟨rest, ?_, hrest⟩
  rw [member, field?_eq_none h]
  dsimp only
  rw [read_bind_ok _ hcolon, read_bind_ok _ hvalue, read_pure]

/-- The value of a field that did not come before is read. -/
theorem takes_member_known (hnodup : (shape.fields.map (·.name)).Nodup) {field : Field σ}
    (hmem : field ∈ shape.fields) {tokens : List String} {change : σ → σ}
    (htakes : field.reader.Takes tokens change) (hseen : field.name ∉ seen) :
    (shape.member seen (bytesOf field.name)).Takes (":" :: tokens) (some field.name, change) := by
  intro after text htext hfollows
  obtain ⟨middle, hcolon, hmiddle⟩ := Value.passes_colon _ text htext
  obtain ⟨rest, hvalue, hrest⟩ := htakes after middle hmiddle hfollows
  refine ⟨rest, ?_, hrest⟩
  rw [member, field?_of_mem hnodup hmem]
  dsimp only
  rw [if_neg hseen, read_bind_ok _ hcolon, read_bind_ok _ hvalue, read_pure]

/-- A field that comes again is an error that names it. -/
theorem exists_read_repeated (name : String) (text : Bytes) :
    ∃ behind, (repeated name).read text = .error ⟨.duplicateField name, behind⟩ := by
  obtain ⟨found, rest, haccept⟩ : ∃ found rest,
      (accept 0x7D).read (text.dropWhile isBlank) = .ok (found, rest) := by
    rw [read_accept]
    split
    · exact ⟨_, _, rfl⟩
    · exact ⟨_, _, rfl⟩
  refine ⟨some rest.length, ?_⟩
  rw [repeated, read_bind_ok _ rfl, read_bind_ok _ haccept]
  rfl

/-- A field that came before is an error, whatever its value. -/
theorem exists_read_member_repeated (hnodup : (shape.fields.map (·.name)).Nodup)
    {field : Field σ} (hmem : field ∈ shape.fields) (hseen : field.name ∈ seen) (text : Bytes) :
    ∃ behind, (shape.member seen (bytesOf field.name)).read text =
      .error ⟨.duplicateField field.name, behind⟩ := by
  rw [member, field?_of_mem hnodup hmem]
  dsimp only
  obtain ⟨behind, hrepeated⟩ := exists_read_repeated field.name text
  exact ⟨behind, by rw [if_pos hseen, read_bind_error _ hrepeated]⟩

/-- The key of the next member is read, and its colon and value come next. -/
theorem exists_read_memberKey {name : String} (hplain : IsPlainText name) {value : List String}
    {items : List (List String)}
    (h : Spaced (listed isFirst ((nameToken name :: ":" :: value) :: items) ++ after) text) :
    ∃ middle, (memberKey isFirst).read text = .ok (some (bytesOf name), middle) ∧
      Spaced (":" :: value ++ (listed false items ++ after)) middle := by
  have hsplit : listed isFirst ((nameToken name :: ":" :: value) :: items) ++ after =
      (if isFirst then [] else [","]) ++ [nameToken name] ++
        (":" :: value ++ (listed false items ++ after)) := by
    simp [listed_cons]
  rw [hsplit] at h
  exact passes_memberKey hplain isFirst _ text h

/-- A member is read with what comes before it, and the rest of the object goes on from there. -/
theorem exists_readMembers_cons {name : String} (hplain : IsPlainText name)
    {value : List String} {items : List (List String)} {found : Option String} {change : σ → σ}
    (htakes : (shape.member seen (bytesOf name)).Takes (":" :: value) (found, change))
    (h : Spaced (listed isFirst ((nameToken name :: ":" :: value) :: items) ++ "\x7d" :: after)
      text) :
    ∃ rest, readMembers shape isFirst seen record text =
        readMembers shape false (found.toList ++ seen) (change record) rest ∧
      Spaced (listed false items ++ "\x7d" :: after) rest := by
  obtain ⟨middle, hkey, hmiddle⟩ := exists_read_memberKey hplain h
  obtain ⟨rest, hmember, hrest⟩ :=
    htakes _ middle hmiddle (Frame.object.follows_listed items after)
  exact ⟨rest, readMembers_of_member hkey hmember, hrest⟩

/-- A field that came before is found out before its value is read. -/
theorem exists_readMembers_repeated (hnodup : (shape.fields.map (·.name)).Nodup)
    {field : Field σ} (hmem : field ∈ shape.fields) (hseen : field.name ∈ seen)
    (hplain : IsPlainText field.name) {value : List String}
    {items : List (List String)}
    (h : Spaced (listed isFirst ((nameToken field.name :: ":" :: value) :: items) ++ after) text) :
    ∃ behind, readMembers shape isFirst seen record text =
      .error ⟨.duplicateField field.name, behind⟩ := by
  obtain ⟨middle, hkey, -⟩ := exists_read_memberKey hplain h
  obtain ⟨behind, hrepeated⟩ := exists_read_member_repeated hnodup hmem hseen middle
  exact ⟨behind, readMembers_of_error hkey hrepeated⟩

/-! ## Elements -/

/-- Where the list ends, there is no other element. -/
theorem passes_moreElements_closer (isFirst : Bool) :
    (moreElements isFirst).Passes ["]"] false := by
  intro after text h
  obtain ⟨rest, hread, hrest⟩ := h.exists_read_peekToken bytesOf_listCloser rfl _
  exact ⟨rest, hread, hrest⟩

/-- A list with all its elements ends with its bracket. -/
theorem passes_listEnd : listEnd.Passes ["]"] () := by
  intro after text h
  obtain ⟨rest, hread, hrest⟩ := h.exists_read_token bytesOf_listCloser rfl .endInList _
  exact ⟨rest, hread, hrest⟩

/-- A list goes on where an element can be read, after a comma if it is not the first. -/
theorem exists_read_moreElements {α : Type} {r : Reader α} (hstarts : r.StartsElement)
    {tokens : List String} {value : α} (htakes : r.Takes tokens value) (hfollows : Follows after)
    (h : Spaced ((if isFirst then [] else [","]) ++ tokens ++ after) text) :
    ∃ middle rest, (moreElements isFirst).read text = .ok (true, middle) ∧
      r.read middle = .ok (value, rest) ∧ Spaced after rest := by
  cases isFirst with
  | true =>
    obtain ⟨rest, hread, hrest⟩ := htakes after text h hfollows
    obtain ⟨hsame, hstart⟩ := hstarts text
    obtain ⟨byte, more, hdrop, hne⟩ := hstart value rest hread
    refine ⟨text.dropWhile isBlank, rest, ?_, hsame.symm.trans hread, hrest⟩
    rw [moreElements, read_peekToken_bind, hdrop]
    simp only [List.head?_cons, if_neg hne]
    rfl
  | false =>
    obtain ⟨middle, hdropComma, hmiddle⟩ := h.dropWhile_cons bytesOf_comma rfl
    obtain ⟨rest, hread, hrest⟩ := htakes after middle hmiddle hfollows
    obtain ⟨hsame, hstart⟩ := hstarts middle
    obtain ⟨byte, more, hdrop, hne⟩ := hstart value rest hread
    refine ⟨middle.dropWhile isBlank, rest, ?_, hsame.symm.trans hread, hrest⟩
    have hcomma : (0x2C : UInt8) ≠ 0x5D := by decide
    have hnext : next.read (0x2C :: middle) = .ok (some 0x2C, middle) := rfl
    rw [List.nil_append] at hdropComma
    rw [moreElements, read_peekToken_bind, hdropComma]
    dsimp only [List.head?_cons]
    rw [if_neg hcomma, if_neg Bool.false_ne_true, if_pos rfl, read_bind_ok _ hnext,
      read_peekToken_bind, hdrop]
    simp only [List.head?_cons, if_neg hne]
    rfl

end Shape

namespace Overrides

open Shape

variable {σ : Type} {shape : Shape σ} {V : Overrides σ} {isFirst : Bool} {seen : List String}
  {record : σ} {after : List String} {text : Bytes}

/-- The overrides of members are those of the first and those of the others. -/
theorem overrides_cons (member : V.Member) (members : List V.Member) :
    V.overrides (member :: members) = V.overrides [member] ++ V.overrides members := by
  cases member <;> rfl

/-- The same with the names of their fields. -/
theorem fieldNames_cons (member : V.Member) (members : List V.Member) :
    V.fieldNames (member :: members) = V.fieldNames [member] ++ V.fieldNames members := by
  rw [fieldNames, overrides_cons member members, List.map_append]
  rfl

/-- A member has one field at most. -/
theorem nodup_fieldNames_singleton (member : V.Member) : (V.fieldNames [member]).Nodup := by
  cases member with
  | known override => exact List.nodup_singleton (V.name override)
  | unknown => exact List.nodup_nil

/-- Overrides are applied in order. -/
theorem applyAll_append (record : σ) (overrides more : List V.Override) :
    V.applyAll record (overrides ++ more) = V.applyAll (V.applyAll record overrides) more :=
  List.foldl_append

namespace Fits

/-- The fields have names of their own. -/
theorem nodup_fields (hV : V.Fits shape) : (shape.fields.map (·.name)).Nodup :=
  hV.names_eq ▸ hV.nodup

/-- The names of fields have no characters to escape. -/
theorem isPlain_field (hV : V.Fits shape) {field : Shape.Field σ} (hmem : field ∈ shape.fields) :
    IsPlainText field.name :=
  hV.isPlain field.name (hV.names_eq ▸ List.mem_map.mpr ⟨field, hmem, rfl⟩)

/-- One member is read: the override that it is, if any, is applied, unless it came before. -/
theorem exists_readMembers_member (hV : V.Fits shape) (member : V.Member)
    (members : List V.Member) (hfresh : ∀ name ∈ V.fieldNames [member], name ∉ seen)
    (h : Spaced (listed isFirst ((member :: members).map V.memberTokens) ++ "\x7d" :: after) text) :
    ∃ rest, readMembers shape isFirst seen record text =
        readMembers shape false (V.fieldNames [member] ++ seen)
          (V.applyAll record (V.overrides [member])) rest ∧
      Spaced (listed false (members.map V.memberTokens) ++ "\x7d" :: after) rest := by
  cases member with
  | known override =>
    obtain ⟨field, hmem, hname, htakes⟩ := hV.reads override
    have hseen : field.name ∉ seen := hfresh _ (by simp [fieldNames, overrides, override?, hname])
    have hmember := takes_member_known hV.nodup_fields hmem htakes hseen
    rw [List.map_cons, memberTokens, ← hname] at h
    obtain ⟨rest, hread, hrest⟩ := exists_readMembers_cons (hV.isPlain_field hmem) hmember h
    rw [hname] at hread
    exact ⟨rest, hread, hrest⟩
  | unknown key hunknown value =>
    have hmember := takes_member_unknown seen (hV.names_eq ▸ hunknown) value
    exact exists_readMembers_cons key.isPlain hmember h

/-- An object with any members is read up to its end, if no field comes twice. -/
theorem exists_readMembers_ok (hV : V.Fits shape) (members : List V.Member)
    (hnodup : (V.fieldNames members).Nodup) (hfresh : ∀ name ∈ V.fieldNames members, name ∉ seen)
    (h : Spaced (listed isFirst (members.map V.memberTokens) ++ "\x7d" :: after) text) :
    ∃ rest, readMembers shape isFirst seen record text =
        .ok (V.applyAll record (V.overrides members), rest) ∧ Spaced after rest := by
  induction members generalizing isFirst seen record text with
  | nil =>
    obtain ⟨rest, hread, hrest⟩ := passes_memberKey_closer isFirst after text h
    exact ⟨rest, readMembers_of_end hread, hrest⟩
  | cons member members ih =>
    rw [fieldNames_cons] at hnodup hfresh
    obtain ⟨-, hmore, hdisjoint⟩ := List.nodup_append.mp hnodup
    obtain ⟨hfirst, hothers⟩ := List.forall_mem_append.mp hfresh
    -- What the first member has set counts as seen for the others.
    have hnext : ∀ name ∈ V.fieldNames members, name ∉ V.fieldNames [member] ++ seen := by
      intro name hname hmem
      rcases List.mem_append.mp hmem with hmem | hmem
      · exact hdisjoint name hmem name hname rfl
      · exact hothers name hname hmem
    obtain ⟨middle, hmember, hmiddle⟩ := hV.exists_readMembers_member member members hfirst h
    obtain ⟨rest, hread, hrest⟩ := ih hmore hnext hmiddle
    refine ⟨rest, ?_, hrest⟩
    rw [hmember, hread, overrides_cons member members, applyAll_append]

/-- The first field that comes again is an error, whatever comes after it. -/
theorem exists_readMembers_error (hV : V.Fits shape) (members : List V.Member)
    (hrepeated : (V.fieldNames members).Nodup → ∃ name ∈ V.fieldNames members, name ∈ seen)
    (h : Spaced (listed isFirst (members.map V.memberTokens) ++ "\x7d" :: after) text) :
    ∃ name ∈ V.names, ∃ behind, readMembers shape isFirst seen record text =
      .error ⟨.duplicateField name, behind⟩ := by
  induction members generalizing isFirst seen record text with
  | nil =>
    obtain ⟨name, hname, -⟩ := hrepeated List.nodup_nil
    cases hname
  | cons member members ih =>
    by_cases hfresh : ∀ name ∈ V.fieldNames [member], name ∉ seen
    -- The first member is fine, so a name comes again among the others, counting its own as seen.
    · obtain ⟨middle, hmember, hmiddle⟩ := hV.exists_readMembers_member member members hfresh h
      rw [hmember]
      refine ih (fun hnodup => ?_) hmiddle
      by_contra hnone
      push Not at hnone
      have hall : (V.fieldNames (member :: members)).Nodup := by
        rw [fieldNames_cons]
        refine List.nodup_append.mpr ⟨nodup_fieldNames_singleton member, hnodup, ?_⟩
        rintro name hfirst _ hmore rfl
        exact hnone name hmore (List.mem_append_left seen hfirst)
      obtain ⟨name, hname, hseen⟩ := hrepeated hall
      rw [fieldNames_cons] at hname
      rcases List.mem_append.mp hname with hname | hname
      · exact hfresh name hname hseen
      · exact hnone name hname (List.mem_append_right _ hseen)
    -- The first member itself repeats a field.
    · cases member with
      | known override =>
        obtain ⟨field, hmem, hname, -⟩ := hV.reads override
        have hseen : field.name ∈ seen := by
          simpa [fieldNames, overrides, override?, hname] using hfresh
        rw [List.map_cons, memberTokens, ← hname] at h
        exact ⟨field.name, hV.names_eq ▸ List.mem_map.mpr ⟨field, hmem, rfl⟩,
          exists_readMembers_repeated hV.nodup_fields hmem hseen (hV.isPlain_field hmem) h⟩
      | unknown key hunknown value => exact absurd (fun name => nofun) hfresh

/-- The overrides of the first fields in order are read as the first elements of a list. -/
theorem exists_read_elements (hV : V.Fits shape) (fields : List (Shape.Field σ))
    (hfields : ∀ field ∈ fields, field ∈ shape.fields) (overrides : List V.Override)
    (hnames : overrides.map V.name <+: fields.map (·.name))
    (h : Spaced (listed isFirst (overrides.map V.tokens) ++ "]" :: after) text) :
    ∃ rest, (elements isFirst fields record).read text = .ok (V.applyAll record overrides, rest) ∧
      Spaced after rest := by
  induction fields generalizing isFirst record text overrides with
  | nil =>
    obtain rfl : overrides = [] := by simpa using hnames
    obtain ⟨rest, hread, hrest⟩ := passes_listEnd after text h
    exact ⟨rest, read_bind_ok _ hread, hrest⟩
  | cons field fields ih =>
    cases overrides with
    | nil =>
      obtain ⟨rest, hread, hrest⟩ := passes_moreElements_closer isFirst after text h
      exact ⟨rest, read_bind_ok _ hread, hrest⟩
    | cons override overrides =>
      obtain ⟨hfield, hothers⟩ := List.forall_mem_cons.mp hfields
      obtain ⟨hname, hmore⟩ := List.cons_prefix_cons.mp hnames
      obtain ⟨found, hmem, hfound, htakes⟩ := hV.reads override
      obtain rfl : found = field :=
        List.inj_on_of_nodup_map hV.nodup_fields hmem hfield (hfound.trans hname)
      rw [List.map_cons, listed_cons, List.append_assoc] at h
      obtain ⟨middle, tail, hgoesOn, hvalue, htail⟩ :=
        exists_read_moreElements (hV.starts found hmem) htakes (Frame.list.follows_listed _ after) h
      obtain ⟨rest, hread, hrest⟩ := ih hothers overrides hmore htail
      refine ⟨rest, ?_, hrest⟩
      rw [elements, read_bind_ok _ hgoesOn, if_pos rfl, read_bind_ok _ hvalue, hread]
      rfl

/-! ## Documents -/

/-- An object of members is the defaults with the overrides among them, if no field comes twice. -/
theorem passes_object (hV : V.Fits shape) (members : List V.Member)
    (hnodup : (V.fieldNames members).Nodup) :
    shape.reader.Passes (V.objectTokens members)
      (V.applyAll shape.default (V.overrides members)) := by
  intro after text h
  rw [objectTokens, List.cons_append, List.append_assoc] at h
  obtain ⟨inside, hopener, hinside⟩ := h.exists_read_token bytesOf_objectOpener rfl .endInValue _
  obtain ⟨rest, hread, hrest⟩ :=
    hV.exists_readMembers_ok members hnodup (fun _ _ => List.not_mem_nil) hinside
  exact ⟨rest, hopener.trans hread, hrest⟩

/-- A list of the first fields is the defaults with these fields overridden. -/
theorem passes_list (hV : V.Fits shape) (overrides : List V.Override)
    (hnames : overrides.map V.name <+: V.names) :
    shape.reader.Passes (V.listTokens overrides) (V.applyAll shape.default overrides) := by
  intro after text h
  rw [listTokens, List.cons_append, List.append_assoc] at h
  obtain ⟨inside, hopener, hinside⟩ := h.exists_read_token bytesOf_listOpener rfl .endInValue _
  obtain ⟨rest, hread, hrest⟩ := hV.exists_read_elements shape.fields (fun _ h => h) overrides
    (hV.names_eq ▸ hnames) hinside
  exact ⟨rest, hopener.trans hread, hrest⟩

/-- An object in which a field comes twice is an error that names such a field. -/
theorem exists_error (hV : V.Fits shape) (members : List V.Member)
    (hrepeated : ¬ (V.fieldNames members).Nodup) {document : String}
    (h : Spaced (V.objectTokens members) (bytesOf document)) :
    ∃ error, readAll shape.reader document = .error error ∧
      ∃ name ∈ V.names, error.cause = .duplicateField name := by
  rw [objectTokens] at h
  obtain ⟨inside, hopener, hinside⟩ := h.exists_read_token bytesOf_objectOpener rfl .endInValue _
  obtain ⟨name, hname, behind, hread⟩ :=
    hV.exists_readMembers_error members (fun hnodup => absurd hnodup hrepeated) hinside
  have hreader : shape.reader.read (bytesOf document) =
      .error ⟨.duplicateField name, behind⟩ := hopener.trans hread
  obtain ⟨error, herror, hcause⟩ := exists_readAll_error hreader
  exact ⟨error, herror, name, hname, hcause⟩

end Fits

/-! ## Fields of the result -/

namespace Independent

/-- A field that is not among the overrides stays. -/
theorem holds_applyAll_iff (hV : V.Independent) (override : V.Override)
    (overrides : List V.Override) (h : V.name override ∉ overrides.map V.name) (record : σ) :
    V.Holds override (V.applyAll record overrides) ↔ V.Holds override record := by
  induction overrides generalizing record with
  | nil => exact Iff.rfl
  | cons other overrides ih =>
    obtain ⟨hne, hmore⟩ := not_or.mp (List.mem_cons.not.mp h)
    exact (ih hmore (V.apply other record)).trans (hV.holds_apply_iff override other record hne)

/-- An override among others for other fields has its way. -/
theorem holds_applyAll (hV : V.Independent) {overrides : List V.Override}
    (hnodup : (overrides.map V.name).Nodup) {override : V.Override} (h : override ∈ overrides)
    (record : σ) : V.Holds override (V.applyAll record overrides) := by
  induction overrides generalizing record with
  | nil => cases h
  | cons other overrides ih =>
    obtain ⟨hother, hmore⟩ := List.nodup_cons.mp hnodup
    rcases List.mem_cons.mp h with rfl | h
    · exact (hV.holds_applyAll_iff override overrides hother _).mpr (hV.holds_apply override record)
    · exact ih hmore h (V.apply other record)

/-- The order of overrides for different fields does not matter. -/
theorem applyAll_perm (hV : V.Independent) {overrides overrides' : List V.Override}
    (hnodup : (overrides.map V.name).Nodup) (h : overrides.Perm overrides') (record : σ) :
    V.applyAll record overrides = V.applyAll record overrides' := by
  refine h.foldl_eq' (fun override hmem other hother record => ?_) record
  by_cases hname : V.name override = V.name other
  · rw [List.inj_on_of_nodup_map hnodup hmem hother hname]
  · exact (hV.apply_comm override other record hname).symm

end Independent

end Overrides

/-- A text of a type means the defaults with the fields overridden that it names. -/
structure OverridesDefaults {σ : Type} (ofText : String → Except Error σ) (default : σ)
    (V : Overrides σ) : Prop where
  /-- An object in which no field comes twice is read, whatever unknown members it has. -/
  object : ∀ members document, Spaced (V.objectTokens members) (bytesOf document) →
    (V.fieldNames members).Nodup → ∃ record, ofText document = .ok record ∧
      record = V.applyAll default (V.overrides members) ∧
      (∀ override ∈ V.overrides members, V.Holds override record) ∧
      ∀ override, V.name override ∉ V.fieldNames members →
        (V.Holds override record ↔ V.Holds override default)
  /-- Neither the order of the fields nor the unknown members matter. -/
  reordered : ∀ members members' document document',
    Spaced (V.objectTokens members) (bytesOf document) →
    Spaced (V.objectTokens members') (bytesOf document') → (V.fieldNames members).Nodup →
    (V.overrides members).Perm (V.overrides members') → ofText document' = ofText document
  /-- A field that comes twice is an error that names it. -/
  repeated : ∀ members document, Spaced (V.objectTokens members) (bytesOf document) →
    ¬ (V.fieldNames members).Nodup → ∃ error, ofText document = .error error ∧
      error.cause.category = .unsuited ∧ ∃ name ∈ V.names, error.cause = .duplicateField name
  /-- A list of the first fields means what the object with these members means. -/
  list : ∀ overrides document, Spaced (V.listTokens overrides) (bytesOf document) →
    overrides.map V.name <+: V.names → ofText document = .ok (V.applyAll default overrides)

/-- The documents of a shape that reads independent overrides. -/
theorem Overrides.Fits.overridesDefaults {σ : Type} {V : Overrides σ} {shape : Shape σ}
    (hV : V.Fits shape) (hindependent : V.Independent) :
    OverridesDefaults (readAll shape.reader) shape.default V where
  object members document hdocument hnodup :=
    ⟨_, (hV.passes_object members hnodup).takes.readAll hdocument, rfl,
      fun _ hmem => hindependent.holds_applyAll hnodup hmem _,
      fun override hname => hindependent.holds_applyAll_iff override _ hname _⟩
  reordered members members' document document' hdocument hdocument' hnodup hperm := by
    have hnodup' : (V.fieldNames members').Nodup := (hperm.map V.name).nodup_iff.mp hnodup
    rw [(hV.passes_object members hnodup).takes.readAll hdocument,
      (hV.passes_object members' hnodup').takes.readAll hdocument',
      hindependent.applyAll_perm hnodup hperm]
  repeated members document hdocument hrepeated := by
    obtain ⟨error, herror, name, hname, hcause⟩ := hV.exists_error members hrepeated hdocument
    exact ⟨error, herror, by rw [hcause]; rfl, name, hname, hcause⟩
  list overrides document hdocument hnames :=
    (hV.passes_list overrides hnames).takes.readAll hdocument

end IdCompaction.Json
