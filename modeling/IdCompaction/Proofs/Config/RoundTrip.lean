import IdCompaction.Proofs.Config.Defaults

/-!
# Configurations and contexts as documents and back

The compact text of a configuration or a context is read as the same value, and so is any text that
has blanks between its tokens. Different values therefore have different texts, however they are
spaced.
-/

namespace IdCompaction

open Json Json.Reader

/-- Values of a type that survive their text, which is made of the given tokens. -/
structure Survives {α : Type} (ofText : String → Except Error α) (toText : α → String)
    (tokens : α → List String) : Prop where
  toText_eq : ∀ value, toText value = compact (tokens value)
  reads_back : ∀ value, ofText (toText value) = .ok value
  injective : Function.Injective toText
  /-- Blanks between the tokens change nothing. -/
  reads_spaced : ∀ value text, Spaced (tokens value) (bytesOf text) → ofText text = .ok value
  /-- Different values do not even share a spacing. -/
  spaced_inj : ∀ value value' text, Spaced (tokens value) (bytesOf text) →
    Spaced (tokens value') (bytesOf text) → value = value'

/-- What is read from the tokens with any blanks survives. -/
theorem Json.Reader.survives {α : Type} {r : Reader α} {tokens : α → List String}
    (h : ∀ value, r.Takes (tokens value) value) :
    Survives (readAll r) (fun value => compact (tokens value)) tokens := by
  have hspaced (value : α) (text : String) (htext : Spaced (tokens value) (bytesOf text)) :
      readAll r text = .ok value := (h value).readAll htext
  have hback (value : α) := hspaced value _ (spaced_compact (tokens value))
  refine ⟨fun _ => rfl, hback, fun value value' heq => ?_, hspaced,
    fun value value' text htext htext' => ?_⟩
  · have hsame := hback value
    rw [show compact (tokens value) = compact (tokens value') from heq, hback value'] at hsame
    exact (Except.ok.inj hsame).symm
  · exact Except.ok.inj ((hspaced value text htext).symm.trans (hspaced value' text htext'))

/-! ## Records -/

namespace Json

/-- After the first item, each comes behind a comma. -/
theorem flatten_intersperse_comma_cons (item : List String) (items : List (List String)) :
    ((item :: items).intersperse [","]).flatten = item ++ listed false items := by
  induction items generalizing item with
  | nil => simp [listed]
  | cons next items ih => simp [ih, listed]

/-- Items with commas between them are what a list or an object lists. -/
theorem flatten_intersperse_comma (items : List (List String)) :
    (items.intersperse [","]).flatten = listed true items := by
  cases items with
  | nil => rfl
  | cons item items => exact flatten_intersperse_comma_cons item items

namespace Overrides

variable {σ : Type} {V : Overrides σ} {shape : Shape σ}

/-- An object with only known members is written with their names and values. -/
theorem objectTokens_known (overrides : List V.Override) :
    V.objectTokens (overrides.map .known) =
      Json.objectTokens (overrides.map fun override => (V.name override, V.tokens override)) := by
  simp [objectTokens, Json.objectTokens, flatten_intersperse_comma, Function.comp_def, memberTokens]

/-- An object with only known members has all of them as overrides. -/
theorem overrides_known (overrides : List V.Override) :
    V.overrides (overrides.map .known) = overrides := by
  simp [Overrides.overrides, Function.comp_def, override?]

/-- A record that is written as the object of its overrides is read back. -/
theorem Fits.takes_tokens (hV : V.Fits shape) {record : σ} (overrides : List V.Override)
    (hnodup : (overrides.map V.name).Nodup)
    (htokens : shape.tokens record =
      Json.objectTokens (overrides.map fun override => (V.name override, V.tokens override)))
    (hrecord : V.applyAll shape.default overrides = record) :
    shape.reader.Takes (shape.tokens record) record := by
  have hobject := hV.passes_object (overrides.map .known)
    (by rwa [fieldNames, overrides_known])
  rw [objectTokens_known, ← htokens, overrides_known, hrecord] at hobject
  exact hobject.takes

end Overrides

end Json

/-- Host settings are read back from their tokens. -/
theorem ParallelConfig.takes_tokens (c : ParallelConfig) :
    shape.reader.Takes (shape.tokens c) c :=
  fits_shape.takes_tokens [.numThreads c.numThreads, .minChunk c.minChunk] fits_shape.nodup rfl rfl

/-- Grid settings are read back from their tokens. -/
theorem DeviceConfig.takes_tokens (c : DeviceConfig) : shape.reader.Takes (shape.tokens c) c :=
  fits_shape.takes_tokens [.blockSize c.blockSize, .elementsPerBlock c.elementsPerBlock,
    .deviceThreads c.deviceThreads] fits_shape.nodup rfl rfl

namespace RuntimeConfig

/-- A part of a configuration. -/
inductive Part
  | parallel (value : ParallelConfig)
  | device (value : DeviceConfig)

/-- The parts of a configuration as they are written. -/
def parts : Overrides RuntimeConfig where
  Override := Part
  names := ["parallel", "device"]
  name
    | .parallel _ => "parallel"
    | .device _ => "device"
  tokens
    | .parallel value => ParallelConfig.shape.tokens value
    | .device value => DeviceConfig.shape.tokens value
  apply
    | .parallel value => fun c => { c with parallel := value }
    | .device value => fun c => { c with device := value }
  Holds
    | .parallel value => fun c => c.parallel = value
    | .device value => fun c => c.device = value

/-- The parts of a configuration, as they are written, are what its fields read. -/
theorem fits_parts : parts.Fits shape where
  names_eq := rfl
  nodup := by decide
  isPlain := by decide
  reads
    | .parallel value => ⟨_, .head _, rfl, takes_recordField _ _ value.takes_tokens⟩
    | .device value => ⟨_, .tail _ (.head _), rfl, takes_recordField _ _ value.takes_tokens⟩
  starts := starts_fields

/-- A configuration is read back from its tokens. -/
theorem takes_tokens (c : RuntimeConfig) : shape.reader.Takes (shape.tokens c) c :=
  fits_parts.takes_tokens [.parallel c.parallel, .device c.device] fits_parts.nodup rfl rfl

end RuntimeConfig

/-! ## Contexts -/

namespace Context

/-- A variant is found by its name. -/
theorem read_variantNamed (v : Variant) (text : Bytes) :
    (variantNamed (bytesOf v.name)).read text = .ok (v, text) := by
  have hne : bytesOf Variant.gpu.name ≠ Variant.cpu.name.toUTF8.toList :=
    fun h => absurd (bytesOf_inj.mp h) (by decide)
  cases v with
  | cpu =>
    have hcpu : bytesOf Variant.cpu.name = Variant.cpu.name.toUTF8.toList := rfl
    rw [variantNamed, if_pos hcpu, read_pure]
  | gpu =>
    have hgpu : bytesOf Variant.gpu.name = Variant.gpu.name.toUTF8.toList := rfl
    rw [variantNamed, if_neg hne, if_pos hgpu, read_pure]

/-- The names of contexts have no characters to escape. -/
theorem Variant.isPlain_name (v : Variant) : IsPlainText v.name := by
  cases v <;> decide

/-- The name of a variant is read behind its opening quote. -/
theorem read_body_variantNamed {β : Type} (v : Variant) (f : Variant → Reader β) (rest : Bytes) :
    (Text.body false >>= fun name => variantNamed name >>= f).read
      (bytesOf v.name ++ 0x22 :: rest) = (f v).read rest := by
  rw [read_bind_ok _ (Text.read_body_of_plain v.isPlain_name rest),
    read_bind_ok _ (read_variantNamed v rest)]

/-- The host is its name alone. -/
theorem passes_tokens_cpu : reader.Passes [nameToken Variant.cpu.name] cpu := by
  intro after text h
  obtain ⟨rest, hread, hrest⟩ := h.exists_read_token (bytesOf_nameToken _) rfl .endInValue _
  refine ⟨rest, hread.trans ?_, hrest⟩
  rw [if_pos rfl, List.append_assoc]
  exact read_body_variantNamed .cpu _ rest

/-- Behind the opener of an object, a device is read up to the closer. -/
theorem passes_variantObject_gpu (ordinal : UInt32) :
    variantObject.Passes [nameToken Variant.gpu.name, ":", toString ordinal, "\x7d"]
      (gpu ordinal) := by
  intro after text h
  have hordinal : (Value.natural 4294967296 "u32").Takes [toString ordinal] ordinal.toNat :=
    Value.takes_natural (by decide) ordinal.toNat_lt "u32"
  have hfollows : Follows ("\x7d" :: after) := by simp [Follows]
  obtain ⟨named, hname, hnamed⟩ := h.exists_read_token (bytesOf_nameToken _) rfl .endInObject _
  obtain ⟨valued, hcolon, hvalued⟩ := Value.passes_colon _ named hnamed
  obtain ⟨closed, hvalue, hclosed⟩ := hordinal _ valued hvalued hfollows
  obtain ⟨rest, hcloser, hrest⟩ := hclosed.exists_read_peekToken bytesOf_objectCloser rfl _
  refine ⟨rest, hname.trans ?_, hrest⟩
  rw [if_neg (by decide), if_neg (by decide), List.append_assoc]
  refine (read_body_variantNamed .gpu _ named).trans ?_
  rw [read_bind_ok _ hcolon]
  refine (read_bind_ok _ hvalue).trans ((read_bind_ok _ (read_pure _ _)).trans (hcloser.trans ?_))
  have hback : ordinal.toNat.toUInt32 = ordinal := UInt32.ofNat_toNat
  rw [hback]
  rfl

/-- A device is an object of one member: its name and its number. -/
theorem passes_tokens_gpu (ordinal : UInt32) :
    reader.Passes ("\x7b" :: [nameToken Variant.gpu.name, ":", toString ordinal, "\x7d"])
      (gpu ordinal) := by
  intro after text h
  obtain ⟨inside, hopener, hinside⟩ := h.exists_read_token bytesOf_objectOpener rfl .endInValue _
  obtain ⟨rest, hread, hrest⟩ := passes_variantObject_gpu ordinal after inside hinside
  exact ⟨rest, hopener.trans hread, hrest⟩

/-- A context is read back from its tokens. -/
theorem takes_tokens (context : Context) : reader.Takes context.tokens context := by
  cases context with
  | cpu => exact passes_tokens_cpu.takes
  | gpu ordinal => exact (passes_tokens_gpu ordinal).takes

end Context

/-- Host settings, grid settings, whole configurations and contexts survive their documents. -/
theorem documents_survive :
    Survives ParallelConfig.ofText ParallelConfig.toText ParallelConfig.shape.tokens ∧
      Survives DeviceConfig.ofText DeviceConfig.toText DeviceConfig.shape.tokens ∧
      Survives RuntimeConfig.ofText RuntimeConfig.toText RuntimeConfig.shape.tokens ∧
      Survives Context.ofText Context.toText Context.tokens :=
  ⟨survives ParallelConfig.takes_tokens, survives DeviceConfig.takes_tokens,
    survives RuntimeConfig.takes_tokens, survives Context.takes_tokens⟩

end IdCompaction
