import IdCompaction.Config.Document
import IdCompaction.Proofs.Json.Override

/-!
# Defaults and overrides of configurations

A configuration document sets the fields that it names and leaves the others at their defaults. The
numbers of host and grid settings are written in decimal, up to the last 64-bit word. A whole
configuration takes any document of host settings and any document of grid settings for its parts.
-/

namespace IdCompaction

open Json Json.Reader

/-! ## Compact texts -/

/-- A compact text has the bytes of its tokens and no others. -/
theorem bytesOf_compact (tokens : List String) :
    bytesOf (compact tokens) = tokens.flatMap bytesOf := by
  rw [bytesOf_eq_flatMap, compact, String.toList_join, List.flatMap_assoc]
  exact List.flatMap_congr fun token _ => (bytesOf_eq_flatMap token).symm

/-- A compact text is a spacing of its tokens. -/
theorem spaced_compact (tokens : List String) : Spaced tokens (bytesOf (compact tokens)) :=
  bytesOf_compact tokens ▸ Spaced.flatMap_bytesOf tokens

/-! ## Fields -/

namespace Json

/-- Working out something from the value takes the same tokens. -/
theorem Reader.Takes.map {α β : Type} {r : Reader α} {tokens : List String} {value : α}
    (h : r.Takes tokens value) (f : α → β) :
    (r >>= fun value => pure (f value)).Takes tokens (f value) := by
  intro after text htext hfollows
  obtain ⟨rest, hread, hrest⟩ := h after text htext hfollows
  exact ⟨rest, by rw [read_bind_ok _ hread, read_pure], hrest⟩

/-- A natural number begins with a token that ends no list. -/
theorem Value.startsElement_natural (limit : Nat) (expected : String) :
    (Value.natural limit expected).StartsElement :=
  startsElement_token_bind (Value.fails_wrongType 0x5D expected)

/-- So does a record, with the bracket that opens it. -/
theorem Shape.startsElement_reader {σ : Type} (shape : Shape σ) : shape.reader.StartsElement :=
  startsElement_token_bind (Value.fails_wrongType 0x5D shape.expected)

end Json

section Fields

variable {σ τ : Type} {name : String}

/-- Every word is read back from its decimal digits. -/
theorem takes_wordField (get : σ → UInt64) (put : UInt64 → σ → σ) (value : UInt64) :
    (wordField name get put).reader.Takes [toString value] (put value) := by
  have hnatural := Value.takes_natural (Nat.le_refl _) value.toNat_lt "usize"
  have htakes := hnatural.map fun n => put n.toUInt64
  rwa [show value.toNat.toUInt64 = value from UInt64.ofNat_toNat] at htakes

/-- The value of a number field may stand in a list. -/
theorem startsElement_wordField (get : σ → UInt64) (put : UInt64 → σ → σ) :
    (wordField name get put).reader.StartsElement :=
  (Value.startsElement_natural _ _).bind _

/-- The value of a number field ends where its number ends. -/
theorem extends_wordField (get : σ → UInt64) (put : UInt64 → σ → σ) :
    (wordField name get put).reader.Extends false :=
  (Value.extends_natural _ _).bind fun _ => extends_pure _

/-- A record is read where its field comes. -/
theorem takes_recordField {shape : Shape τ} (get : σ → τ) (put : τ → σ → σ) {tokens : List String}
    {value : τ} (h : shape.reader.Takes tokens value) :
    (recordField name shape get put).reader.Takes tokens (put value) :=
  h.map put

/-- The value of a record field may stand in a list. -/
theorem startsElement_recordField (shape : Shape τ) (get : σ → τ) (put : τ → σ → σ) :
    (recordField name shape get put).reader.StartsElement :=
  shape.startsElement_reader.bind _

end Fields

namespace ParallelConfig

/-- A member that sets a field of host settings. -/
inductive Override
  | numThreads (value : UInt64)
  | minChunk (value : UInt64)

/-- How host settings can be overridden. -/
def overrides : Overrides ParallelConfig where
  Override := Override
  names := ["num_threads", "min_chunk"]
  name
    | .numThreads _ => "num_threads"
    | .minChunk _ => "min_chunk"
  tokens
    | .numThreads value => [toString value]
    | .minChunk value => [toString value]
  apply
    | .numThreads value => fun c => { c with numThreads := value }
    | .minChunk value => fun c => { c with minChunk := value }
  Holds
    | .numThreads value => fun c => c.numThreads = value
    | .minChunk value => fun c => c.minChunk = value

/-- The fields of host settings are numbers, each of which ends with its digits. -/
theorem extends_fields : ∀ field ∈ shape.fields, field.reader.Extends false :=
  List.forall_mem_cons.mpr ⟨extends_wordField _ _,
    List.forall_mem_singleton.mpr (extends_wordField _ _)⟩

/-- The overrides of host settings are what its fields read. -/
theorem fits_shape : overrides.Fits shape where
  names_eq := rfl
  nodup := by decide
  isPlain := by decide
  reads
    | .numThreads value => ⟨_, .head _, rfl, takes_wordField _ _ value⟩
    | .minChunk value => ⟨_, .tail _ (.head _), rfl, takes_wordField _ _ value⟩
  starts := List.forall_mem_cons.mpr ⟨startsElement_wordField _ _,
    List.forall_mem_singleton.mpr (startsElement_wordField _ _)⟩

/-- Each override of host settings sets its own field and leaves the other. -/
theorem independent_overrides : overrides.Independent where
  holds_apply override record := by cases override <;> rfl
  holds_apply_iff override other record h := by
    cases override <;> cases other <;> simp_all [overrides]
  apply_comm override other record h := by
    cases override <;> cases other <;> simp_all [overrides]

end ParallelConfig

namespace DeviceConfig

/-- A member that sets a field of grid settings. -/
inductive Override
  | blockSize (value : UInt64)
  | elementsPerBlock (value : UInt64)
  | deviceThreads (value : UInt64)

/-- How grid settings can be overridden. -/
def overrides : Overrides DeviceConfig where
  Override := Override
  names := ["block_size", "elements_per_block", "device_threads"]
  name
    | .blockSize _ => "block_size"
    | .elementsPerBlock _ => "elements_per_block"
    | .deviceThreads _ => "device_threads"
  tokens
    | .blockSize value => [toString value]
    | .elementsPerBlock value => [toString value]
    | .deviceThreads value => [toString value]
  apply
    | .blockSize value => fun c => { c with blockSize := value }
    | .elementsPerBlock value => fun c => { c with elementsPerBlock := value }
    | .deviceThreads value => fun c => { c with deviceThreads := value }
  Holds
    | .blockSize value => fun c => c.blockSize = value
    | .elementsPerBlock value => fun c => c.elementsPerBlock = value
    | .deviceThreads value => fun c => c.deviceThreads = value

/-- The fields of grid settings are numbers too. -/
theorem extends_fields : ∀ field ∈ shape.fields, field.reader.Extends false :=
  List.forall_mem_cons.mpr ⟨extends_wordField _ _, List.forall_mem_cons.mpr
    ⟨extends_wordField _ _, List.forall_mem_singleton.mpr (extends_wordField _ _)⟩⟩

/-- The overrides of grid settings are what its fields read. -/
theorem fits_shape : overrides.Fits shape where
  names_eq := rfl
  nodup := by decide
  isPlain := by decide
  reads
    | .blockSize value => ⟨_, .head _, rfl, takes_wordField _ _ value⟩
    | .elementsPerBlock value => ⟨_, .tail _ (.head _), rfl, takes_wordField _ _ value⟩
    | .deviceThreads value => ⟨_, .tail _ (.tail _ (.head _)), rfl, takes_wordField _ _ value⟩
  starts := List.forall_mem_cons.mpr ⟨startsElement_wordField _ _, List.forall_mem_cons.mpr
    ⟨startsElement_wordField _ _, List.forall_mem_singleton.mpr (startsElement_wordField _ _)⟩⟩

/-- Each override of grid settings sets its own field and leaves the others. -/
theorem independent_overrides : overrides.Independent where
  holds_apply override record := by cases override <;> rfl
  holds_apply_iff override other record h := by
    cases override <;> cases other <;> simp_all [overrides]
  apply_comm override other record h := by
    cases override <;> cases other <;> simp_all [overrides]

end DeviceConfig

namespace RuntimeConfig

/-- A member that sets a part of a configuration, by any document of that part. -/
inductive Override
  | parallel (document : String) (value : ParallelConfig)
      (h : ParallelConfig.ofText document = .ok value)
  | device (document : String) (value : DeviceConfig) (h : DeviceConfig.ofText document = .ok value)

/-- How a configuration can be overridden. -/
def overrides : Overrides RuntimeConfig where
  Override := Override
  names := ["parallel", "device"]
  name
    | .parallel .. => "parallel"
    | .device .. => "device"
  tokens
    | .parallel document _ _ => [document]
    | .device document _ _ => [document]
  apply
    | .parallel _ value _ => fun c => { c with parallel := value }
    | .device _ value _ => fun c => { c with device := value }
  Holds
    | .parallel _ value _ => fun c => c.parallel = value
    | .device _ value _ => fun c => c.device = value

/-- Both parts of a configuration may stand in a list. -/
theorem starts_fields : ∀ field ∈ shape.fields, field.reader.StartsElement :=
  List.forall_mem_cons.mpr ⟨startsElement_recordField _ _ _,
    List.forall_mem_singleton.mpr (startsElement_recordField _ _ _)⟩

/-- The overrides of a configuration are documents of its parts, which its fields read. -/
theorem fits_shape : overrides.Fits shape where
  names_eq := rfl
  nodup := by decide
  isPlain := by decide
  reads
    | .parallel _ _ h => ⟨_, .head _, rfl, takes_recordField _ _
        (Shape.passes_document ParallelConfig.extends_fields h).takes⟩
    | .device _ _ h => ⟨_, .tail _ (.head _), rfl, takes_recordField _ _
        (Shape.passes_document DeviceConfig.extends_fields h).takes⟩
  starts := starts_fields

/-- Each override of a configuration sets its own part and leaves the other. -/
theorem independent_overrides : overrides.Independent where
  holds_apply override record := by cases override <;> rfl
  holds_apply_iff override other record h := by
    cases override <;> cases other <;> simp_all [overrides]
  apply_comm override other record h := by
    cases override <;> cases other <;> simp_all [overrides]

end RuntimeConfig

/-- Partial and reordered documents mean the defaults with the fields replaced that they name: for
host settings, for grid settings and for a whole configuration. -/
theorem documents_override_defaults :
    OverridesDefaults ParallelConfig.ofText {} ParallelConfig.overrides ∧
      OverridesDefaults DeviceConfig.ofText {} DeviceConfig.overrides ∧
      OverridesDefaults RuntimeConfig.ofText {} RuntimeConfig.overrides :=
  ⟨ParallelConfig.fits_shape.overridesDefaults ParallelConfig.independent_overrides,
    DeviceConfig.fits_shape.overridesDefaults DeviceConfig.independent_overrides,
    RuntimeConfig.fits_shape.overridesDefaults RuntimeConfig.independent_overrides⟩

/-- An unknown member in front of a field changes nothing about the field. -/
theorem documents_override_defaults_unknown :
    ParallelConfig.ofText "\x7b\"x\":[null,\x7b\x7d],\"min_chunk\":5\x7d" =
      .ok { minChunk := 5 } := by
  let members : List ParallelConfig.overrides.Member :=
    [.unknown ⟨"x", by decide⟩ (by decide) (.list [.null, .object []]), .known (.minChunk 5)]
  have hdocument : compact (ParallelConfig.overrides.objectTokens members) =
      "\x7b\"x\":[null,\x7b\x7d],\"min_chunk\":5\x7d" := by rfl
  have hspaced := spaced_compact (ParallelConfig.overrides.objectTokens members)
  rw [hdocument] at hspaced
  obtain ⟨record, hread, rfl, -⟩ :=
    documents_override_defaults.1.object members _ hspaced (List.nodup_singleton _)
  exact hread

end IdCompaction
