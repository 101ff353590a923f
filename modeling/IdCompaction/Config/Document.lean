import IdCompaction.Config.Basic
import IdCompaction.Context
import IdCompaction.Json.Shape

/-!
# Configuration documents

Configurations and contexts as documents. A configuration is an object, or a list of its first
fields, in which everything may be missing; a context is the name of a variant, with the ordinal of
a device. Each is written compactly, with every field in order, and reads back as itself.
-/

namespace IdCompaction

open Json

/-- A field that holds a 64-bit word. -/
def wordField {σ : Type} (name : String) (get : σ → UInt64) (put : UInt64 → σ → σ) :
    Shape.Field σ where
  name := name
  reader := return put (← Value.natural 18446744073709551616 "usize").toUInt64
  tokens record := [toString (get record)]

/-- A field that holds a record of its own. -/
def recordField {σ τ : Type} (name : String) (shape : Shape τ) (get : σ → τ) (put : τ → σ → σ) :
    Shape.Field σ where
  name := name
  reader := return put (← shape.reader)
  tokens record := shape.tokens (get record)

/-- The compact text of tokens. -/
def compact (tokens : List String) : String := String.join tokens

namespace ParallelConfig

/-- How host settings stand in a document. -/
def shape : Shape ParallelConfig where
  expected := "struct ParallelConfig"
  default := {}
  fields := [
    wordField "num_threads" numThreads fun value c => { c with numThreads := value },
    wordField "min_chunk" minChunk fun value c => { c with minChunk := value }]

/-- Reads host settings from a text. -/
def ofText (text : String) : Except Error ParallelConfig := readAll shape.reader text

/-- Writes host settings. -/
def toText (c : ParallelConfig) : String := compact (shape.tokens c)

end ParallelConfig

namespace DeviceConfig

/-- How grid settings stand in a document. -/
def shape : Shape DeviceConfig where
  expected := "struct DeviceConfig"
  default := {}
  fields := [
    wordField "block_size" blockSize fun value c => { c with blockSize := value },
    wordField "elements_per_block" elementsPerBlock fun value c =>
      { c with elementsPerBlock := value },
    wordField "device_threads" deviceThreads fun value c => { c with deviceThreads := value }]

/-- Reads grid settings from a text. -/
def ofText (text : String) : Except Error DeviceConfig := readAll shape.reader text

/-- Writes grid settings. -/
def toText (c : DeviceConfig) : String := compact (shape.tokens c)

end DeviceConfig

namespace RuntimeConfig

/-- How a whole configuration stands in a document. -/
def shape : Shape RuntimeConfig where
  expected := "struct RuntimeConfig"
  default := {}
  fields := [
    recordField "parallel" ParallelConfig.shape parallel fun value c =>
      { c with parallel := value },
    recordField "device" DeviceConfig.shape device fun value c => { c with device := value }]

/-- Reads a configuration from a text. -/
def ofText (text : String) : Except Error RuntimeConfig := readAll shape.reader text

/-- Writes a configuration. -/
def toText (c : RuntimeConfig) : String := compact (shape.tokens c)

end RuntimeConfig

namespace Context

open Reader

/-- The variants of a context. -/
inductive Variant
  | cpu
  | gpu
  deriving DecidableEq

/-- The name of a variant. -/
def Variant.name : Variant → String
  | .cpu => "Cpu"
  | .gpu => "Gpu"

/-- The variant with a given name. -/
def variantNamed (name : Bytes) : Reader Variant :=
  if name = Variant.cpu.name.toUTF8.toList then return .cpu
  else if name = Variant.gpu.name.toUTF8.toList then return .gpu
  else failHere (.unknownVariant (Text.ofBytes name))

/-- The rest of an object with a variant for its only key. -/
def variantObject : Reader Context := do
  let first ← token .endInObject
  if first = 0x7D then failHere .expectedValue
  else if first ≠ 0x22 then failHere .keyNotString
  else
    let variant ← variantNamed (← Text.body false)
    Value.colon
    let context ← match variant with
      | .cpu => do
        Value.null "unit"
        pure Context.cpu
      | .gpu => do
        let ordinal ← Value.natural 4294967296 "u32"
        pure (Context.gpu ordinal.toUInt32)
    match ← peekToken with
    | none => failHere .endInObject
    | some byte =>
      if byte = 0x7D then
        let _ ← next
        return context
      else failHere .expectedValue

/-- Reads a context: a bare name for host memory, an object for either variant. -/
def reader : Reader Context := do
  let first ← token .endInValue
  if first = 0x22 then
    match ← variantNamed (← Text.body false) with
    | .cpu => return .cpu
    | .gpu => failNowhere .bareVariant
  else if first = 0x7B then variantObject
  else failHere .expectedValue

/-- Reads a context from a text. -/
def ofText (text : String) : Except Error Context := readAll reader text

/-- The tokens of a context. -/
def tokens : Context → List String
  | .cpu => [nameToken Variant.cpu.name]
  | .gpu ordinal => objectTokens [(Variant.gpu.name, [toString ordinal])]

/-- Writes a context. -/
def toText (context : Context) : String := compact context.tokens

end Context

end IdCompaction
