import IdCompaction.Id

/-!
# Execution contexts

A context says where buffers live and where parallel work runs: in host memory, or on one of the
devices, which are told apart by an ordinal.
-/

namespace IdCompaction

/-- Where buffers live and where parallel work runs. -/
inductive Context
  | cpu
  | gpu (ordinal : UInt32)
  deriving DecidableEq

namespace Context

instance : Inhabited Context := ⟨.cpu⟩

/-- A device context, as against host memory. -/
def isGpu : Context → Bool
  | .cpu => false
  | .gpu _ => true

/-- The short text of a context, as messages and events name it. -/
def label : Context → String
  | .cpu => "cpu"
  | .gpu ordinal => s!"gpu:{ordinal}"

/-- The long form of a context. -/
def describe : Context → String
  | .cpu => "Cpu"
  | .gpu ordinal => s!"Gpu({ordinal})"

end Context

end IdCompaction
