import IdCompaction.Config.Document

/-!
# Values as tools show them

A tool that shows a configuration or a context gives its written form and its long form, and says
whether it is the default and whether its written form reads back as it.
-/

namespace IdCompaction

/-- What is shown of a value. -/
structure Shown where
  text : String
  described : String
  isDefault : Bool
  readsBack : Bool

/-- Shows a value of a type with a written form and a long form. -/
def Shown.of {α : Type} [DecidableEq α] [Inhabited α] (toText describe : α → String)
    (ofText : String → Except Json.Error α) (value : α) : Shown where
  text := toText value
  described := describe value
  isDefault := value == default
  readsBack :=
    match ofText (toText value) with
    | .ok again => again == value
    | .error _ => false

/-- Shows host settings. -/
def ParallelConfig.shown (c : ParallelConfig) : Shown := .of toText describe ofText c

/-- Shows grid settings. -/
def DeviceConfig.shown (c : DeviceConfig) : Shown := .of toText describe ofText c

/-- Shows a whole configuration. -/
def RuntimeConfig.shown (c : RuntimeConfig) : Shown := .of toText describe ofText c

/-- Shows a context. -/
def Context.shown (c : Context) : Shown := .of toText describe ofText c

end IdCompaction
