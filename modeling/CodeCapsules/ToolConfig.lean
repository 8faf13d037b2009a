import CodeCapsules.Flash.Builder
import CodeCapsules.Store.Basic

/-!
Contract: what the command line can be configured with.
-/

namespace CodeCapsules

/-- The set-up of the store, and the layout of new images. -/
structure ToolConfig where
  store : Store.Config
  layout : Flash.Layout
deriving DecidableEq, Repr

def ToolConfig.standard : ToolConfig := ⟨.standard, .standard⟩

end CodeCapsules
