import DslBindings.Text.Basic

/-!
# Cache keys

A cache directory is identified by a label and a list of components, and named after a digest of
both.
-/

namespace DslBindings

/-- What identifies a cache directory. -/
structure CacheKey where
  label : String
  components : List String
  deriving DecidableEq, Repr, Inhabited

namespace CacheKey

/-- The whole key as one text, with each component on lines of its own. -/
def toText (key : CacheKey) : String :=
  key.components.foldl (fun text component => text ++ "\n" ++ component) key.label

end CacheKey

end DslBindings
