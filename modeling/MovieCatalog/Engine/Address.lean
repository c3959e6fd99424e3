import MovieCatalog.Url.Resolve

/-!
# The address of the engine

The engine is configured by a URL or by a host alone, and by the name of an index. Searches are sent
to a URL below the configured one; the name of the index is read relative to it.
-/

namespace MovieCatalog.Engine

/-- The URL that a configured host stands for, as a text. It ends in a slash, so that nothing is
taken away from its path when the index is added. -/
def baseText (host : String) : String :=
  let s :=
    if "http://".toList.isPrefixOf host.toList ∨ "https://".toList.isPrefixOf host.toList then host
    else "http://" ++ host
  if s.toList.getLast? = some '/' then s else s ++ "/"

/-- The URL that searches are sent to. -/
def searchUrl (host index : String) : Except Url.Fault Url := do
  let base ← Url.resolve none (baseText host)
  Url.resolve (some base) (index ++ "/_search")

end MovieCatalog.Engine
