import SchemaCatalog.Name.Dotted
import SchemaCatalog.Resource.Error
import SchemaCatalog.Text.WhiteSpace

/-!
# The places of a dotted name

A dotted name may be written with any number of its leading segments as sub-catalogs.  A resource is
registered at all of these places, so that it is found whichever way its name is written:
`project.dataset.table` at the root, `dataset.table` in `project`, and `table` in `dataset` in
`project`.
-/

namespace SchemaCatalog

/-- A chain of sub-catalogs and a name within the last of them. -/
structure Place where
  catalogs : List String
  name : String
deriving DecidableEq, Repr

namespace Place

/-- The splits of a list of segments: `0`, `1`, … of them as sub-catalogs and the others as the
name. -/
def splits (segments : List String) : List Place :=
  (List.range segments.length).map fun count =>
    ⟨segments.take count, Name.dotted (segments.drop count)⟩

/-- The places of a name: all splits, or the whole name at the root if names are not nested.  No
segment may be blank. -/
def ofName (nested : Bool) (name : String) : Except CatalogError (List Place) :=
  let segments := Name.segments name
  if segments.any Text.isBlank then .error (.invalidName name)
  else .ok (if nested then splits segments else [⟨[], name⟩])

end Place

end SchemaCatalog
