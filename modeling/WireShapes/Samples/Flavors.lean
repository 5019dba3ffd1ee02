import WireShapes.Bindings.OfModel
import WireShapes.Samples.Corners
import WireShapes.Samples.Showcase

/-!
# Flavors of the sample bindings

Bindings of the sample models under two protocols each.
-/

namespace WireShapes.Samples

/-- The showcase with bare outputs and bare errors. -/
def rest : Except GenerateError Bindings :=
  Showcase.model.bindings { errorWrapping := false }

/-- The showcase with wrapped outputs and wrapped errors. -/
def query : Except GenerateError Bindings :=
  Showcase.model.bindings { envelope := .wrapped }

/-- The corner cases under the usual settings. -/
def plain : Except GenerateError Bindings :=
  Corners.model.bindings {}

/-- The corner cases with a qualifier and names of their own for the parts of collections. -/
def spaced : Except GenerateError Bindings :=
  Corners.model.bindings {
    envelope := .wrapped, errorWrapping := false, qualifier := "ns"
    itemName := "item", entryName := "pair", keyName := "name", valueName := "x:setting" }

end WireShapes.Samples
