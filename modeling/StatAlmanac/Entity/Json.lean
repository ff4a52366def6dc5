import StatAlmanac.Entity.Kind
import StatAlmanac.Json.Decode

/-!
Kinds as JSON: the name as a string, or as the only key of an object.
-/

namespace StatAlmanac.Kind

open Json

def readJson (body : Bytes) : Except Fault Kind := Decode.whole (Decode.choice ofName?) body

end StatAlmanac.Kind
