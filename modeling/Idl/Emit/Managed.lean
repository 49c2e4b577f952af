import Idl.Signature

/-!
# Managed text

The managed backend writes arguments and results alike, as a type and a name each, and has no
callback. Its generic body returns the default value of a single result.
-/

namespace Idl.Managed

def params (ps : List Param) : Doc :=
  Doc.join ", " <| ps.map fun p => Doc.text (p.shape.managed ++ " " ++ p.name)

def args (g : Signature) : Doc := params g.args

def results (g : Signature) : Doc := params g.results

def fallbackBody (g : Signature) : Doc :=
  match g.results with
  | [only] => Doc.text ("return " ++ only.shape.default ++ ";\n")
  | _ => Doc.text "return;\n"

end Idl.Managed
