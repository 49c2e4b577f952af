import Idl.Signature

/-!
# Native text

A native method returns `Return<T>` if its only result can be returned directly, and
`Return<void>` otherwise; results that are not returned go to a trailing callback parameter. Names
are short inside a class and qualified outside, as the style says.
-/

namespace Idl

structure NativeStyle where
  /-- Runtime types are written with their namespace. -/
  qualified : Bool
  /-- The class that qualifies the method name, if any. -/
  owner : Option String
  deriving DecidableEq, Repr

namespace NativeStyle

/-- For a declaration inside its class. -/
def header : NativeStyle := ⟨false, none⟩

/-- For a definition outside its class. -/
def source (owner : String) : NativeStyle := ⟨true, some owner⟩

def withQualified (style : NativeStyle) (qualified : Bool) : NativeStyle :=
  { style with qualified := qualified }

def withOwner (style : NativeStyle) (owner : String) : NativeStyle :=
  { style with owner := some owner }

end NativeStyle

namespace Annotation

/-- All annotations in one comment line; nothing if there are none. -/
def comment : List Annotation → Doc
  | [] => .empty
  | as => Doc.text "// " ++ Doc.join " " (as.map source) ++ Doc.newline

end Annotation

namespace Native

def callbackName : String := "_hidl_cb"

def params (style : NativeStyle) (ps : List Param) : Doc :=
  Doc.join ", " <| ps.map fun p =>
    Doc.text (p.shape.nativeArgument style.qualified ++ " " ++ p.name)

/-- The arguments, and the callback if there is one. -/
def args (style : NativeStyle) (g : Signature) : Doc :=
  match g.delivery with
  | .callback =>
    params style g.args ++ Doc.text (if g.args.isEmpty then "" else ", ") ++
      Doc.text (g.name ++ "_cb " ++ callbackName)
  | _ => params style g.args

/-- The results as the callback takes them. -/
def results (style : NativeStyle) (g : Signature) : Doc := params style g.results

def returned (style : NativeStyle) (g : Signature) : String :=
  match g.delivery with
  | .direct result => result.shape.nativeResult style.qualified
  | _ => "void"

def returnType (style : NativeStyle) (g : Signature) : Doc :=
  Doc.text (qualifier style.qualified ++ "Return<" ++ returned style g ++ "> ")

def owner (style : NativeStyle) : String :=
  match style.owner with
  | some name => name ++ "::"
  | none => ""

def signature (style : NativeStyle) (g : Signature) : Doc :=
  returnType style g ++ Doc.text (owner style ++ g.name ++ "(") ++ args style g ++ Doc.text ")"

def declaration (style : NativeStyle) (g : Signature) : Doc :=
  Annotation.comment g.annotations ++ signature style g ++ Doc.text ";\n"

def definition (style : NativeStyle) (g : Signature) (body : Doc) : Doc :=
  signature style g ++ Doc.text " " ++ Doc.block "" body

def returnVoid : String := "return ::android::hardware::Void();"

/-- The body of a method that brings none. -/
def fallbackBody (style : NativeStyle) (g : Signature) : Doc :=
  match g.delivery with
  | .direct result =>
    Doc.text ("return " ++ result.shape.nativeResult style.qualified ++ " \x7b\x7d;\n")
  | _ => Doc.ofLines [returnVoid]

end Native
end Idl
