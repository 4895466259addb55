import AsmBridge.Conversion.Unit

/-!
# Go declarations

A Go file that declares the functions of a converted unit under their symbols, so that Go code can
call them.
-/

namespace AsmBridge

/-- The declaration of a function under a symbol, with the directive that its arguments do not
escape. -/
def stubText (symbol : String) (s : Signature) : String :=
  "//go:noescape\n" ++ s.declarationAs symbol

/-- The signature mentions a type of the package `unsafe`. -/
def needsUnsafe (s : Signature) : Bool :=
  (s.args ++ s.result.toList).any fun a => Text.contains "unsafe." a.kind

/-- The Go file that declares signatures under symbols. -/
def goDeclarations (package : String) (fs : List (String × Signature)) : String :=
  joinLines (generatedMark ++ ["package " ++ package, ""] ++
    if fs.any (fun f => needsUnsafe f.2) then ["import \"unsafe\"", ""] else []) ++
  String.intercalate "\n\n" (fs.map fun f => stubText f.1 f.2) ++ "\n"

/-- The Go file that declares the functions of a unit. -/
def ConvertedUnit.goDeclarations (u : ConvertedUnit) (package : String) : String :=
  AsmBridge.goDeclarations package (u.functions.map fun f => (f.symbol, f.signature))

end AsmBridge
