import AsmBridge.Conversion.Function
import AsmBridge.Source.Unit

/-!
# Conversion of a unit

A unit is read, divided into functions and searched for constant data. Then the pool is laid out
for all functions, and each function is converted. The defects of all functions are reported
together, and a unit with a defect has no listing.
-/

namespace AsmBridge

/-- Why a unit has no conversion. -/
inductive Failure
  /-- It has defects. -/
  | defects (file : Option String) (ds : List Diagnostic)
  /-- It was given up. -/
  | fault (f : Fault)
deriving Repr

/-- The diagnostics of a unit, one on a line. -/
def report (file : Option String) (ds : List Diagnostic) : String :=
  String.intercalate "\n" (ds.map (·.text file))

/-- A converted unit. -/
structure ConvertedUnit where
  functions : List ConvertedFunction
  pool : Pool
  text : String
deriving Repr

/-- The pool with the data of one more address. -/
def requireAddress (x : DataIndex) (f : SourceFunction) (pool : Pool) (p : Instruction × Address) :
    Except Diagnostic Pool :=
  let (i, a) := p
  if !a.ripRelative then .ok pool
  else do
    let blob ← x.lookupFor a.symbol (some f.name) i.line
    return pool.withUse blob a.accessBytes

/-- The pool with the data of as many addresses of a function as come before one without data, and
the defect of that one. -/
def requireAll (x : DataIndex) (f : SourceFunction) (pool : Pool) :
    List (Instruction × Address) → Pool × Option Diagnostic
  | [] => (pool, none)
  | p :: rest =>
    match requireAddress x f pool p with
    | .ok pool => requireAll x f pool rest
    | .error d => (pool, some d)

/-- The pool of a unit and, by function label, the defect of each function that lacks data; of
functions with one label the last defect counts. -/
def requireConstants (x : DataIndex) (name : String) (fs : List SourceFunction) :
    Pool × List (String × Diagnostic) :=
  fs.foldl (fun (pool, failed) f =>
    match requireAll x f pool f.addresses with
    | (pool, some d) => (pool, (f.label, d) :: failed)
    | (pool, none) => (pool, failed)) ({ name := name }, [])

/-- The outcome of a function in a unit: its own conversion, or that of the last function with
its label, since labels name functions. -/
def outcome (failed : List (String × Diagnostic))
    (done : List (String × Except (List Diagnostic) ConvertedFunction)) (f : SourceFunction) :
    Except (List Diagnostic) ConvertedFunction :=
  match failed.lookup f.label with
  | some d => .error [d]
  | none =>
    match done.reverse.lookup f.label with
    | some r => r
    | none => .error []

/-- The defects and the conversions among outcomes. -/
def divide : List (Except (List Diagnostic) ConvertedFunction) →
    List Diagnostic × List ConvertedFunction
  | [] => ([], [])
  | r :: rest =>
    let (ds, fs) := divide rest
    match r with
    | .ok f => (ds, f :: fs)
    | .error more => (more ++ ds, fs)

/-- The block of a function in the listing. -/
def renderFunction (style : ListingStyle) (f : ConvertedFunction) : Except Stop (List String) :=
  (renderItems style f.items).map fun lines =>
    "" :: blockHead f.symbol f.layout.size f.signature.argBytes :: lines

/-- The listing of a unit. -/
def renderUnit (style : ListingStyle) (pool : Pool) (fs : List ConvertedFunction) :
    Except Stop String := do
  let poolText ← renderPool pool
  let blocks ← fs.mapM (renderFunction style)
  return joinLines (listingHeader ++ (if poolText.isEmpty then [] else "" :: poolText) ++
    blocks.flatten)

/-- A failure before functions are converted: a defect is reported as the only one. -/
def earlyFailure (file : Option String) : Fault → Failure
  | .defect d => .defects file [d]
  | f => .fault f

/-- The functions and the constant data of a unit. -/
def readFunctions (text : String) : Except Fault (List SourceFunction × DataIndex) := do
  let records ← Source.readUnit text
  let functions ← extractFunctions records
  let index ← DataIndex.ofRecords records
  return (functions, index)

/-- The conversion of a unit. -/
def convert (o : Options) (text : String) : Except Failure ConvertedUnit := do
  let (functions, index) ← (readFunctions text).mapError (earlyFailure o.file)
  let (pool, failed) := requireConstants index o.poolName functions
  let pool := pool.fix
  if !Text.isWritable pool.size then throw (.fault (.stop .numberUnwritable))
  if o.jobs.isNone then throw (.fault (.stop .jobsUnknown))
  let c : UnitContext :=
    { options := o, helpers := Helpers.ofList o.allowedCalls o.stubPackage, pool := pool }
  let todo := functions.filter fun f => (failed.lookup f.label).isNone
  let results ← (todo.mapM (convertFunction c)).mapError Failure.fault
  let done := (todo.map (·.label)).zip results
  let (ds, converted) := divide (functions.map (outcome failed done))
  if !ds.isEmpty then throw (.defects o.file ds)
  let text ← (renderUnit o.style pool converted).mapError fun s => Failure.fault (.stop s)
  return { functions := converted, pool := pool, text := text }

end AsmBridge
