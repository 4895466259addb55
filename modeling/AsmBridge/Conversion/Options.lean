import AsmBridge.Calls
import AsmBridge.Prototype
import AsmBridge.Target.Listing

/-!
# Options of a conversion

What can be asked of a conversion besides the unit itself: what the listing shows, how symbols are
formed, which calls are allowed, and which functions are declared elsewhere.
-/

namespace AsmBridge

/-- What a conversion can be told. -/
structure Options where
  stripComments : Bool := false
  compact : Bool := false
  keepDirectives : Bool := false
  /-- What is put before the names of functions that do not begin with it. -/
  symbolPrefix : String := "_"
  poolName : String := "LCDATA"
  stubPackage : String := ""
  /-- The functions that bodies may call; the standard ones if there is no list. -/
  allowedCalls : Option (List Helper) := none
  prototypes : Prototypes := {}
  /-- How many functions may be converted at a time. They are converted independently of each other,
  so that no answer depends on the number; there must only be one. -/
  jobs : Option Int := some 1
  /-- The name of the unit in diagnostics. -/
  file : Option String := none
deriving Repr

namespace Options

/-- The symbol of a function. -/
def symbol (o : Options) (f : SourceFunction) : String :=
  if Text.startsWith o.symbolPrefix f.name then f.name else o.symbolPrefix ++ f.name

/-- What the listing shows. -/
def style (o : Options) : ListingStyle :=
  { compact := o.compact, comments := !o.stripComments, directives := o.keepDirectives }

end Options

end AsmBridge
