import AsmBridge.Conversion.Unit

/-!
# Short forms

One line for each kind of thing that a conversion handles, for logs and for looking at
intermediate results: the kind in angle brackets with what tells the thing apart.
-/

namespace AsmBridge

/-- Things in a row, in brackets. -/
def shownList (parts : List String) : String := "[" ++ Text.commaList parts ++ "]"

def Label.shown (l : Label) : String := "<Label " ++ l.name ++ ">"

def Directive.shown (d : Directive) : String := "<Directive " ++ d.text ++ ">"

def Instruction.shown (i : Instruction) : String := "<Instruction " ++ i.text ++ ">"

def Epilogue.shown (e : Epilogue) : String :=
  "<Epilogue line " ++ ((e.line.map toString).getD "None") ++ ">"

def Record.shown : Record → String
  | .label l => l.shown
  | .directive d => d.shown
  | .instruction i => i.shown

/-- A record in source form. -/
def Record.text : Record → String
  | .label l => l.name ++ ":"
  | .directive d => d.text
  | .instruction i => i.text

def BodyItem.shown : BodyItem → String
  | .label l => l.shown
  | .directive d => d.shown
  | .instruction i => i.shown
  | .epilogue e => e.shown

/-- An item of a converted body. -/
def Item.shown : Item → String
  | .label name => "<Label " ++ name ++ ">"
  | .directive d => d.shown
  | .code bytes source =>
    "<Emission " ++ source.getD "None" ++ ": " ++ Bytes.packed bytes ++ ">"
  | .native i => "<Native " ++ i.text ++ ">"
  | .verbatim text => "<Native " ++ text ++ ">"
  | .other shown => shown

def Blob.shown (b : Blob) : String :=
  "<DataBlob " ++ b.symbol ++ ": " ++ toString b.data.length ++ " bytes align " ++
    toString b.align ++ ">"

def Argument.shown (a : Argument) : String :=
  "Argument(" ++ Text.quote a.name ++ ", " ++ Text.quote a.kind ++ ")"

def Signature.shown (s : Signature) : String := "<Signature " ++ s.declaration ++ ">"

def ArgSlot.shown (s : ArgSlot) : String :=
  let place :=
    match s.place with
    | .register r => r.name
    | .spill n => "spill " ++ toString n
  "<ArgumentSlot " ++ s.fpText ++ " -> " ++ place ++ ">"

def FrameLayout.shown (l : FrameLayout) : String :=
  "<FrameLayout " ++ toString l.size ++ " bytes: locals=" ++ toString l.locals ++ " spills=" ++
    toString l.spills ++ " pushes=" ++ toString l.pushes ++ " align=" ++ toString l.align ++ ">"

def SourceFunction.shown (f : SourceFunction) : String :=
  "<SourceFunction " ++ f.name ++ ": " ++ toString f.body.length ++ " records>"

def Helper.shown (h : Helper) : String := "<Helper " ++ h.name ++ " -> " ++ h.stub ++ ">"

/-- A call that is resolved is allowed. -/
def CallSite.shown (c : CallSite) : String := "<CallSite " ++ c.target ++ ": allowed>"

def ConvertedFunction.shown (f : ConvertedFunction) : String :=
  "<FunctionInfo " ++ f.symbol ++ ": " ++ toString f.signature.args.length ++ " args, $" ++
    toString f.layout.size ++ "-" ++ toString f.signature.argBytes ++ ">"

end AsmBridge
