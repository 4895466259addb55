import AsmBridge.Encoding.Table.General
import AsmBridge.Encoding.Table.Sse
import AsmBridge.Encoding.Table.Vex

/-!
# The encoding table

Every supported instruction with its forms. Mnemonics are looked up in letters of either case.
-/

namespace AsmBridge.Table

/-- All supported instructions. -/
def entries : List Entry := generalEntries ++ sseEntries ++ vexEntries

/-- The supported instruction of a mnemonic. -/
def lookup? (mnemonic : String) : Option Entry :=
  let name := Text.lower mnemonic
  entries.find? fun e => e.mnemonic == name

end AsmBridge.Table
