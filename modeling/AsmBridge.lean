import AsmBridge.Main
import AsmBridge.Overview
import AsmBridge.Proofs.Conversion.Relocation
import AsmBridge.Proofs.Encoding.OperandSize
import AsmBridge.Proofs.Encoding.OperandField
import AsmBridge.Proofs.Encoding.Immediates
import AsmBridge.Proofs.Function.Extraction
import AsmBridge.Proofs.Function.Tally
import AsmBridge.Proofs.Source.Addresses
import AsmBridge.Proofs.Stack.Base
import AsmBridge.Proofs.Stack.Frame
import AsmBridge.Proofs.Stack.Alignment
import AsmBridge.Proofs.Conversion.FramePointer
import AsmBridge.Proofs.Abi.LiveIn
import AsmBridge.Proofs.Abi.StackArguments
import AsmBridge.Proofs.Abi.Counted
import AsmBridge.Proofs.Data.Assembly
import AsmBridge.Proofs.Conversion.Aliases
import AsmBridge.Proofs.Conversion.SlotAlignment
import AsmBridge.Proofs.Conversion.Reads
import AsmBridge.Proofs.Conversion.Transfers
import AsmBridge.Proofs.Conversion.Independence
import AsmBridge.Proofs.Stack.FrameAccess
import AsmBridge.Proofs.Conversion.Form
import AsmBridge.Proofs.Conversion.Declared
import AsmBridge.Proofs.Conversion.Faults
import AsmBridge.Proofs.Function.Endings
import AsmBridge.Proofs.Conversion.Append
import AsmBridge.Proofs.CommandLine.Atomicity
import AsmBridge.Proofs.Stack.Room
import AsmBridge.Proofs.Pool.LaidOut
import AsmBridge.Proofs.Pool.Statements
import AsmBridge.Proofs.Conversion.Refusals
import AsmBridge.Proofs.Data.Problems
import AsmBridge.Proofs.Source.Sums
import AsmBridge.Proofs.Source.Spellings
import AsmBridge.Proofs.Source.Malformed
import AsmBridge.Proofs.Source.Excursions
import AsmBridge.Proofs.Data.Strings
import AsmBridge.Proofs.Conversion.Comments
import AsmBridge.Proofs.Source.Reread
import AsmBridge.Proofs.Signature.Groups
