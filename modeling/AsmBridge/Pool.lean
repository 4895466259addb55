import AsmBridge.Data.Index

/-!
# The constant pool

The blobs that the functions of a unit refer to are copied into one pool, in the order of their
first use. A slot is aligned for its blob and for the widest access made to it, up to 32 bytes. The
first question for an offset fixes the layout; from then on no blob is added.
-/

namespace AsmBridge

/-- A blob in the pool. -/
structure PoolSlot where
  blob : Blob
  align : Nat
deriving DecidableEq, Repr

/-- A constant pool. -/
structure Pool where
  name : String := "LCDATA"
  /-- The slots in the order of first use. -/
  slots : List PoolSlot := []
  /-- The layout is fixed. -/
  isFixed : Bool := false
deriving DecidableEq, Repr

namespace Pool

/-- The widest alignment that an access asks for. -/
def widestAccess : Int := 32

/-- The alignment that a blob and an access of so many bytes ask for. -/
def wanted (b : Blob) (access : Int) : Nat := (max (max b.align (min access widestAccess)) 1).toNat

/-- The slots with a use of a blob noted: its slot is widened, or it gets one. -/
def noteUse (b : Blob) (align : Nat) : List PoolSlot → List PoolSlot
  | [] => [⟨b, align⟩]
  | s :: rest =>
    if s.blob.symbol == b.symbol then { s with align := max s.align align } :: rest
    else s :: noteUse b align rest

/-- The pool with a use of a blob noted. -/
def withUse (p : Pool) (b : Blob) (access : Int) : Pool :=
  { p with slots := noteUse b (wanted b access) p.slots }

/-- The pool with a use of a blob noted, as long as its layout is not fixed. -/
def require (p : Pool) (b : Blob) (access : Int) : Except Stop Pool :=
  if p.isFixed then .error .poolFixed else .ok (p.withUse b access)

/-- The offsets of slots from a starting offset on: each the least multiple of its alignment that
is not below the end of the slot before. -/
def offsetsFrom : Nat → List PoolSlot → List Nat
  | _, [] => []
  | start, s :: rest =>
    let offset := roundUp start s.align
    offset :: offsetsFrom (offset + s.blob.data.length) rest

/-- The end of the last of some slots from a starting offset on. -/
def endFrom : Nat → List PoolSlot → Nat
  | start, [] => start
  | start, s :: rest => endFrom (roundUp start s.align + s.blob.data.length) rest

/-- The offsets of all slots. -/
def offsets (p : Pool) : List Nat := offsetsFrom 0 p.slots

/-- The pool with its layout fixed. -/
def fix (p : Pool) : Pool := { p with isFixed := true }

/-- The largest alignment of a slot. -/
def align (p : Pool) : Nat := p.slots.foldl (fun n s => max n s.align) 1

/-- The size with the tail that makes it a multiple of the largest alignment. -/
def size (p : Pool) : Nat := roundUp (endFrom 0 p.slots) p.align

/-- The offset of the slot of a symbol. -/
def offset? (p : Pool) (symbol : Option String) : Option Nat :=
  ((p.slots.zip p.offsets).find? fun q => some q.1.blob.symbol == symbol).map (·.2)

/-- The alignment of the slot of a symbol. -/
def alignment? (p : Pool) (symbol : String) : Option Nat :=
  (p.slots.find? fun s => s.blob.symbol == symbol).map (·.align)

/-- The address in the pool, relative to the register that holds its address, of what an address
refers to. -/
def rebase (p : Pool) (a : Address) (r : Register) : Except Stop Address :=
  match p.offset? a.symbol with
  | some n => .ok (a.rebase r (n + a.disp))
  | none => .error (.slotMissing a.symbol)

/-- The bytes of slots with zeros between them, from a starting offset on. -/
def bytesFrom : Nat → List PoolSlot → List UInt8
  | _, [] => []
  | start, s :: rest =>
    let offset := roundUp start s.align
    List.replicate (offset - start) 0 ++ s.blob.data ++
      bytesFrom (offset + s.blob.data.length) rest

/-- The contents of the pool, with zeros between the slots and behind the last. -/
def data (p : Pool) : List UInt8 :=
  bytesFrom 0 p.slots ++ List.replicate (p.size - endFrom 0 p.slots) 0

/-- The contents, if there is room for them. -/
def contents (p : Pool) : Except Stop (List UInt8) := (roomFor p.size).map fun _ => p.data

end Pool

/-- What can be asked of a pool that is still being filled. -/
inductive PoolQuestion
  | offset
  | size
  | contents
  /-- The statements of its data, of which an empty pool has none. -/
  | statements
  /-- Symbols, alignments, and offsets as far as they are fixed. -/
  | slots
deriving DecidableEq, Repr

/-- The answer depends on where the slots of the pool lie. -/
def PoolQuestion.needsLayout (p : Pool) : PoolQuestion → Bool
  | .statements => !p.slots.isEmpty
  | .slots => false
  | _ => true

namespace Pool

/-- The pool behind a question, which fixes the layout if the answer depends on it. -/
def asked (p : Pool) (q : PoolQuestion) : Pool := if q.needsLayout p then p.fix else p

/-- The symbols with their offsets, which are unknown before the layout is fixed. -/
def placement (p : Pool) : List (String × Option Nat) :=
  (p.slots.zip p.offsets).map fun q => (q.1.blob.symbol, if p.isFixed then some q.2 else none)

end Pool

end AsmBridge
