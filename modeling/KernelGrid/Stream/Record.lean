import KernelGrid.Stream.Cursor

/-!
# Records

After its header a stream is a sequence of records.  The first word of a record holds the
number of its words in the high half and an opcode in the low half; the other words are
operands.
-/

namespace KernelGrid.Stream

structure Record where
  offset : Nat
  opcode : Opcode
  operands : List Word
deriving DecidableEq, Repr

namespace Record

/-- The words of a record, or the reason why it cannot be written. -/
def frame (opcode : Opcode) (operands : List Word) : Except ModuleError (List Word) :=
  let count := operands.length + 1
  if maxRecordWords < count then .error (.recordTooLong opcode count)
  else .ok ((count.toUInt32 <<< 16 ||| opcode.toUInt32) :: operands)

/-- The record at the cursor. -/
def read : Reader Record := do
  let offset := (← get).offset
  let first ← Cursor.readWord
  let count := (first >>> 16).toNat
  if count = 0 then throw (.zeroWordCount offset)
  return { offset, opcode := first.toUInt16, operands := ← Cursor.readWords (count - 1) }

/-- Reads at most `limit` records, in front of those already read. -/
def readAll (limit : Nat) (c : Cursor) (done : List Record) : List Record × Option ModuleError :=
  match limit with
  | 0 => (done.reverse, none)
  | limit + 1 =>
    if c.isEmpty then (done.reverse, none)
    else
      match read.run.run c with
      | (.ok record, c) => readAll limit c (record :: done)
      | (.error e, _) => (done.reverse, some e)

/-- The records from the cursor on, up to the first that cannot be split off, and why not.  Each
record takes at least one word, so the words that are left bound their number. -/
def split (c : Cursor) : List Record × Option ModuleError :=
  readAll c.remaining c []

end Record

end KernelGrid.Stream
