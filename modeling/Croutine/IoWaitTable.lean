import Croutine.Basic

/-!
# The I/O wait table

The array of `struct IoWaitEntry` that records which task waits on which
descriptor and direction.  A pointer to an entry is its index.  The array keeps
holes left by removals, `count` is maintained separately, and growing compacts
the entries in use into a larger array.
-/

namespace Croutine

/-- `struct IoWaitEntry`; the defaults are what `io_wait_entry_reset` stores. -/
structure IoWaitEntry where
  fd : Int := -1
  readTask : Option TaskId := none
  writeTask : Option TaskId := none
  inUse : Bool := false
  deriving DecidableEq

/-- `struct IoWaitTable`; the capacity is the length of `entries`. -/
structure IoWaitTable where
  entries : List IoWaitEntry
  count : Nat
  deriving DecidableEq

def ioWaitEntryReset : IoWaitEntry := {}

def ioWaitEntryEvents (entry : IoWaitEntry) : IoEvents :=
  ⟨entry.readTask.isSome, entry.writeTask.isSome⟩

def ioWaitEntryClearTask (entry : IoWaitEntry) (task : TaskId) : IoWaitEntry :=
  let entry := if entry.readTask = some task then { entry with readTask := none } else entry
  if entry.writeTask = some task then { entry with writeTask := none } else entry

/-- `allocOk` is the outcome of the allocation. -/
def ioWaitTableInit (capacity : Nat) (allocOk : Bool) : Option IoWaitTable :=
  if allocOk then some ⟨List.replicate capacity ioWaitEntryReset, 0⟩ else none

namespace IoWaitTable

def capacity (table : IoWaitTable) : Nat := table.entries.length

/-- The entries in use. -/
def used (table : IoWaitTable) : List IoWaitEntry :=
  table.entries.filter (·.inUse)

def setEntry (table : IoWaitTable) (i : Nat) (entry : IoWaitEntry) : IoWaitTable :=
  { table with entries := table.entries.set i entry }

end IoWaitTable

/-- Entries in use move to the front of an array of twice the capacity.  An array of
`capacity` entries of 32 bytes exists, so doubling its capacity stays within `size_t`. -/
def ioWaitTableGrow (allocOk : Bool) (table : IoWaitTable) : Option IoWaitTable :=
  let newCapacity := if table.capacity = 0 then 1 else table.capacity * 2
  if allocOk then
    some ⟨table.used ++
        List.replicate (newCapacity - table.used.length) ioWaitEntryReset,
      table.used.length⟩
  else none

def ioWaitTableFind (table : IoWaitTable) (fd : Int) : Option Nat :=
  table.entries.findIdx? fun entry => entry.inUse && entry.fd == fd

/-- The loop of `io_wait_table_get_or_insert` that claims the first free slot. -/
def ioWaitTableClaim (table : IoWaitTable) (fd : Int) : IoWaitTable × Option Nat :=
  match table.entries.findIdx? fun entry => !entry.inUse with
  | some i =>
    (⟨table.entries.set i ⟨fd, none, none, true⟩, table.count + 1⟩, some i)
  | none => (table, none)

def ioWaitTableGetOrInsert (allocOk : Bool) (table : IoWaitTable) (fd : Int) :
    IoWaitTable × Option Nat :=
  match ioWaitTableFind table fd with
  | some i => (table, some i)
  | none =>
    if table.count = table.capacity then
      match ioWaitTableGrow allocOk table with
      | some grown => ioWaitTableClaim grown fd
      | none => (table, none)
    else ioWaitTableClaim table fd

def ioWaitTableRemoveEntry (table : IoWaitTable) (i : Nat) : IoWaitTable :=
  match table.entries[i]? with
  | some entry =>
    if entry.inUse then
      ⟨table.entries.set i ioWaitEntryReset, table.count - 1⟩
    else table
  | none => table

end Croutine
