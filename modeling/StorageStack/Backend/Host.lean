import StorageStack.Backend.Script
import StorageStack.Memory.Server

/-! # Hosts

A host keeps any number of memory filesystems and scripts, by number. Each backend
works on the part of one number, and backends over the same number share its state.
-/

namespace StorageStack

/-- The state behind memory and scripted backends. What is not there yet is empty. -/
structure Host where
  memories : Std.TreeMap Nat MemoryFs := ∅
  scripts : Std.TreeMap Nat Script := ∅

namespace Host

/-- The memory filesystem of a number. -/
def memory (number : Nat) : Part Host MemoryFs where
  get host := host.memories.getD number {}
  set fs host := { host with memories := host.memories.insert number fs }
  get_set _ _ := Std.TreeMap.getD_insert_self

/-- The script of a number. -/
def script (number : Nat) : Part Host Script where
  get host := host.scripts.getD number {}
  set script host := { host with scripts := host.scripts.insert number script }
  get_set _ _ := Std.TreeMap.getD_insert_self

end Host

end StorageStack
