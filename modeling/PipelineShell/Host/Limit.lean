/-!
How much of what a host offers its processes may use. A limit has a bound that is in force, and
another up to which a process may raise the first one for itself.
-/

namespace PipelineShell.Host

/-- What the use of is limited. -/
inductive Resource where
  | time
  | fileSize
  | data
  | stack
  | core
  | residentMemory
  | lockedMemory
  | processes
  | descriptors
  | addresses
  | locks
  | priority
deriving DecidableEq, Repr

/-- The bounds of a resource; there is no bound where there is nothing. -/
structure Limit where
  soft : Option Nat
  hard : Option Nat
deriving DecidableEq, Repr

def isWithin (bound : Option Nat) : Option Nat → Bool
  | none => true
  | some other => bound.any (· ≤ other)

def Limit.standard : Resource → Limit
  | .stack => ⟨some 8388608, none⟩
  | .core => ⟨some 0, none⟩
  | .lockedMemory => ⟨some 8388608, some 8388608⟩
  | .descriptors => ⟨some 1048576, some 1048576⟩
  | .priority => ⟨some 0, some 0⟩
  | _ => ⟨none, none⟩

abbrev Limits := List (Resource × Limit)

def Limits.of (limits : Limits) (resource : Resource) : Limit :=
  (limits.lookup resource).getD (.standard resource)

def Limits.put (limits : Limits) (resource : Resource) (limit : Limit) : Limits :=
  (resource, limit) :: limits.filter fun entry => entry.1 != resource

end PipelineShell.Host
