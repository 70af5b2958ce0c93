import PipelineShell.System.Descriptors

/-!
Descriptor tables by what is behind each number. A new descriptor takes a number that was free and
changes no other; a descriptor that was new and is moved away leaves the table as if it had been
put into its place at once.
-/

namespace PipelineShell.Descriptors

variable {file : Type}

structure Adds (table : Descriptors file) (fd : Fd) (descriptor : Descriptor file)
    (later : Descriptors file) : Prop where
  free : table.lookup fd = none
  lookup : ∀ other,
    later.lookup other = if other = fd then some descriptor else table.lookup other

theorem lookup_lowestFree (table : Descriptors file) (least : Fd) :
    table.lookup (table.lowestFree least) = none := by
  rw [lookup, lowestFree, ← List.getElem?_drop]
  by_cases inside : (table.slots.drop least).findIdx Option.isNone < (table.slots.drop least).length
  · have isFree := List.findIdx_getElem (w := inside)
    rw [List.getElem?_eq_getElem inside]
    exact Option.isNone_iff_eq_none.mp isFree
  · rw [List.getElem?_eq_none (Nat.not_lt.mp inside)]
    rfl

theorem le_lowestFree (table : Descriptors file) (least : Fd) : least ≤ table.lowestFree least :=
  Nat.le_add_right least _

theorem lookup_afterExecute (table : Descriptors file) (fd : Fd) :
    table.afterExecute.lookup fd = (table.lookup fd).filter fun found => !found.closeOnExecute := by
  rw [lookup, lookup, afterExecute, List.getElem?_map]
  cases table.slots[fd]? with
  | none => rfl
  | some slot => rfl

theorem adds_set {table : Descriptors file} {fd : Fd} (free : table.lookup fd = none)
    (descriptor : Descriptor file) : table.Adds fd descriptor (table.set fd descriptor) :=
  ⟨free, fun other => lookup_set table fd other descriptor⟩

namespace Adds

variable {table middle later : Descriptors file} {fd other : Fd}
  {descriptor second : Descriptor file}

theorem lookup_self (adds : table.Adds fd descriptor later) :
    later.lookup fd = some descriptor := by
  rw [adds.lookup, if_pos rfl]

theorem lookup_other (adds : table.Adds fd descriptor later) (different : other ≠ fd) :
    later.lookup other = table.lookup other := by
  rw [adds.lookup, if_neg different]

theorem lookup_close (adds : table.Adds fd descriptor later) (other : Fd) :
    (later.close fd).lookup other = table.lookup other := by
  rw [Descriptors.lookup_close]
  split
  · rename_i same
    rw [same, adds.free]
  · rename_i different
    exact adds.lookup_other different

theorem swap (adds : table.Adds fd descriptor middle) (more : middle.Adds other second later) :
    table.Adds other second (table.set other second) ∧
      (table.set other second).Adds fd descriptor later := by
  have different : other ≠ fd := by
    intro same
    have impossible := more.free
    rw [same, adds.lookup_self] at impossible
    cases impossible
  have free : table.lookup other = none := (adds.lookup_other different).symm.trans more.free
  refine ⟨adds_set free second, ?_, fun number => ?_⟩
  · rw [lookup_set, if_neg different.symm]
    exact adds.free
  · rw [more.lookup, adds.lookup, lookup_set]
    split
    · rename_i isOther
      rw [if_neg (fun isFirst => different (isOther.symm.trans isFirst))]
    · rfl

theorem moved {content : file} {copy : Fd} (adds : table.Adds fd ⟨content, true⟩ middle)
    (free : middle.lookup copy = none) :
    table.Adds copy ⟨content, true⟩ ((middle.set copy ⟨content, true⟩).close fd) := by
  obtain ⟨new, other⟩ := adds.swap (adds_set free ⟨content, true⟩)
  refine ⟨new.free, fun number => ?_⟩
  rw [other.lookup_close, lookup_set]

end Adds

end PipelineShell.Descriptors
