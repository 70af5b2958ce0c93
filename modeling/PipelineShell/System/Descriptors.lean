/-!
The descriptor table of a process. A new descriptor takes the lowest free number; a copy made
onto a given number replaces what was there; executing a program keeps the descriptors that are
not marked to be closed then.
-/

namespace PipelineShell

abbrev Fd := Nat

def Fd.input : Fd := 0

def Fd.output : Fd := 1

def Fd.error : Fd := 2

/-- What stands behind a descriptor number. -/
structure Descriptor (file : Type) where
  file : file
  closeOnExecute : Bool
deriving DecidableEq, Repr

/-- The descriptors of one process, by number. -/
structure Descriptors (file : Type) where
  slots : List (Option (Descriptor file))
deriving DecidableEq, Repr

namespace Descriptors

variable {file : Type}

def empty : Descriptors file :=
  ⟨[]⟩

def lookup (table : Descriptors file) (fd : Fd) : Option (Descriptor file) :=
  (table.slots[fd]?).join

def place (content : Option (Descriptor file)) :
    List (Option (Descriptor file)) → Fd → List (Option (Descriptor file))
  | [], 0 => [content]
  | [], fd + 1 => none :: place content [] fd
  | _ :: rest, 0 => content :: rest
  | slot :: rest, fd + 1 => slot :: place content rest fd

/-- The table with a descriptor behind the number, whatever was there. -/
def set (table : Descriptors file) (fd : Fd) (descriptor : Descriptor file) : Descriptors file :=
  ⟨place (some descriptor) table.slots fd⟩

def close (table : Descriptors file) (fd : Fd) : Descriptors file :=
  ⟨place none table.slots fd⟩

def lowestFree (table : Descriptors file) (least : Fd) : Fd :=
  least + (table.slots.drop least).findIdx Option.isNone

def add (table : Descriptors file) (descriptor : Descriptor file) : Fd × Descriptors file :=
  (table.lowestFree 0, table.set (table.lowestFree 0) descriptor)

/-- Copies a descriptor to the lowest free number that is not below `least`; the copy is closed
when a program is executed. -/
def duplicateAbove (table : Descriptors file) (fd least : Fd) : Option (Fd × Descriptors file) :=
  (table.lookup fd).map fun source =>
    (table.lowestFree least, table.set (table.lowestFree least) ⟨source.file, true⟩)

/-- Copies a descriptor onto a number; the copy stays open when a program is executed. -/
def duplicateOnto (table : Descriptors file) (fd target : Fd) : Option (Descriptors file) :=
  (table.lookup fd).map fun source =>
    if fd = target then table else table.set target ⟨source.file, false⟩

/-- Keeps a descriptor open when a program is executed. -/
def keepOnExecute (table : Descriptors file) (fd : Fd) : Option (Descriptors file) :=
  (table.lookup fd).map fun source => table.set fd ⟨source.file, false⟩

def afterExecute (table : Descriptors file) : Descriptors file :=
  ⟨table.slots.map (Option.filter fun descriptor => !descriptor.closeOnExecute)⟩

def files (table : Descriptors file) : List file :=
  table.slots.filterMap (Option.map Descriptor.file)

theorem lookup_place (content : Option (Descriptor file)) (slots : List (Option (Descriptor file)))
    (fd other : Fd) :
    ((place content slots fd)[other]?).join
      = if other = fd then content else (slots[other]?).join := by
  induction slots, fd using place.induct generalizing other with
  | case1 => cases other <;> simp [place]
  | case2 fd ih =>
      cases other with
      | zero => simp [place]
      | succ other => simp only [place, List.getElem?_cons_succ, ih, Nat.succ.injEq]; simp
  | case3 slot rest => cases other <;> simp [place]
  | case4 slot rest fd ih =>
      cases other with
      | zero => simp [place]
      | succ other => simp only [place, List.getElem?_cons_succ, ih, Nat.succ.injEq]

theorem lookup_set (table : Descriptors file) (fd other : Fd) (descriptor : Descriptor file) :
    (table.set fd descriptor).lookup other
      = if other = fd then some descriptor else table.lookup other :=
  lookup_place _ _ _ _

theorem lookup_close (table : Descriptors file) (fd other : Fd) :
    (table.close fd).lookup other = if other = fd then none else table.lookup other :=
  lookup_place _ _ _ _

end Descriptors

end PipelineShell
