import PipelineShell.Proofs.System.Descriptors
import PipelineShell.Proofs.System.Monitor
import PipelineShell.System.Call

/-!
Systems that keep the descriptors of one process. What is behind each descriptor can be told: what
the process has brought with it, the ends of each pipe that has been made, and the file that has
been opened. Every child, and every program that is executed, is put down together with the
descriptors at that moment. In one of these systems a new descriptor takes the lowest free number,
and opening, copying and starting children never fail; in the others it takes any free number, and
each of these requests may be refused.
-/

namespace PipelineShell

/-- What is behind a descriptor. Pipes are numbered as they are made. -/
inductive Endpoint (file : Type) where
  | own (file : file)
  | reading (pipe : Nat)
  | writing (pipe : Nat)
  | target

def Descriptors.owned {file : Type} (table : Descriptors file) : Descriptors (Endpoint file) :=
  ⟨table.slots.map (Option.map fun found => ⟨.own found.file, found.closeOnExecute⟩)⟩

theorem Descriptors.lookup_owned {file : Type} (table : Descriptors file) (fd : Fd) :
    table.owned.lookup fd
      = (table.lookup fd).map fun found => ⟨.own found.file, found.closeOnExecute⟩ := by
  rw [lookup, lookup, owned, List.getElem?_map]
  cases table.slots[fd]? with
  | none => rfl
  | some slot => rfl

structure Kernel (file : Type) where
  table : Descriptors (Endpoint file)
  pipes : Nat
  children : List (Child × Descriptors (Endpoint file))
  programs : List (Command × Descriptors (Endpoint file))

namespace Kernel

variable {file : Type}

def start (table : Descriptors (Endpoint file)) : Kernel file :=
  ⟨table, 0, [], []⟩

def change (kernel : Kernel file) (table : Option (Descriptors (Endpoint file))) :
    Except Errno Unit × Kernel file :=
  match table with
  | none => (.error .badDescriptor, kernel)
  | some table => (.ok (), { kernel with table })

/-- The replies of the system, where `pidOf` gives the numbers of the children and `others` the
replies that have to do with neither descriptors nor children. -/
def serve (pidOf : Nat → Pid) (others : (request : System.Call) → request.Reply) :
    World System.interface (Kernel file)
  | .openOutput _ _, kernel =>
      let (fd, table) := kernel.table.add ⟨.target, true⟩
      (.ok fd, { kernel with table })
  | .makePipe, kernel =>
      let (reading, table) := kernel.table.add ⟨.reading kernel.pipes, true⟩
      let (writing, table) := table.add ⟨.writing kernel.pipes, true⟩
      (.ok (reading, writing), { kernel with table, pipes := kernel.pipes + 1 })
  | .duplicateAbove fd least, kernel =>
      match kernel.table.duplicateAbove fd least with
      | none => (.error .badDescriptor, kernel)
      | some (copy, table) => (.ok copy, { kernel with table })
  | .duplicateOnto fd target, kernel => kernel.change (kernel.table.duplicateOnto fd target)
  | .keepOnExecute fd, kernel => kernel.change (kernel.table.keepOnExecute fd)
  | .close fd, kernel => ((), { kernel with table := kernel.table.close fd })
  | .fork child, kernel =>
      (.ok (pidOf kernel.children.length),
        { kernel with children := kernel.children ++ [(child, kernel.table)] })
  | .execute command, kernel =>
      (others (.execute command),
        { kernel with programs := kernel.programs ++ [(command, kernel.table)] })
  | request, kernel => (others request, kernel)

def refuse : (request : System.Call) → request.Reply
  | .openOutput _ _ => .error .notPermitted
  | .makePipe => .error .notPermitted
  | .duplicateAbove _ _ => .error .notPermitted
  | .duplicateOnto _ _ => .error .notPermitted
  | .keepOnExecute _ => .error .notPermitted
  | .close _ => ()
  | .write _ _ => .error .notPermitted
  | .complain _ => ()
  | .read _ _ => .error .notPermitted
  | .fork _ => .error .notPermitted
  | .execute _ => .notPermitted
  | .wait _ => .error ⟨.notPermitted, by decide⟩
  | .poll _ => .error ⟨.notPermitted, by decide⟩
  | .changeDirectory _ => .error .notPermitted
  | .environment _ => none
  | .showPrompt _ => ()

/-! ### Any system -/

def after (kernel : Kernel file) : Event System.interface → Kernel file
  | ⟨.openOutput _ _, .ok fd⟩ => { kernel with table := kernel.table.set fd ⟨.target, true⟩ }
  | ⟨.makePipe, .ok (reading, writing)⟩ =>
      let table := kernel.table.set reading ⟨.reading kernel.pipes, true⟩
      { kernel with
        table := table.set writing ⟨.writing kernel.pipes, true⟩
        pipes := kernel.pipes + 1 }
  | ⟨.duplicateAbove fd _, .ok copy⟩ =>
      (kernel.change ((kernel.table.lookup fd).map fun source =>
        kernel.table.set copy ⟨source.file, true⟩)).2
  | ⟨.duplicateOnto fd target, .ok _⟩ => (kernel.change (kernel.table.duplicateOnto fd target)).2
  | ⟨.keepOnExecute fd, .ok _⟩ => (kernel.change (kernel.table.keepOnExecute fd)).2
  | ⟨.close fd, _⟩ => { kernel with table := kernel.table.close fd }
  | ⟨.fork child, .ok _⟩ => { kernel with children := kernel.children ++ [(child, kernel.table)] }
  | ⟨.execute command, _⟩ =>
      { kernel with programs := kernel.programs ++ [(command, kernel.table)] }
  | _ => kernel

/-- What a system may reply: a new descriptor is behind a number that was free, and what there is
to copy is copied. Only if it may refuse can a request fail that has nothing wrong with it. -/
def Offers (mayRefuse : Prop) (kernel : Kernel file) : Event System.interface → Prop
  | ⟨.openOutput _ _, .ok fd⟩ => kernel.table.lookup fd = none
  | ⟨.openOutput _ _, .error _⟩ => mayRefuse
  | ⟨.makePipe, .ok (reading, writing)⟩ =>
      kernel.table.lookup reading = none ∧
        (kernel.table.set reading ⟨.reading kernel.pipes, true⟩).lookup writing = none
  | ⟨.makePipe, .error _⟩ => mayRefuse
  | ⟨.duplicateAbove _ least, .ok copy⟩ => least ≤ copy ∧ kernel.table.lookup copy = none
  | ⟨.duplicateAbove fd _, .error _⟩ => mayRefuse ∨ kernel.table.lookup fd = none
  | ⟨.duplicateOnto fd _, .error _⟩ => mayRefuse ∨ kernel.table.lookup fd = none
  | ⟨.keepOnExecute fd, .error _⟩ => mayRefuse ∨ kernel.table.lookup fd = none
  | ⟨.fork _, .error _⟩ => mayRefuse
  | _ => True

def watch (file : Type) (mayRefuse : Prop) : Monitor System.interface (Kernel file) where
  after := after
  Allows := Offers mayRefuse
  Demands _ _ := True

/-- The system in which nothing fails is one of them. -/
theorem offers_serve (pidOf : Nat → Pid) (others : (request : System.Call) → request.Reply)
    (request : System.Call) (kernel : Kernel file) :
    kernel.Offers False ⟨request, (serve pidOf others request kernel).1⟩ ∧
      kernel.after ⟨request, (serve pidOf others request kernel).1⟩
        = (serve pidOf others request kernel).2 := by
  cases request with
  | openOutput path append => exact ⟨kernel.table.lookup_lowestFree 0, rfl⟩
  | makePipe =>
      exact ⟨⟨kernel.table.lookup_lowestFree 0, Descriptors.lookup_lowestFree _ 0⟩, rfl⟩
  | duplicateAbove fd least =>
      rw [serve, Descriptors.duplicateAbove]
      cases found : kernel.table.lookup fd with
      | none => exact ⟨Or.inr found, rfl⟩
      | some source =>
          refine ⟨⟨kernel.table.le_lowestFree least, kernel.table.lookup_lowestFree least⟩, ?_⟩
          change (kernel.change ((kernel.table.lookup fd).map _)).2 = _
          rw [found]
          rfl
  | duplicateOnto fd target =>
      rw [serve]
      cases copied : kernel.table.duplicateOnto fd target with
      | none => exact ⟨Or.inr (Option.map_eq_none_iff.mp copied), rfl⟩
      | some table =>
          refine ⟨trivial, ?_⟩
          change (kernel.change (kernel.table.duplicateOnto fd target)).2 = _
          rw [copied]
  | keepOnExecute fd =>
      rw [serve]
      cases kept : kernel.table.keepOnExecute fd with
      | none => exact ⟨Or.inr (Option.map_eq_none_iff.mp kept), rfl⟩
      | some table =>
          refine ⟨trivial, ?_⟩
          change (kernel.change (kernel.table.keepOnExecute fd)).2 = _
          rw [kept]
  | close fd => exact ⟨trivial, rfl⟩
  | fork child => exact ⟨trivial, rfl⟩
  | execute command => exact ⟨trivial, rfl⟩
  | write fd text => exact ⟨trivial, rfl⟩
  | complain text => exact ⟨trivial, rfl⟩
  | read fd size => exact ⟨trivial, rfl⟩
  | wait pid => exact ⟨trivial, rfl⟩
  | poll pid => exact ⟨trivial, rfl⟩
  | changeDirectory path => exact ⟨trivial, rfl⟩
  | environment name => exact ⟨trivial, rfl⟩
  | showPrompt prompt => exact ⟨trivial, rfl⟩

end Kernel

end PipelineShell
