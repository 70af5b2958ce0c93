import PipelineShell.System.Errno
import PipelineShell.System.Process
import PipelineShell.System.Descriptors
import PipelineShell.Text.Octets
import PipelineShell.Tool.Kind

/-!
A tree of files and how paths are walked in it. A link is followed wherever it stands in a path,
up to a number of links in one walk; a name that ends in a slash must be a directory. A directory
that has been removed stays walkable for those who stand in it, but holds nothing and takes
nothing. Some nodes are not stored: the host gives an account of itself there, and nothing can be
made or taken away.
-/

namespace PipelineShell.Host

/-- A file without content of its own. -/
inductive Device where
  | null
  | full
  | zero
  | random
  | terminal
deriving DecidableEq, Repr

/-- Which node of a tree is meant. -/
inductive NodeId where
  | stored (number : Nat)
  | account (names : List Octets)
deriving DecidableEq, Repr

def NodeId.isAccount : NodeId → Bool
  | .stored _ => false
  | .account _ => true

/-- A node of the tree. -/
inductive Node where
  | directory (parent : NodeId) (entries : List (Octets × NodeId))
  | regular (content : ByteArray) (executable : Bool)
  | link (target : Octets)
  | portal (node : NodeId)
  | fifo (channel : Nat) (executable : Bool)
  | device (device : Device)
  | descriptor (owner : Pid) (fd : Fd)
  | tool (tool : Tool)

/-- A tree of files. The first stored node is its root. -/
structure Tree where
  nodes : Array Node
  account : List Octets → Option Node

namespace Tree

def root : NodeId := .stored 0

def empty : Tree :=
  ⟨#[.directory root []], fun _ => none⟩

def node? (tree : Tree) : NodeId → Option Node
  | .stored number => tree.nodes[number]?
  | .account names => tree.account names

def put (tree : Tree) (id : NodeId) (node : Node) : Tree :=
  match id with
  | .stored number => { tree with nodes := tree.nodes.setIfInBounds number node }
  | .account _ => tree

def allocate (tree : Tree) (node : Node) : NodeId × Tree :=
  (.stored tree.nodes.size, { tree with nodes := tree.nodes.push node })

def entries (tree : Tree) (id : NodeId) : List (Octets × NodeId) :=
  match tree.node? id with
  | some (.directory _ entries) => entries
  | _ => []

def entry? (tree : Tree) (directory : NodeId) (name : Octets) : Option NodeId :=
  (tree.entries directory).lookup name

def parent (tree : Tree) (id : NodeId) : NodeId :=
  match tree.node? id with
  | some (.directory parent _) => parent
  | _ => root

def attach (tree : Tree) (directory : NodeId) (name : Octets) (id : NodeId) : Tree :=
  match tree.node? directory with
  | some (.directory parent entries) =>
      tree.put directory (.directory parent (entries ++ [(name, id)]))
  | _ => tree

def detach (tree : Tree) (directory : NodeId) (name : Octets) : Tree :=
  match tree.node? directory with
  | some (.directory parent entries) =>
      tree.put directory (.directory parent (entries.filter fun entry => entry.1 != name))
  | _ => tree

def add (tree : Tree) (directory : NodeId) (name : Octets) (node : Node) : NodeId × Tree :=
  let (id, tree) := tree.allocate node
  (id, tree.attach directory name id)

def nameOf? (tree : Tree) (id : NodeId) : Option Octets :=
  ((tree.entries (tree.parent id)).find? fun entry => entry.2 == id).map Prod.fst

def isAttached (tree : Tree) (id : NodeId) : Bool :=
  id == root || (tree.nameOf? id).isSome

def namesTo (tree : Tree) (below : List Octets) : Nat → NodeId → Option (List Octets)
  | 0, _ => none
  | steps + 1, id =>
      if id = root then some below
      else match tree.nameOf? id with
        | none => none
        | some name => tree.namesTo (name :: below) steps (tree.parent id)

def names? (tree : Tree) (id : NodeId) : Option (List Octets) :=
  tree.namesTo [] (tree.nodes.size + 1) id

/-! ### Paths -/

def nameLimit : Nat := 255

def pathLimit : Nat := 4096

def linkLimit : Nat := 40

def nonemptyNames (path : Octets) : List Octets :=
  let keep := fun (name : Octets) (names : List Octets) =>
    if name.isEmpty then names else name :: names
  let (first, rest) := path.foldr (fun character (name, names) =>
    if character = '/' then ([], keep name names) else (character :: name, names)) ([], [])
  keep first rest

def here : Octets := ['.']

def above : Octets := ['.', '.']

def endsInSlash (path : Octets) : Bool :=
  path.getLast? == some '/'

/-- The steps of a path; a slash at the end is a step that stays where it is. -/
def steps (path : Octets) : List Octets :=
  nonemptyNames path ++ if endsInSlash path then [here] else []

def start (base : NodeId) (path : Octets) : NodeId :=
  if path.head? == some '/' then root else base

def pathFault (path : Octets) : Option Errno :=
  if path.isEmpty then some .noEntry
  else if pathLimit ≤ path.length then some .nameTooLong
  else none

def refusal : NodeId → Option Errno
  | .stored _ => none
  | .account (name :: _) => if name = "proc".toList then some .noEntry else some .accessDenied
  | .account [] => some .accessDenied

/-- Whether something can be made in a directory: it still stands in the tree, and the host does
not refuse. -/
def takeName (tree : Tree) (directory : NodeId) : Except Errno Unit :=
  match refusal directory with
  | some errno => .error errno
  | none => if tree.isAttached directory then .ok () else .error .noEntry

def walk (tree : Tree) (links : Nat) (current : NodeId) (remaining : List Octets) :
    Except Errno NodeId :=
  match remaining with
  | [] => .ok current
  | name :: rest =>
      match tree.node? current with
      | some (.directory parent entries) =>
          if name = here then tree.walk links current rest
          else if name = above then tree.walk links parent rest
          else if nameLimit < name.length then .error .nameTooLong
          else match entries.lookup name with
            | none => .error .noEntry
            | some id =>
                match tree.node? id with
                | some (.link target) =>
                    match _ : links with
                    | 0 => .error .tooManyLinks
                    | left + 1 => tree.walk left (start current target) (steps target ++ rest)
                | some (.portal node) =>
                    match _ : links with
                    | 0 => .error .tooManyLinks
                    | left + 1 => tree.walk left node rest
                | _ => tree.walk links id rest
      | _ => .error .notDirectory
termination_by (links, remaining.length)

def resolve (tree : Tree) (base : NodeId) (path : Octets) : Except Errno NodeId :=
  match pathFault path with
  | some errno => .error errno
  | none => tree.walk linkLimit (start base path) (steps path)

/-- The node that a path names; a link at the end stands for itself. -/
def resolveEntry (tree : Tree) (base : NodeId) (path : Octets) : Except Errno NodeId :=
  match (nonemptyNames path).getLast? with
  | none => tree.resolve base path
  | some last =>
      if endsInSlash path || last = here || last = above then tree.resolve base path
      else match pathFault path with
        | some errno => .error errno
        | none => do
            let directory ← tree.walk linkLimit (start base path) (nonemptyNames path).dropLast
            match tree.node? directory with
            | some (.directory _ entries) =>
                if nameLimit < last.length then .error .nameTooLong
                else match entries.lookup last with
                  | none => .error .noEntry
                  | some id => .ok id
            | _ => .error .notDirectory

/-- Where something that is written to stands, or is to be made. -/
inductive Place where
  | existing (id : NodeId)
  | fresh (directory : NodeId) (name : Octets)

/-- Walks names from a node to the place of the last one, which need not exist and is no directory;
`inDirectory` tells that a slash follows it. A link at the end leads to where it points, also if
nothing stands there. -/
def walkToPlace (tree : Tree) (links : Nat) (current : NodeId) (inDirectory : Bool)
    (remaining : List Octets) : Except Errno Place :=
  match remaining with
  | [] => .error .isDirectory
  | name :: rest =>
      match tree.node? current with
      | some (.directory parent entries) =>
          let isLast := rest.isEmpty
          if isLast && (inDirectory || name = here || name = above) then .error .isDirectory
          else if name = here then tree.walkToPlace links current inDirectory rest
          else if name = above then tree.walkToPlace links parent inDirectory rest
          else if nameLimit < name.length then .error .nameTooLong
          else match entries.lookup name with
            | none =>
                if isLast then (tree.takeName current).map fun _ => .fresh current name
                else .error .noEntry
            | some id =>
                match tree.node? id with
                | some (.link target) =>
                    match _ : links with
                    | 0 => .error .tooManyLinks
                    | left + 1 =>
                        tree.walkToPlace left (start current target)
                          (if isLast then endsInSlash target else inDirectory)
                          (nonemptyNames target ++ rest)
                | some (.portal node) =>
                    match _ : links with
                    | 0 => .error .tooManyLinks
                    | left + 1 =>
                        if isLast then
                          match tree.node? node with
                          | some (.directory _ _) => .error .isDirectory
                          | _ => .ok (.existing node)
                        else tree.walkToPlace left node inDirectory rest
                | some (.directory _ _) =>
                    if isLast then .error .isDirectory
                    else tree.walkToPlace links id inDirectory rest
                | _ =>
                    if isLast then .ok (.existing id)
                    else tree.walkToPlace links id inDirectory rest
      | _ => .error .notDirectory
termination_by (links, remaining.length)

def place (tree : Tree) (base : NodeId) (path : Octets) : Except Errno Place :=
  match pathFault path with
  | some errno => .error errno
  | none =>
      tree.walkToPlace linkLimit (start base path) (endsInSlash path) (nonemptyNames path)

/-- The directory that a new name would stand in, and the name; a link at the end is a name that
is taken. -/
def freshName (tree : Tree) (base : NodeId) (path : Octets) : Except Errno (NodeId × Octets) :=
  match pathFault path with
  | some errno => .error errno
  | none => do
      let names := nonemptyNames path
      match names.getLast? with
      | none => .error .fileExists
      | some last =>
          let directory ← tree.walk linkLimit (start base path) names.dropLast
          match tree.node? directory with
          | some (.directory _ entries) =>
              if last = here || last = above || (entries.lookup last).isSome then .error .fileExists
              else if nameLimit < last.length then .error .nameTooLong
              else if endsInSlash path then .error .noEntry
              else (tree.takeName directory).map fun _ => (directory, last)
          | _ => .error .notDirectory

/-- The directory that holds an empty directory which may be taken away, and the name it has
there. `mounted` tells which directories hold the files of another store. -/
def removable (tree : Tree) (mounted : NodeId → Bool) (base : NodeId) (path : Octets) :
    Except Errno (NodeId × Octets) :=
  match pathFault path with
  | some errno => .error errno
  | none => do
      let names := nonemptyNames path
      match names.getLast? with
      | none => .error .busy
      | some last =>
          let directory ← tree.walk linkLimit (start base path) names.dropLast
          match tree.node? directory with
          | some (.directory _ entries) =>
              if last = here then .error .invalidArgument
              else if last = above then .error .notEmpty
              else if nameLimit < last.length then .error .nameTooLong
              else match entries.lookup last with
                | none => .error .noEntry
                | some id =>
                    match tree.node? id with
                    | some (.directory _ below) =>
                        if refusal directory |>.isSome then .error .notPermitted
                        else if mounted id then .error .busy
                        else if below.isEmpty then .ok (directory, last)
                        else .error .notEmpty
                    | _ => .error .notDirectory
          | _ => .error .notDirectory

/-! ### Building a tree -/

/-- The directory of the names below a directory, made where it is missing. Links are followed,
`links` of them at most; nothing is made behind what is no directory. -/
def makeDirectories (tree : Tree) (links : Nat) (base : NodeId) (remaining : List Octets) :
    NodeId × Tree :=
  match remaining with
  | [] => (base, tree)
  | name :: rest =>
      if name = here then tree.makeDirectories links base rest
      else if name = above then tree.makeDirectories links (tree.parent base) rest
      else match tree.entry? base name with
        | none =>
            let (id, tree) := tree.add base name (.directory base [])
            tree.makeDirectories links id rest
        | some id =>
            match tree.node? id with
            | some (.link target) =>
                match _ : links with
                | 0 => (base, tree)
                | left + 1 =>
                    tree.makeDirectories left (start base target) (nonemptyNames target ++ rest)
            | _ => tree.makeDirectories links id rest
termination_by (links, remaining.length)

/-- Puts a node at the end of the names below a directory. A directory that is there already
stays. -/
def plant (tree : Tree) (base : NodeId) (names : List Octets) (node : Node) : Tree :=
  match names.getLast? with
  | none => tree
  | some last =>
      let (directory, tree) := tree.makeDirectories linkLimit base names.dropLast
      match node with
      | .directory _ _ => (tree.makeDirectories linkLimit directory [last]).2
      | node => ((tree.detach directory last).add directory last node).2

end Tree

end PipelineShell.Host
