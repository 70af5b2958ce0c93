import PipelineShell.Tool.Outlet
import PipelineShell.Tool.Quoting

/-!
Arguments of options that are one of a few names. A name may be cut short as long as it is clear
what is meant; several names may mean the same.
-/

namespace PipelineShell.Tool

def nameLines {α : Type} [DecidableEq α] (names : List (String × α)) : Octets :=
  (names.foldl (fun (shown, last) (name, meaning) =>
    let front := if last = some meaning then ", ".toList else "\n  - ".toList
    (shown ++ front ++ quotedText name.toList, some meaning))
    ("Valid arguments are:".toList, (none : Option α))).1

def chooseName {α : Type} [DecidableEq α] (option : String) (names : List (String × α))
    (name : Octets) : Work α := do
  let found := match names.find? fun known => known.1.toList == name with
    | some known => [known]
    | none => names.filter fun known => name.isPrefixOf known.1.toList
  let refuse := fun (what : String) => do
    complain (what.toList ++ " argument ".toList ++ quotedText name ++ " for ".toList
      ++ quotedText option.toList)
    complainPlainly (nameLines names)
    misuse 1 []
  match found with
  | [] => refuse "invalid"
  | (_, meaning) :: others =>
      if others.all fun other => other.2 = meaning then return meaning else refuse "ambiguous"

end PipelineShell.Tool
