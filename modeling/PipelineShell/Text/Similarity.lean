/-!
How alike two short texts are, between zero and one. Characters match if they are equal and stand
not much further apart than half the longer text; the measure averages the share of either text
that matches and the share of the matches that stand in the same order.
-/

namespace PipelineShell.Similarity

def reach (first second : List Char) : Nat :=
  max first.length second.length / 2 - 1

def partner? (character : Char) (least bound index : Nat) : List (Char × Bool) → Option Nat
  | [] => none
  | (other, taken) :: rest =>
      if bound ≤ index then none
      else if least ≤ index && other == character && !taken then some index
      else partner? character least bound (index + 1) rest

/-- Matches the characters from `index` on with free partners: which of them match, and the
partners with those that are taken marked. -/
def pairUp (distance index : Nat) (partners : List (Char × Bool)) :
    List Char → List Char × List (Char × Bool)
  | [] => ([], partners)
  | character :: rest =>
      match partner? character (index - distance) (index + distance + 1) 0 partners with
      | none => pairUp distance (index + 1) partners rest
      | some place =>
          let (matched, partners) := pairUp distance (index + 1)
            (partners.modify place fun partner => (partner.1, true)) rest
          (character :: matched, partners)

def ofTexts (first second : String) : Float :=
  let first := first.toList
  let second := second.toList
  if first.isEmpty && second.isEmpty then 1.0
  else
    let (matched, partners) := pairUp (reach first second) 0 (second.map fun c => (c, false)) first
    let taken := (partners.filter Prod.snd).map Prod.fst
    let displaced := ((matched.zip taken).filter fun pair => pair.1 != pair.2).length / 2
    let count := matched.length
    if count = 0 then 0.0
    else (count.toFloat / first.length.toFloat + count.toFloat / second.length.toFloat
      + (count - displaced).toFloat / count.toFloat) / 3.0

def threshold : Float := 0.7

/-- The candidate most like a text, if one is like enough; the last one of several equals. -/
def closest? {α : Type} (text : String) (name : α → String) (candidates : List α) : Option α :=
  (candidates.foldl (fun best candidate =>
    let similarity := ofTexts text (name candidate)
    if similarity > threshold then
      match best with
      | some (highest, _) => if highest > similarity then best else some (similarity, candidate)
      | none => some (similarity, candidate)
    else best) none).map fun (best : Float × α) => best.2

end PipelineShell.Similarity
