import SymbolAtlas.Tools.Work

namespace SymbolAtlas.Tool

open Files

/-- Which names of a directory are listed. -/
inductive Shown
  | plain
  | almostAll
  | all
  deriving DecidableEq

def Shown.names (shown : Shown) (t : Tree) (place : Place) : List String :=
  let names := (t.children place).map Shell.ofText
  match shown with
  | plain => names.filter (!·.startsWith ".")
  | almostAll => names
  | all => "." :: ".." :: names

/-- What an option's letter asks for. -/
def Shown.add? (shown : Shown) : Char → Option Shown
  | 'a' => some all
  | 'A' => some almostAll
  | '1' => some shown
  | _ => none

def splitOptions (arguments : List String) : List Char × List String :=
  let isOption (argument : String) : Bool := argument.startsWith "-" && argument != "-"
  let before := arguments.takeWhile (· != "--")
  let after := (arguments.drop before.length).drop 1
  ((before.filter isOption).flatMap (·.toList.drop 1), before.filter (!isOption ·) ++ after)

def linesOf (names : List String) : String :=
  String.join (names.map (· ++ "\n"))

/-- What the program `ls` does. -/
def runList (s : Setup) (arguments : List String) : Work :=
  let t := s.files
  let (letters, operands) := splitOptions arguments
  let shown := letters.foldl (fun shown c => shown.bind (·.add? c)) (some Shown.plain)
  match shown with
  | none =>
    let letter := (letters.find? fun c => (Shown.plain.add? c).isNone).getD '-'
    .refuse s ("invalid option -- '" ++ String.ofList [letter] ++ "'") 2
  | some shown =>
    let operands := if operands.isEmpty then ["."] else operands
    let look (name : String) : Except Fault (Place × Entry) := do
      let place ← t.place ⟨Shell.toText name⟩
      return (place, ← t.find ⟨Shell.toText name⟩)
    let found := operands.map fun name => (name, look name)
    let w : Work := found.foldl (fun (w : Work) (name, entry) => match entry with
      | .error fault =>
        w.complain s ("cannot access " ++ quotedName name ++ ": " ++ fault.reason) 2
      | .ok _ => w) { lostStatus := 2 }
    let found := found.mergeSort fun a b => a.1 ≤ b.1
    let files := found.filterMap fun (name, entry) => match entry with
      | .ok (_, .file _) => some name
      | _ => none
    let directories := found.filterMap fun (name, entry) => match entry with
      | .ok (place, .directory) => some (name, place)
      | _ => none
    let blocks := directories.map fun (name, place) =>
      (if operands.length = 1 then "" else name ++ ":\n") ++ linesOf (shown.names t place)
    let blocks := if files.isEmpty then blocks else linesOf files :: blocks
    w.writeText ("\n".intercalate blocks)

end SymbolAtlas.Tool
