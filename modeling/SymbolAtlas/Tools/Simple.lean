import SymbolAtlas.Shell.Condition
import SymbolAtlas.Tools.Copy
import SymbolAtlas.Tools.Listing
import SymbolAtlas.Tools.Print
import SymbolAtlas.Tools.Tool

namespace SymbolAtlas.Tool

open Files

/-- What the programs `test` and `[` do. -/
def runTest (s : Setup) (bracket : Bool) (arguments : List String) : Work :=
  if bracket && arguments.getLast? ≠ some "]" then Work.complain {} s "missing ']'" 2
  else
    let view : Shell.Condition.View := { files := s.files, streams := s.kinds }
    match Shell.Condition.holds view (if bracket then arguments.dropLast else arguments) with
    | .ok holds => { status := if holds then 0 else 1 }
    | .error text => Work.complain {} s text 2

/-- The length of the pause that an argument writes, in millionths of a second. -/
def pauseOf? (argument : String) : Option Nat := do
  let s := argument.toList.dropWhile Shell.isSpace
  let (negative, digits) := match s with
    | '-' :: rest => (true, rest)
    | '+' :: rest => (false, rest)
    | _ => (false, s)
  let ((magnitude, _), rest) ← Shell.magnitudeAt? digits
  let seconds ← [([], 1), (['s'], 1), (['m'], 60), (['h'], 3600), (['d'], 86400)].lookup rest
  match magnitude with
  | .finite n exponent =>
    if negative && n ≠ 0 then none
    else some (n * seconds * 1000000 * Nat.pow 2 exponent.toNat / Nat.pow 2 (-exponent).toNat)
  | .infinite => if negative then none else some 1000000000000
  | .notNumber => none

/-- The complaint about the first option among arguments, which a program without options has. -/
def optionComplaint? (arguments : List String) : Option String :=
  (arguments.takeWhile (· != "--")).findSome? fun argument =>
    match argument.toList with
    | '-' :: '-' :: _ => some ("unrecognized option '" ++ argument ++ "'")
    | '-' :: letter :: _ => some ("invalid option -- '" ++ String.ofList [letter] ++ "'")
    | _ => none

/-- What the program `sleep` does: it pauses for all lengths together. -/
def runSleep (s : Setup) (arguments : List String) : Work :=
  let before := arguments.takeWhile (· != "--")
  let operands := before ++ (arguments.drop before.length).drop 1
  match optionComplaint? arguments, operands.filter fun a => (pauseOf? a).isNone with
  | some complaint, _ => .refuse s complaint 1
  | none, [] =>
    if operands.isEmpty then .refuse s "missing operand" 1
    else { pause := (operands.filterMap pauseOf?).foldl Nat.add 0 }
  | none, bad =>
    let told := bad.map fun argument => "invalid time interval " ++ quotedName argument
    .refuse s (("\n" ++ s.name ++ ": ").intercalate told) 1

/-- What a program does if it is no shell. -/
def work? (s : Setup) (arguments : List String) : Tool → Option Work
  | yes | other => some {}
  | sleep => some (runSleep s arguments)
  | no => some { status := 1 }
  | echo => some (Work.write {} (echoBytes {} arguments))
  | print => some (runPrint s arguments)
  | test bracket => some (runTest s bracket arguments)
  | cat => some (runCopy s arguments)
  | list => some (runList s arguments)
  | sh => none

end SymbolAtlas.Tool
