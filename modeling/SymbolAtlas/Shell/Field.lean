import SymbolAtlas.Shell.Pattern
import SymbolAtlas.Shell.State

namespace SymbolAtlas.Shell

inductive Segment
  | plain (quoted : Bool) (s : List Char)
  /-- A value that is split. A zero character in it stands between two values. -/
  | loose (s : List Char)
  /-- Quoted values, each in a field of its own. -/
  | several (values : List String)

namespace Segment

/-- The characters of a segment, each with whether it is quoted. -/
def chars : Segment → Pattern
  | plain quoted s => s.map (quoted, ·)
  | loose s => s.map (false, ·)
  | several values => (" ".intercalate values).toList.map (true, ·)

/-- A segment that is split unless it is quoted. -/
def loosened : Segment → Segment
  | plain false s => loose s
  | segment => segment

def patternOf (segments : List Segment) : Pattern :=
  Pattern.unescaped (segments.flatMap chars)

def textOf (segments : List Segment) : String :=
  String.ofList ((segments.flatMap chars).map (·.2))

end Segment

/-- The fields that are complete, and the one that is being put together. -/
structure Splitting where
  fields : List Pattern := []
  current : Option Pattern := none
  /-- Whether the last field has ended with blanks of the value, so that one separator more may
  follow. -/
  endedBlank : Bool := false
  /-- Whether each separator ends a field, as it does in what is split next after several values. -/
  strict : Bool := false

namespace Splitting

def add (s : Splitting) (p : Pattern) : Splitting :=
  { s with current := some (s.current.getD [] ++ p), endedBlank := false }

def cut (s : Splitting) (endedBlank : Bool) : Splitting :=
  { s with fields := s.fields ++ [s.current.getD []], current := none, endedBlank }

/-- Adds a character of a value that is split. Blanks around another separator count with it. -/
def addLoose (separators : String) (s : Splitting) (c : Char) : Splitting :=
  let isBlank := c = '\x00' || isBlankSeparator separators c
  if !(isBlank || isSeparator separators c) then s.add [(false, c)]
  else if s.strict then s.cut false
  else if isBlank then if s.current.isSome then s.cut true else s
  else if s.endedBlank then { s with endedBlank := false }
  else s.cut false

def addSegment (separators : String) (s : Splitting) : Segment → Splitting
  | .plain quoted text => if quoted || !text.isEmpty then s.add (text.map (quoted, ·)) else s
  | .loose text =>
    { text.foldl (addLoose separators) { s with endedBlank := false } with strict := false }
  | .several [] => s
  | .several (first :: rest) =>
    let addValue (s : Splitting) (value : String) : Splitting :=
      if value.isEmpty then s else s.add (value.toList.map (true, ·))
    { rest.foldl (fun s value => addValue (s.cut false) value) (addValue s first) with
      strict := true }

end Splitting

/-- The fields of a word. The last one of several values is a field even if it is empty, unless a value
that is split comes after it. -/
def splitFields (separators : String) (segments : List Segment) : List Pattern :=
  let s := segments.foldl (Splitting.addSegment separators) {}
  s.fields ++ if s.strict then [s.current.getD []] else s.current.toList

/-! ## Wildcards -/

open Files

/-- The parts of a pattern between slashes, empty ones included. -/
def patternSteps (p : Pattern) : List Pattern :=
  p.foldr (fun c steps =>
    if c.2 = '/' then [] :: steps
    else match steps with
      | step :: rest => (c :: step) :: rest
      | [] => [[c]]) [[]]

/-- Where one step leads from a directory, if something is there. -/
def stepInto? (t : Tree) (place : Place) (name : String) : Option (Place × Entry) :=
  let inner :=
    if name.isEmpty || name = "." then place
    else if name = ".." then place.dropLast
    else place ++ [toText name]
  (t.get? inner).map (inner, ·)

/-- The paths below `place` that the steps match, after the text of the steps before them. -/
def matchSteps (t : Tree) (place : Place) (text : String) : List Pattern → List String
  | [] => []
  | step :: rest =>
    let go (name : String) : List String :=
      match stepInto? t place name, rest with
      | none, _ => []
      | some _, [] => [text ++ name]
      | some (inner, .directory), _ :: _ => matchSteps t inner (text ++ name ++ "/") rest
      | some (_, .file _), _ :: _ => []
    if step.hasWildcard then
      let dotted := step.head?.any (·.2 == '.')
      let names := if dotted then ["."] ++ [".."] ++ t.children place else t.children place
      ((names.map ofText).mergeSort (fun a b => a ≤ b)).flatMap fun name =>
        if (dotted || !name.startsWith ".") && step.matchesAll name.toList then go name else []
    else go (String.ofList (step.map (·.2)))

/-- The texts that a field stands for: the files it matches if it has wildcards and matches some,
else its own text. -/
def fieldTexts (t : Tree) (noWildcards : Bool) (field : Pattern) : List String :=
  let own := String.ofList (field.map (·.2))
  let p := field.unescaped
  if noWildcards || !p.hasWildcard then [own]
  else
    let found := match patternSteps p with
      | [] :: next :: rest => matchSteps t [] "/" (next :: rest)
      | steps => matchSteps t t.workingDir "" steps
    if found.isEmpty then [own] else found

end SymbolAtlas.Shell
