import SymbolAtlas.Shell.Arithmetic
import SymbolAtlas.Shell.Field
import SymbolAtlas.Shell.Run.Text

namespace SymbolAtlas.Shell

open Files Activity

/-- The character between parameters that are put together and taken apart again. -/
def zero : Char :=
  '\x00'

/-- A value in a word. Several values in quotes have zero characters between them. -/
def valueSegment (several quoted : Bool) (value : List Char) : Segment :=
  if !quoted then .loose value
  else if several then .several ((value.splitOn zero).map String.ofList)
  else .plain true value

variable (run : List Statement → Activity Unit)

mutual

/-- The segments of a piece. Outside of commands and lists words are not split. -/
def segmentsOf : Nat → Bool → Piece → Activity (List Segment)
  | 0, _, _ => throw .endless
  | fuel + 1, splits, piece => do
    match piece with
    | .text quoted s => return [.plain quoted s]
    | .output quoted body =>
      let text ← takenText run fuel body
      return [valueSegment false quoted text]
    | .sum quoted expression =>
      let n ← sumValue fuel expression
      return [valueSegment false quoted (toString n).toList]
    | .home => return [.plain true ((← valueOf? "HOME").getD "~").toList]
    | .bad => abort "Bad substitution"
    | .parameter quoted name use =>
      let isSeveral := name = "@" || name = "*"
      let isApart := isSeveral && splits && !(quoted && name = "*")
      let parameters := (← get).parameters
      let isLoose := !quoted && (← valueOf? "IFS").isNone
      let between ← if isApart && !isLoose then pure (String.ofList [zero]) else joint
      let value ← if isSeveral then pure (some (between.intercalate parameters))
        else parameter? name
      let isGiven (orEmpty : Bool) : Bool := value.any fun v => !(orEmpty && v.isEmpty)
      let shown (s : String) : List Segment :=
        [valueSegment (isApart && !parameters.isEmpty) quoted s.toList]
      let needed : Activity Unit := do
        if value.isNone && (← get).settings.has .needsValues then
          abort (name ++ ": parameter not set")
      let own : Activity (List Segment) := do
        needed
        return if isApart && quoted && parameters.isEmpty then [] else shown (value.getD "")
      let word (w : Word) : Activity (List Segment) := do
        let segments ← wordSegments fuel splits w
        if quoted then return if segments.isEmpty then [.plain true []] else segments
        return segments.map Segment.loosened
      match use with
      | .value => own
      | .length =>
        needed
        let joined := (← joint).intercalate parameters
        return shown (toString (if isSeveral then joined else value.getD "").length)
      | .orElse orEmpty w => if isGiven orEmpty then own else word w
      | .ifPresent orEmpty w =>
        if isGiven orEmpty then word w else return (if quoted then [.plain true []] else [])
      | .orAssign orEmpty w =>
        if isGiven orEmpty then own
        else
          let text ← wordText fuel w
          if !isName name.toList then abort (name ++ ": bad variable name")
          assign name text
          return shown text
      | .orFail orEmpty w =>
        if isGiven orEmpty then own
        else
          let text ← wordText fuel w
          let usual := if orEmpty then "parameter not set or null" else "parameter not set"
          abort (name ++ ": " ++ (if w.isEmpty then usual else text))
      | .without atEnd longest pattern =>
        needed
        match value with
        | none => return shown ""
        | some value =>
          let p := Segment.patternOf (← wordSegments fuel false pattern)
          let cut := if isApart && quoted then p.cutQuoted else p.cut
          return shown (String.ofList (cut atEnd longest value.toList))

def wordSegments : Nat → Bool → Word → Activity (List Segment)
  | 0, _, _ => throw .endless
  | _, _, [] => return []
  | fuel + 1, splits, piece :: rest => do
    let first ← segmentsOf fuel splits piece
    return first ++ (← wordSegments fuel splits rest)

def sumValue : Nat → Word → Activity Int
  | 0, _ => throw .endless
  | fuel + 1, expression => do
    let text ← wordText fuel expression
    let bindings := (← get).bindings
    let values (name : String) : String := ((bindings.lookup name).bind (·.value)).getD ""
    match Arithmetic.evaluate values text.toList with
    | .ok (n, assigned) =>
      for (name, value) in assigned do assign name (toString value)
      return n
    | .error .noQuotient => throw (.killed 8)
    | .error fault => abort (fault.message text)

/-- The value of a word that is not split. -/
def wordText : Nat → Word → Activity String
  | 0, _ => throw .endless
  | fuel + 1, word => do return Segment.textOf (← wordSegments fuel false word)

end

def wordTexts (fuel : Nat) : List Word → Activity (List String)
  | [] => return []
  | word :: rest => do
    let segments ← wordSegments run fuel true word
    let s ← get
    let texts := (splitFields (← separators) segments).flatMap
      (fieldTexts s.files (s.settings.has .noWildcards))
    return texts ++ (← wordTexts fuel rest)

/-- Sets variables one after another and gives what has been set. -/
def assignAll (fuel : Nat) : List (String × Word) → Activity (List String)
  | [] => return []
  | (name, word) :: rest => do
    let value ← wordText run fuel word
    assign name value
    return (name ++ "=" ++ value) :: (← assignAll fuel rest)

/-- The arguments of a command that sets variables: what has the form of an assignment is one
argument. -/
def assignmentTexts (fuel : Nat) : List Word → Activity (List String)
  | [] => return []
  | word :: rest => do
    let texts ← match assignment? word with
      | some (name, value) => do pure [name ++ "=" ++ (← wordText run fuel value)]
      | none => wordTexts run fuel [word]
    return texts ++ (← assignmentTexts fuel rest)

def commandTexts (fuel : Nat) : List Word → Activity (List String)
  | [] => return []
  | word :: rest => do
    let first ← wordTexts run fuel [word]
    match first with
    | [] => commandTexts fuel rest
    | name :: _ =>
      if ["export", "readonly", "local"].contains name then
        return first ++ (← assignmentTexts run fuel rest)
      return first ++ (← wordTexts run fuel rest)

def matchesAny (fuel : Nat) (text : List Char) : List Word → Activity Bool
  | [] => return false
  | word :: rest => do
    let p := Segment.patternOf (← wordSegments run fuel false word)
    if p.matchesAll text then return true
    matchesAny fuel text rest

end SymbolAtlas.Shell
