import SymbolAtlas.Shell.Builtin.Options

namespace SymbolAtlas.Shell

open Files Activity

/-! ## Rights of new files -/

/-- The lowest bits of some classes of users among nine bits. -/
def placesOf (who : List Char) : Nat :=
  who.foldl (fun n c => n ||| (if c = 'u' then 0o100 else if c = 'g' then 0o010
    else if c = 'o' then 0o001 else 0o111)) 0

/-- The three bits of some rights, some of which are those that a class of users has. -/
def bitsOfRights (rights : Nat) (letters : List Char) : Nat :=
  letters.foldl (fun n c => n ||| match c with
    | 'r' => 4
    | 'w' => 2
    | 'x' => 1
    | 'X' => if rights &&& 0o111 ≠ 0 then 1 else 0
    | 'u' => rights / 64
    | 'g' => rights / 8
    | 'o' => rights
    | _ => 0) 0 % 8

/-- The rights `new` after the changes that a text writes for the classes in `places`, in at most
`steps` changes. Letters of classes stand for the rights `old` from before all changes. -/
def changedRights (old : Nat) : Nat → Nat → Nat → List Char → Option Nat
  | 0, _, new, _ => some new
  | _, _, new, [] => some new
  | steps + 1, places, new, s =>
    let who := s.takeWhile (['a', 'u', 'g', 'o'].contains ·)
    let places := places ||| placesOf who
    let places := if places = 0 then 0o111 else places
    match s.drop who.length with
    | [] => some new
    | sign :: rest =>
      let letters := rest.takeWhile (['r', 'w', 'x', 'u', 'g', 'o', 'X', 's'].contains ·)
      let bits := bitsOfRights old letters * places
      let next := match sign with
        | '+' => some (new ||| bits)
        | '-' => some (new &&& (0o777 - bits))
        | '=' => some ((new &&& (0o777 - places * 7)) ||| bits)
        | _ => none
      match rest.drop letters.length with
      | ',' :: rest => next.bind fun new => changedRights old steps 0 new rest
      | c :: rest =>
        if ['+', '-', '='].contains c then
          next.bind fun new => changedRights old steps places new (c :: rest)
        else none
      | [] => next

def rightsText (rights : Nat) : String :=
  let part (name : String) (n : Nat) : String :=
    name ++ "=" ++ (if n &&& 4 ≠ 0 then "r" else "") ++ (if n &&& 2 ≠ 0 then "w" else "") ++
      (if n &&& 1 ≠ 0 then "x" else "")
  part "u" (rights / 64 % 8) ++ "," ++ part "g" (rights / 8 % 8) ++ "," ++ part "o" (rights % 8)

def runMask (arguments : List String) : Activity Unit := do
  let (letters, arguments) ← options ['S'] arguments
  let mask := (← get).mask
  match arguments.head? with
  | none =>
    let digits := Nat.toDigits 8 mask
    let octal := String.ofList (List.replicate (4 - digits.length) '0' ++ digits)
    emitText 1 ((if letters.isEmpty then octal else rightsText (0o777 - mask)) ++ "\n")
  | some text =>
    let s := text.toList
    if s.head?.any Char.isDigit then
      if !s.all fun c => '0' ≤ c && c ≤ '7' then abort ("Illegal number: " ++ text)
      let mask := s.foldl (fun n c => n * 8 + (c.toNat - '0'.toNat)) 0
      modify fun s => { s with mask := mask % 0o1000 }
    else
      match changedRights (0o777 - mask) s.length 0 (0o777 - mask) s with
      | some rights => modify fun s => { s with mask := 0o777 - rights }
      | none => abort ("Illegal mode: " ++ text)
  setStatus 0

/-! ## Limits -/

/-- Something that is limited: its letter and name, the size of a unit, and the limits at first, the
one that holds and the one up to which it may be raised. -/
structure Limit where
  letter : Char
  name : String
  unit : Nat
  first : Option Nat := none
  greatest : Option Nat := none

def limitTable : List Limit :=
  [{ letter := 't', name := "time(seconds)", unit := 1 },
    { letter := 'f', name := "file(blocks)", unit := 512 },
    { letter := 'd', name := "data(kbytes)", unit := 1024 },
    { letter := 's', name := "stack(kbytes)", unit := 1024, first := some 8388608 },
    { letter := 'c', name := "coredump(blocks)", unit := 512, first := some 0 },
    { letter := 'm', name := "memory(kbytes)", unit := 1024 },
    { letter := 'l', name := "locked memory(kbytes)", unit := 1024, first := some 8388608,
      greatest := some 8388608 },
    { letter := 'p', name := "process", unit := 1 },
    { letter := 'n', name := "nofiles", unit := 1, first := some 1048576, greatest := some 1048576 },
    { letter := 'v', name := "vmemory(kbytes)", unit := 1024 },
    { letter := 'w', name := "locks", unit := 1 },
    { letter := 'r', name := "rtprio", unit := 1, first := some 0, greatest := some 0 }]

/-- Whether a limit is above another one. None is above all. -/
def isAbove : Option Nat → Option Nat → Bool
  | _, none => false
  | none, some _ => true
  | some a, some b => b < a

/-- The limit that holds and the one up to which it may be raised. -/
def currentLimits (limit : Limit) : Activity (Option Nat × Option Nat) := do
  let s ← get
  let known (key : Char) (first : Option Nat) : Option Nat := (s.limits.lookup key).getD first
  return (known limit.letter limit.first, known limit.letter.toUpper limit.greatest)

def limitText (limit : Limit) (value : Option Nat) : String :=
  value.elim "unlimited" fun n => toString (n / limit.unit)

def setLimit (limit : Limit) (soft hard : Bool) (text : String) : Activity Unit := do
  let digits := text.toList
  let value ← if text = "unlimited" then pure none
    else if digits.all Char.isDigit then
      pure (some ((digits.foldl (fun n c => n * 10 + (c.toNat - '0'.toNat)) 0) * limit.unit))
    else abort "bad number"
  let (oldSoft, oldHard) ← currentLimits limit
  let newSoft := if soft then value else oldSoft
  let newHard := if hard then value else oldHard
  if isAbove newSoft newHard then abort "error setting limit (Invalid argument)"
  if isAbove newHard oldHard then abort "error setting limit (Operation not permitted)"
  modify fun s => { s with
    limits := (limit.letter, newSoft) :: (limit.letter.toUpper, newHard) ::
      s.limits.filter fun (key, _) => key != limit.letter && key != limit.letter.toUpper }

def runLimit (arguments : List String) : Activity Unit := do
  let (letters, arguments) ← options (['H', 'S', 'a'] ++ limitTable.map (·.letter)) arguments
  let ways := letters.filter fun c => c == 'H' || c == 'S'
  let way := ways.getLast?
  let what := ((letters.filter fun c => (limitTable.any (·.letter == c))).getLast?).getD 'f'
  let limit := (limitTable.find? (·.letter == what)).getD (limitTable.headD ⟨'t', "", 1, none, none⟩)
  let all := letters.contains 'a'
  let shown (limit : Limit) : Activity String := do
    let (soft, hard) ← currentLimits limit
    return limitText limit (if way = some 'H' then hard else soft) ++ "\n"
  match arguments with
  | text :: rest =>
    if all || !rest.isEmpty then abort "too many arguments"
    setLimit limit (way ≠ some 'H') (way ≠ some 'S') text
  | [] =>
    if all then
      for limit in limitTable do
        let blanks := String.ofList (List.replicate (20 - limit.name.length) ' ')
        emitText 1 (limit.name ++ blanks ++ " " ++ (← shown limit))
    else emitText 1 (← shown limit)
  setStatus 0

/-- The time that a script has used is too short to be told. -/
def runTimes : Activity Unit := do
  let line := "0m0.000000s 0m0.000000s\n"
  emitText 1 (line ++ line)
  setStatus 0

end SymbolAtlas.Shell
