import SymbolAtlas.Shell.Builtin.Options

namespace SymbolAtlas.Shell

open Files Activity

/-! ## Jobs -/

def findJob (text : String) : Activity Job := do
  let jobs := (← get).jobs
  let needed (job : Option Job) (complaint : String) : Activity Job :=
    match job with
    | some job => return job
    | none => abort complaint
  match text.toList with
  | ['%'] | ['%', '+'] | ['%', '%'] => needed jobs.head? "No current job"
  | ['%', '-'] => needed (jobs[1]?) "No previous job"
  | '%' :: rest =>
    let isNumber := !rest.isEmpty && rest.all Char.isDigit
    let number := rest.foldl (fun n c => n * 10 + (c.toNat - '0'.toNat)) 0
    needed (if isNumber then jobs.find? (·.number == number) else none) ("No such job: " ++ text)
  | _ => abort ("No such job: " ++ text)

def changeJob (process : Nat) (f : Job → Job) : Activity Unit :=
  modify fun s =>
    { s with jobs := s.jobs.map fun job => if job.process == process then f job else job }

def Job.state (job : Job) : String :=
  match job.ended with
  | none => "Running"
  | some (_, some signal) => Signal.description signal
  | some (0, none) => "Done"
  | some (status, none) => "Done(" ++ toString status ++ ")"

/-- Tells how a job stands, after which a job that has ended is forgotten. -/
def showJob (withProcess : Bool) (job : Job) : Activity Unit := do
  let jobs := (← get).jobs
  let place := jobs.findIdx? (·.process == job.process)
  let mark := if place = some 0 then "+" else if place = some 1 then "-" else " "
  let front := "[" ++ toString job.number ++ "] " ++ mark ++ " " ++
    (if withProcess then toString job.process ++ " " else "") ++ job.state
  let blanks := String.ofList (List.replicate (max (33 - front.length) 1) ' ')
  emitText 1 (front ++ blanks ++ String.join (List.replicate (job.size - 1) " | ") ++ "\n")
  if job.ended.isSome then
    modify fun s => { s with jobs := s.jobs.filter (·.process != job.process) }

def runJobs (arguments : List String) : Activity Unit := do
  let (letters, names) ← options ['l', 'p'] arguments
  let one (job : Job) : Activity Unit :=
    if letters.getLast? = some 'p' then emitText 1 (toString job.process ++ "\n")
    else showJob (letters.getLast? = some 'l') job
  if names.isEmpty then for job in (← get).jobs do one job
  else for name in names do one (← findJob name)
  setStatus 0

/-- Waits for jobs, all of which have ended by now. What a signal has ended is told by `tell` if
that has not been seen. -/
def runWait (tell : Nat → Activity Unit) (arguments : List String) : Activity Unit := do
  let (_, arguments) ← options [] arguments
  if arguments.isEmpty then
    modify fun s =>
      { s with jobs := s.jobs.map fun (job : Job) => { job with seen := true, awaited := true } }
    setStatus 0
  else
    let mut status := 127
    for text in arguments do
      let job ← if text.startsWith "%" then some <$> findJob text
        else do
          let process ← natOfText text
          pure ((← get).jobs.find? (·.process == process))
      match job with
      | none => status := 127
      | some job =>
        match job.ended with
        | some (ended, signal) =>
          status := ended
          if !job.seen then signal.forM tell
        | none => status := 0
        changeJob job.process fun job => { job with seen := true, awaited := true }
    setStatus status

/-- There is no terminal between whose foreground and background a job could be moved. -/
def runMoveJob (arguments : List String) : Activity Unit := do
  let (_, arguments) ← options [] arguments
  let name := arguments.headD "%"
  let _ ← findJob name
  abort ("job " ++ arguments.headD "(null)" ++ " not created under job control")

/-! ## Sending signals -/

/-- Sends a signal to the script itself. -/
def receiveSignal (signal : Nat) : Activity Unit := do
  let s ← get
  match s.reaction signal with
  | .nothing => pure ()
  | .dies => throw (.killed signal)
  | .acts _ => post s.own signal

/-- Sends a signal to a command that is not waited for. -/
def signalDeferred (signal : Nat) (d : Deferred) : Activity Unit := do
  match d.process.reaction signal with
  | .nothing => pure ()
  | .acts _ => post d.number signal
  | .dies =>
    if d.owner = (← get).own then
      modify fun s => { s with deferred := s.deferred.filter (·.number != d.number) }
      changeJob d.number fun job => { job with ended := some (128 + signal, some signal) }
    else post d.number signal

/-- Sends a signal to a process, and tells whether there is one: the script itself, one that it has
been started by, or a command that is not waited for and whose end has not been seen. -/
def signalProcess (signal process : Nat) : Activity Bool := do
  let s ← get
  if process = s.own then
    receiveSignal signal
    return true
  else if s.ancestors.contains process then
    if signal ≠ 0 then post process signal
    return true
  else match s.deferred.find? (·.number == process) with
    | some d =>
      signalDeferred signal d
      return true
    | none => return s.jobs.any fun job => job.process == process && !job.seen

def sendSignal (signal : Nat) (processes : List String) : Activity Unit := do
  let mut status := 0
  for text in processes do
    let isGroup := text.startsWith "-"
    let process ← if text.startsWith "%" then do let _ ← findJob text; pure none
      else some <$> natOfText (if isGroup then (text.drop 1).toString else text)
    let isThere ← match if isGroup then none else process with
      | some process => signalProcess signal process
      | none => pure false
    if !isThere then
      complain "No such process\n"
      status := 1
  setStatus status

def killUsage : String :=
  "Usage: kill [-s sigspec | -signum | -sigspec] [pid | job]... or\nkill -l [exitstatus]"

structure KillOptions where
  /-- Whether the names of signals are asked for. -/
  lists : Bool := false
  signal : Option Nat := none
  arguments : List String := []

def killOptions (o : KillOptions) : List String → Except String KillOptions
  | [] => .ok { o with arguments := [] }
  | argument :: rest =>
    match argument.toList with
    | ['-', '-'] => .ok { o with arguments := rest }
    | '-' :: letter :: letters => readLetters o rest (letter :: letters)
    | _ => .ok { o with arguments := argument :: rest }
where
  readLetters (o : KillOptions) (rest : List String) : List Char → Except String KillOptions
    | [] => killOptions o rest
    | 'l' :: letters => readLetters { o with lists := true } rest letters
    | 's' :: [] =>
      match rest with
      | [] => .error "No arg for -s option"
      | name :: rest => do killOptions { o with signal := some (← named name) } rest
    | 's' :: letters => do
      killOptions { o with signal := some (← named (String.ofList letters)) } rest
    | letter :: _ => .error ("Illegal option -" ++ String.ofList [letter])
  named (name : String) : Except String Nat :=
    match Signal.sendable? name with
    | some signal => .ok signal
    | none => .error ("invalid signal number or name: " ++ name)

/-- Tells the names of all signals, or of the one that has ended a command. -/
def listSignals : List String → Activity Unit
  | [] => do
    emitText 1 ("0\n" ++ String.join (Signal.names.map (· ++ "\n")))
    setStatus 0
  | text :: _ => do
    let n ← natOfText text
    let signal := if 128 < n then n - 128 else n
    if signal = 0 || Signal.last < signal then
      abort ("invalid signal number or exit status: " ++ text)
    emitText 1 (Signal.name signal ++ "\n")
    setStatus 0

def runKill (arguments : List String) : Activity Unit := do
  let written : Option Nat := match arguments with
    | first :: _ => match first.toList with
      | '-' :: name => Signal.sendable? (String.ofList name)
      | _ => none
    | [] => none
  let read := if written.isSome then .ok { signal := written, arguments := arguments.tail }
    else killOptions {} arguments
  match read with
  | .error text => abort text
  | .ok o =>
    if o.lists && (o.signal.isNone || o.arguments.isEmpty) then listSignals o.arguments
    else if o.lists || o.arguments.isEmpty then abort killUsage
    else sendSignal (o.signal.getD 15) o.arguments

/-! ## What is run at signals -/

/-- Sets or takes away what is run at some signals, one after another. -/
def setTraps (action : Option String) : List String → Activity Unit
  | [] => setStatus 0
  | name :: rest => do
    match Signal.ofText? name with
    | none =>
      emitText 2 ("trap: " ++ name ++ ": bad trap\n")
      setStatus 1
    | some signal =>
      let action := if action = some "-" then none else action
      modify fun s =>
        if signal = 0 then { s with atExit := action }
        else { s with atSignals := (action.map (signal, ·)).toList ++
                        s.atSignals.filter (·.1 != signal) }
      setTraps action rest

def runTrap (arguments : List String) : Activity Unit := do
  let (_, arguments) ← options [] arguments
  match arguments with
  | [] =>
    let s ← get
    let traps := (s.atExit.map (0, ·)).toList ++ s.atSignals
    for (signal, action) in traps.mergeSort (fun a b => a.1 ≤ b.1) do
      emitText 1 ("trap -- " ++ singleQuoted action ++ " " ++ Signal.name signal ++ "\n")
    setStatus 0
  | first :: rest =>
    let isNumber := !first.isEmpty && first.toList.all Char.isDigit && (Signal.ofText? first).isSome
    if rest.isEmpty || isNumber then setTraps none arguments else setTraps (some first) rest

end SymbolAtlas.Shell
