import SymbolAtlas.Shell.Launch

namespace SymbolAtlas.Shell

open Files Activity

/-- The pause that a statement makes if it does nothing else. -/
def pauseOf? : Statement → Option Nat
  | .pipeline .always false [.simple _ [] [[.text false name], [.text _ length]] []] =>
    if String.ofList name = "sleep" then Tool.pauseOf? (String.ofList length) else none
  | _ => none

/-- The statements that a part runs by itself. -/
def ownStatements : List Statement → List Statement
  | [.pipeline .always false [.placed _ (.apart body)]] => body
  | [.pipeline .always false [.placed _ (.group body)]] => body
  | body => body

def jobSize : List Statement → Nat
  | [.pipeline _ false commands] => commands.length
  | _ => 1

/-- Keeps statements to be run later by a part of the script's own, which has nothing to read. -/
def defer (body : List Statement) : Activity Unit := do
  reuseNumber
  let nothing ← addChannel .nothing
  let s ← get
  let number := s.nextProcess
  let process : Process := { s.toProcess with
    own := number, ancestors := s.own :: s.ancestors, atExit := none, isLast := true
    guarded := false, jobs := [], atSignals := s.atSignals.filter (·.2.isEmpty)
    streams := (0, nothing) :: s.streams.filter (·.1 != 0) }
  let free := (List.range (s.jobs.length + 1)).find? fun n => !s.jobs.any (·.number == n + 1)
  let job : Job := { number := free.getD 0 + 1, process := number, size := jobSize body }
  let deferred : Deferred :=
    { owner := s.own, number, process, body := ownStatements body, due := s.clock
      workingDir := s.files.workingDir }
  set { s with
    nextProcess := number + 1, jobs := job :: s.jobs, lastJob := some number, status := 0
    deferred := s.deferred ++ [deferred] }

/-- Whether one command goes on before another one. Of two that go on together the older one does. -/
def Deferred.isBefore (d e : Deferred) : Bool :=
  d.due < e.due || (d.due == e.due && d.number < e.number)

/-- Takes the command that goes on next among those that are not waited for, up to a time. -/
def takeDeferred (upTo : Option Nat) : Activity (Option Deferred) := do
  let s ← get
  let ready := s.deferred.filter fun d => d.owner == s.own && upTo.all (d.due ≤ ·)
  let next := ready.foldl (fun first d => match first with
    | some e => some (if d.isBefore e then d else e)
    | none => some d) none
  next.forM fun d => set { s with deferred := s.deferred.filter (·.number != d.number) }
  return next

def putDeferred (d : Deferred) : Activity Unit :=
  modify fun s => { s with deferred := d :: s.deferred }

/-- Takes note of the jobs that have ended while another program was waited for. -/
def seeJobs : Activity Unit :=
  modify fun s =>
    { s with jobs := s.jobs.map fun (job : Job) => { job with seen := job.seen || job.ended.isSome } }

/-- Tells how a part has ended that has been waited for. -/
def tellEnd (signal : Option Nat) : Activity Unit :=
  signal.forM tellSignal

end SymbolAtlas.Shell
