import SymbolAtlas.Language
import SymbolAtlas.Symbols.Fragment

/-!
# The symbol store

Fragments and modules do not change. What look-ups leave behind is in the store: the payloads that
have been read, the classes that have been made from them, the placeholders, the counters, and which
packages were read first when.

A query reads and extends the store, and keeps what it has added when it fails.
-/

namespace SymbolAtlas

/-- Makes a payload of the bytes of a package, or tells why they are none. -/
abbrev Decoder := QualName → Bytes → Except String Payload

def Decoder.binary : Decoder := fun package bytes =>
  (Payload.decode package bytes).mapError Payload.Fault.message

/-- What the fragments of one module share. -/
structure Services where
  identity : Identity
  moduleName : Name
  policy : ReadingPolicy
  decoder : Decoder
  counters : Identity
  provider : Provider

/-- How often something was made. -/
structure Counters where
  packagesDecoded : Nat := 0
  classesRead : Nat := 0
  missingClasses : Nat := 0
  deriving DecidableEq, Inhabited

/-- What look-ups leave behind. -/
structure Store where
  nextIdentity : Identity := 0
  /-- The payload of a stored fragment, once it has been read. -/
  payloads : Table Identity Payload := ⟨[]⟩
  /-- The services that a stored fragment reads with. -/
  services : Table Identity Services := ⟨[]⟩
  /-- The services of a module, once it is initialized. -/
  modules : Table Identity Services := ⟨[]⟩
  /-- The answer to each class that was asked of the services, unless asking failed. -/
  classes : Table (Identity × ClassId) (Option (Option ClassDescriptor)) := ⟨[]⟩
  missing : Table (Identity × ClassId × UInt32) MissingClass := ⟨[]⟩
  placeholders : Table (Identity × QualName) ClassDescriptor := ⟨[]⟩
  counters : Table Identity Counters := ⟨[]⟩
  /-- The packages whose reading was reported, the first one first. -/
  accessed : List QualName := []
  /-- The stored fragments whose bytes were handed to a decoder, once for each time, the first one
  first. -/
  decoderCalls : List Identity := []
  /-- Modules and providers that are no longer in use. -/
  ended : List Identity := []
  deriving Inhabited

namespace Store

def countersOf (s : Store) (id : Identity) : Counters :=
  (s.counters.get? id).getD {}

/-- Counts with `change` in the counters `id`. -/
def tally (s : Store) (id : Identity) (change : Counters → Counters) : Store :=
  { s with counters := s.counters.set id (change (s.countersOf id)) }

def countPackage (s : Store) (id : Identity) : Store :=
  s.tally id fun c => { c with packagesDecoded := c.packagesDecoded + 1 }

def countClass (s : Store) (id : Identity) : Store :=
  s.tally id fun c => { c with classesRead := c.classesRead + 1 }

def countMissing (s : Store) (id : Identity) : Store :=
  s.tally id fun c => { c with missingClasses := c.missingClasses + 1 }

def isPopulated (s : Store) (f : StoredFragment) : Bool :=
  (s.payloads.get? f.identity).isSome

def hasEnded (s : Store) (id : Identity) : Bool :=
  s.ended.contains id

/-- How many classes the services have been asked for. -/
def classCells (s : Store) (services : Services) : Nat :=
  s.classes.count (·.1 == services.identity)

/-- How many placeholders stand for classes that the services' module misses. -/
def missingCount (s : Store) (services : Services) : Nat :=
  s.missing.count (·.1 == services.identity)

end Store

/-- A look-up: an answer or an error, and the store afterwards. -/
abbrev Query := ExceptT LoadError (StateM Store)

namespace Query

/-- The answer of a query and the store after it. -/
def runOn {α : Type} (q : Query α) (s : Store) : Except LoadError α × Store :=
  q s

def ofExcept {α : Type} (r : Except LoadError α) : Query α :=
  fun s => (r, s)

/-- An identity that nothing else has. -/
def fresh : Query Identity := do
  let id := (← get).nextIdentity
  modify fun s => { s with nextIdentity := id + 1 }
  return id

/-- The first answer that `ask` gives for one of `items`. -/
def firstAnswer {α β : Type} (ask : α → Query (Option β)) : List α → Query (Option β)
  | [] => return none
  | a :: rest => do
    match ← ask a with
    | some b => return some b
    | none => firstAnswer ask rest

end Query

end SymbolAtlas
