import SymbolAtlas.Symbols.Graph

/-!
# Sessions

A session holds modules in numbered slots and in a graph, over one store, and what was taken out of
them: fragments and services, also numbered. A module ends when neither a slot nor the graph holds it,
and a provider ends when no module in use has it. Fragments and services that outlive them answer from
what the store remembers.

Descriptors are numbered in the order in which they are first seen, so that equal numbers are the same
descriptor.
-/

namespace SymbolAtlas

structure Session where
  store : Store := {}
  slots : List (Option Module) := []
  graph : ModuleGraph := {}
  fragments : List Fragment := []
  services : List Services := []
  /-- Counters by name, for loading several modules that count together. -/
  counters : List (String × Identity) := []
  /-- The descriptors seen so far, the first one first. -/
  seen : List Identity := []

namespace Session

/-- Runs a query on the session's store. -/
def query {α : Type} (s : Session) (q : Query α) : Except LoadError α × Session :=
  let (answer, store) := q.runOn s.store
  (answer, { s with store })

def module? (s : Session) (slot : Nat) : Option Module :=
  (s.slots[slot]?).join

/-- Puts a module into the next slot. -/
def hold (s : Session) (m : Module) : Session :=
  { s with slots := s.slots ++ [some m] }

/-- The counters of that name, made when the name is new. -/
def countersNamed (s : Session) (name : String) : Identity × Session :=
  match s.counters.lookup name with
  | some id => (id, s)
  | none =>
    let id := s.store.nextIdentity
    (id, { s with store := { s.store with nextIdentity := id + 1 },
                  counters := (name, id) :: s.counters })

/-- The session after descriptors are seen. -/
def see (s : Session) (ids : List Identity) : Session :=
  ids.foldl (fun s id => if s.seen.contains id then s else { s with seen := s.seen ++ [id] }) s

/-- The modules that a slot or the graph holds. -/
def modulesInUse (s : Session) : List Module :=
  s.slots.filterMap id ++ s.graph.modules

/-- The module that a fragment was made for, while it is in use. -/
def owner? (s : Session) (owner : Option Identity) : Option Module :=
  s.modulesInUse.find? fun m => owner == some m.identity

/-- The providers that modules in use have. -/
def providersInUse (s : Session) : List Identity :=
  s.modulesInUse.filterMap fun m => (m.services? s.store).map (·.provider.identity)

/-- Empties a slot, and ends what is no longer in use. -/
def drop (s : Session) (slot : Nat) : Session :=
  match s.module? slot with
  | none => s
  | some m =>
    let s := { s with slots := s.slots.set slot none }
    let modules := (s.modulesInUse).map (·.identity)
    let provider := (m.services? s.store).map (·.provider.identity)
    let ended := ([m.identity].filter (!modules.contains ·)) ++
      (provider.toList.filter (!s.providersInUse.contains ·))
    { s with store := { s.store with ended := ended ++ s.store.ended } }

end Session

end SymbolAtlas
