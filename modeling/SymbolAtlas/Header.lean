import SymbolAtlas.Binary
import SymbolAtlas.LoadError
import SymbolAtlas.Name

/-!
# Module headers

A library's header names its module and lists its packages in order, once for each part of a package.
The file is a magic word and then the header in the binary format.
-/

namespace SymbolAtlas

structure Header where
  moduleName : String
  packages : List String
  deriving DecidableEq, Inhabited

namespace Header

inductive Fault
  | noMagic
  | unreadable (fault : Binary.Fault)
  | noModuleName
  | badPackageName (package : String)
  deriving DecidableEq

def Fault.message : Fault → String
  | noMagic => "missing module header magic"
  | unreadable fault => fault.message
  | noModuleName => "empty module name"
  | badPackageName package => "invalid package name `" ++ package ++ "`"

/-- The bytes every header begins with. -/
def magic : Bytes :=
  [0x4C, 0x47, 0x4D, 0x48]

/-- The longest header that is written, without its magic word. -/
def sizeLimit : Nat :=
  16 * 1024 * 1024

def body (h : Header) : Bytes :=
  Binary.writeText h.moduleName ++ Binary.writeList Binary.writeText h.packages

/-- The header file, unless the header is too long to write. -/
def encode? (h : Header) : Option Bytes :=
  if h.body.length ≤ sizeLimit then some (magic ++ h.body) else none

def read : Binary.Reader Header := do
  let moduleName ← Binary.readText
  let packages ← Binary.readList Binary.readText
  return ⟨moduleName, packages⟩

/-- A module needs a name, and the packages need valid names. -/
def validate (h : Header) : Except Fault Header :=
  if h.moduleName.isEmpty then .error .noModuleName
  else match h.packages.find? (!QualName.validPackage ·) with
    | some package => .error (.badPackageName package)
    | none => .ok h

def decode (bytes : Bytes) : Except Fault Header :=
  if magic.isPrefixOf bytes then
    match read.all (bytes.drop magic.length) with
    | .ok h => h.validate
    | .error fault => .error (.unreadable fault)
  else .error .noMagic

def parse (library : String) (bytes : Bytes) : Except LoadError Header :=
  (decode bytes).mapError (LoadError.corruptHeader library ·.message)

end Header

end SymbolAtlas
