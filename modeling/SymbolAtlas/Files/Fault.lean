namespace SymbolAtlas.Files

/-- Why a file operation fails. The last four are not the file system's own: a request that is
refused, a part that a library in memory lacks, and a text given by whoever serves the bytes. -/
inductive Fault
  | missing
  | isDirectory
  | notDirectory
  | denied
  | fileExists
  | nameTooLong
  | notText
  | nulInPath
  | badPackageName (package : String)
  | noPayload (package : String) (part : Nat)
  | other (text : String)
  deriving DecidableEq, Inhabited

namespace Fault

def message : Fault → String
  | missing => "No such file or directory (os error 2)"
  | isDirectory => "Is a directory (os error 21)"
  | notDirectory => "Not a directory (os error 20)"
  | denied => "Permission denied (os error 13)"
  | fileExists => "File exists (os error 17)"
  | nameTooLong => "File name too long (os error 36)"
  | notText => "stream did not contain valid UTF-8"
  | nulInPath => "file name contained an unexpected NUL byte"
  | badPackageName package => "invalid package name `" ++ package ++ "`"
  | noPayload package part => "no payload for package `" ++ package ++ s!"` part {part}"
  | other text => text

inductive Kind
  | notFound
  | isADirectory
  | notADirectory
  | permissionDenied
  | alreadyExists
  | invalidFilename
  | invalidData
  | invalidInput
  | other
  deriving DecidableEq

def kind : Fault → Kind
  | missing => .notFound
  | isDirectory => .isADirectory
  | notDirectory => .notADirectory
  | denied => .permissionDenied
  | fileExists => .alreadyExists
  | nameTooLong => .invalidFilename
  | notText => .invalidData
  | nulInPath => .invalidInput
  | badPackageName _ => .invalidInput
  | noPayload _ _ => .notFound
  | other _ => .other

end Fault

end SymbolAtlas.Files
