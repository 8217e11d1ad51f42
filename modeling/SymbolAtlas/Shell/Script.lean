namespace SymbolAtlas.Shell

/-! ## Names -/

def isNameStart (c : Char) : Bool :=
  c.isAlpha || c == '_'

def isNameChar (c : Char) : Bool :=
  c.isAlphanum || c == '_'

def isName (s : List Char) : Bool :=
  s.head?.any isNameStart && s.all isNameChar

/-- The built-in commands that are part of the language. They are found before functions, variables
that are set for them stay set, and the script ends if they fail. -/
def specialCommands : List String :=
  [".", ":", "break", "continue", "eval", "exec", "exit", "export", "local", "readonly", "return",
    "set", "shift", "times", "trap", "unset"]

/-! ## The form of a script -/

inductive Link
  | always
  | ifGood
  | ifBad
  deriving DecidableEq, Inhabited

inductive Opening
  | read
  | replace
  /-- Replaces a file in any case. -/
  | replaceAny
  | append
  /-- For reading and for writing. -/
  | both
  deriving DecidableEq, Inhabited

mutual

/-- A part of a word. What is quoted is neither split nor a pattern. -/
inductive Piece
  | text (quoted : Bool) (s : List Char)
  | parameter (quoted : Bool) (name : String) (use : Use)
  /-- What a script writes. -/
  | output (quoted : Bool) (body : List Statement)
  /-- The value of an arithmetic expression. -/
  | sum (quoted : Bool) (expression : List Piece)
  /-- The home directory of who runs the script. -/
  | home
  /-- What has the form of an expansion and means nothing. -/
  | bad

/-- What is taken of a parameter. With `orEmpty`, an empty value counts as none. -/
inductive Use
  | value
  | length
  | orElse (orEmpty : Bool) (word : List Piece)
  | orAssign (orEmpty : Bool) (word : List Piece)
  | orFail (orEmpty : Bool) (word : List Piece)
  | ifPresent (orEmpty : Bool) (word : List Piece)
  /-- Without the part at its front or end that the pattern matches. -/
  | without (atEnd longest : Bool) (pattern : List Piece)

inductive Redirect
  | file (stream : Nat) (opening : Opening) (target : List Piece)
  /-- Makes a stream the same as another one. -/
  | copy (stream : Nat) (target : List Piece)
  /-- Text in the script, to be read. -/
  | document (stream : Nat) (body : List Piece)

inductive Command
  | simple (line : Nat) (assignments : List (String × List Piece)) (words : List (List Piece))
      (redirects : List Redirect)
  | group (body : List Statement)
  /-- A group whose changes are forgotten after it. -/
  | apart (body : List Statement)
  /-- A group that is not waited for. -/
  | background (body : List Statement)
  | choice (branches : List (List Statement × List Statement)) (otherwise : List Statement)
  /-- Repeats the body while the condition ends well, or as long as it does not. -/
  | loop (untilGood : Bool) (condition body : List Statement)
  /-- Repeats the body for every word, or for the script's own parameters. -/
  | each (name : String) (words : Option (List (List Piece))) (body : List Statement)
  | select (word : List Piece) (branches : List (List (List Piece) × List Statement))
  | define (name : String) (body : Command)
  | redirected (command : Command) (redirects : List Redirect)
  /-- A command that begins in a line. -/
  | placed (line : Nat) (command : Command)

/-- Commands of which each reads what the one before it writes. -/
inductive Statement
  | pipeline (link : Link) (negated : Bool) (commands : List Command)

end

abbrev Word := List Piece

instance : Inhabited Piece := ⟨.text false []⟩
instance : Inhabited Command := ⟨.group []⟩
instance : Inhabited Statement := ⟨.pipeline .always false []⟩

namespace Statement

def link : Statement → Link
  | pipeline link _ _ => link

end Statement

end SymbolAtlas.Shell
