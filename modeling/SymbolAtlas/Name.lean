import SymbolAtlas.Text.Blank

/-!
# Names

Short names, dotted qualified names and class ids. A qualified name has no white space at its ends,
and that is part of the type, so equal texts are equal names.

* `QualName.text_inj`: a qualified name is its text;
* `QualName.ofText_text`: building a name from the text of a name changes nothing.
-/

namespace SymbolAtlas

/-- One segment of a qualified name, or a special name in angle brackets. -/
structure Name where
  text : String
  deriving DecidableEq, Inhabited

namespace Name

/-- The special name of `s`, written in angle brackets unless it is so already. -/
def special (s : String) : Name :=
  if s.startsWith "<" && s.endsWith ">" then ⟨s⟩ else ⟨"<" ++ s ++ ">"⟩

def isSpecial (n : Name) : Bool :=
  n.text.startsWith "<"

end Name

/-- A dotted name without white space at its ends. The empty name is the root package. -/
structure QualName where
  text : String
  trimmed : Text.trim text.toList = text.toList
  deriving DecidableEq

namespace QualName

/-- The qualified name written `s`, white space at the ends dropped. -/
def ofChars (s : List Char) : QualName :=
  ⟨String.ofList (Text.trim s), by simp⟩

def ofText (s : String) : QualName :=
  ofChars s.toList

def root : QualName :=
  ofChars []

instance : Inhabited QualName := ⟨root⟩

theorem text_inj {a b : QualName} : a.text = b.text ↔ a = b := by
  cases a; cases b; simp

@[simp] theorem text_ofChars (s : List Char) : (ofChars s).text = String.ofList (Text.trim s) :=
  rfl

@[simp] theorem ofText_text (a : QualName) : ofText a.text = a := by
  rw [← text_inj, ofText, text_ofChars, a.trimmed, String.ofList_toList]

def chars (a : QualName) : List Char :=
  a.text.toList

def isRoot (a : QualName) : Bool :=
  a.chars.isEmpty

/-- The enclosing name; a single segment lies in the root package. -/
def parent (a : QualName) : QualName :=
  match Text.splitLast (· == '.') a.chars with
  | some (front, _) => ofChars front
  | none => root

/-- The last segment. -/
def shortName (a : QualName) : Name :=
  match Text.splitLast (· == '.') a.chars with
  | some (_, last) => ⟨String.ofList last⟩
  | none => ⟨a.text⟩

/-- The name with one more segment. -/
def child (a : QualName) (n : Name) : QualName :=
  if a.isRoot then ofText n.text else ofChars (a.chars ++ '.' :: n.text.toList)

/-- The non-empty segments, outermost first. -/
def segments (a : QualName) : List Name :=
  ((a.chars.splitOn '.').filter (!·.isEmpty)).map fun s => ⟨String.ofList s⟩

/-- Whether `a` is `b` or lies below it. Everything lies below the root. -/
def startsWith (a b : QualName) : Bool :=
  b.isRoot || a == b || (b.chars ++ ['.']).isPrefixOf a.chars

/-- A package name that can name a directory: empty, or dotted with non-empty segments that hold no
path separator. -/
def validPackage (s : String) : Bool :=
  s.isEmpty || (s.toList.splitOn '.').all fun segment =>
    !segment.isEmpty && !segment.contains '/' && !segment.contains '\\'

def isValidPackage (a : QualName) : Bool :=
  validPackage a.text

end QualName

/-- A class: its package, and its name in the package with outer classes before a dot. -/
structure ClassId where
  package : QualName
  relative : Name
  deriving DecidableEq, Inhabited

namespace ClassId

/-- The class whose dotted name is `a`. -/
def ofQualName (a : QualName) : ClassId :=
  ⟨a.parent, a.shortName⟩

/-- The text with dots for slashes. -/
def dotted (s : List Char) : List Char :=
  s.map fun c => if c = '/' then '.' else c

/-- Reads `package/Class`. The package ends at the first slash, and a slash in it is read as a dot;
without a slash the last dot separates it. -/
def parse (s : String) : ClassId :=
  let s := Text.trim s.toList
  match Text.splitFirst (· == '/') s with
  | some (package, relative) => ⟨QualName.ofChars (dotted package), ⟨String.ofList relative⟩⟩
  | none => ofQualName (QualName.ofChars s)

def toText (id : ClassId) : String :=
  id.package.text ++ "/" ++ id.relative.text

/-- The name of the innermost class. -/
def shortName (id : ClassId) : Name :=
  (QualName.ofText id.relative.text).shortName

def isNested (id : ClassId) : Bool :=
  id.relative.text.toList.contains '.'

/-- The dotted name of the class. -/
def qualName (id : ClassId) : QualName :=
  id.package.child id.relative

/-- By package, then by name. -/
def order (a b : ClassId) : Ordering :=
  (compare a.package.text b.package.text).then (compare a.relative.text b.relative.text)

end ClassId

end SymbolAtlas
