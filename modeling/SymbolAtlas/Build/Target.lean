import SymbolAtlas.Build.Error
import SymbolAtlas.Text.Blank

namespace SymbolAtlas

inductive Target
  | linuxX64
  | linuxArm32Hfp
  | macosX64
  | iosArm64
  | iosX64
  | mingwX64
  | androidArm64
  | wasm32
  deriving DecidableEq, Inhabited

namespace Target

/-- Every target, in the order in which they are listed to the user. -/
def all : List Target :=
  [linuxX64, linuxArm32Hfp, macosX64, iosArm64, iosX64, mingwX64, androidArm64, wasm32]

/-- The name that the compiler knows the target by. -/
def visibleName : Target → String
  | linuxX64 => "linux_x64"
  | linuxArm32Hfp => "linux_arm32_hfp"
  | macosX64 => "macos_x64"
  | iosArm64 => "ios_arm64"
  | iosX64 => "ios_x64"
  | mingwX64 => "mingw_x64"
  | androidArm64 => "android_arm64"
  | wasm32 => "wasm32"

/-- Targets whose native stubs are scripts. -/
def isScriptLike (t : Target) : Bool :=
  t == wasm32

def aliases : List (String × Target) :=
  [("linux", linuxX64), ("raspberrypi", linuxArm32Hfp), ("macbook", macosX64), ("imac", macosX64),
    ("iphone", iosArm64), ("iphone_sim", iosX64), ("mingw", mingwX64), ("android", androidArm64),
    ("wasm", wasm32)]

def knownNames : List String :=
  all.map visibleName

def ofVisibleName? (name : String) : Option Target :=
  all.find? (·.visibleName == name)

/-- The target that a request names, on a machine whose own target is `host`. White space around the
request and the case of ASCII letters do not matter. -/
def resolve (host : Target) (request : String) : Except BuildError Target :=
  let request := String.ofList ((Text.trim request.toList).map Char.toLower)
  if request = "host" then .ok host
  else match (ofVisibleName? request).or (aliases.lookup request) with
    | some target => .ok target
    | none => .error (.unresolvedTarget request knownNames)

/-- A target's own name asks for it on every machine. -/
theorem resolve_visibleName (host target : Target) :
    resolve host target.visibleName = .ok target := by
  cases target <;> rfl

end Target

end SymbolAtlas
