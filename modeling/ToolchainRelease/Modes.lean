import ToolchainRelease.Text.Schema

/-! The enumerations of toolchain records. -/
namespace ToolchainRelease

/-- The mode of compilation that a block of flags applies to. -/
inductive CompilationMode
  | fastbuild
  | dbg
  | coverage
  | opt
deriving DecidableEq

namespace CompilationMode

def all : List CompilationMode := [fastbuild, dbg, coverage, opt]

def name : CompilationMode → String
  | fastbuild => "FASTBUILD"
  | dbg => "DBG"
  | coverage => "COVERAGE"
  | opt => "OPT"

def ofName? (s : String) : Option CompilationMode := all.find? fun m => m.name = s

def choices : Text.Choices := ⟨"CompilationMode", all.map name⟩

theorem ofName?_name (m : CompilationMode) : ofName? m.name = some m := by
  cases m <;> decide

end CompilationMode

/-- The mode of linking that a block of flags applies to. -/
inductive LinkingMode
  | fullyStatic
  | mostlyStatic
  | dynamic
  | mostlyStaticLibraries
deriving DecidableEq

namespace LinkingMode

def all : List LinkingMode := [fullyStatic, mostlyStatic, dynamic, mostlyStaticLibraries]

def name : LinkingMode → String
  | fullyStatic => "FULLY_STATIC"
  | mostlyStatic => "MOSTLY_STATIC"
  | dynamic => "DYNAMIC"
  | mostlyStaticLibraries => "MOSTLY_STATIC_LIBRARIES"

def ofName? (s : String) : Option LinkingMode := all.find? fun m => m.name = s

def choices : Text.Choices := ⟨"LinkingMode", all.map name⟩

theorem ofName?_name (m : LinkingMode) : ofName? m.name = some m := by
  cases m <;> decide

end LinkingMode

end ToolchainRelease
