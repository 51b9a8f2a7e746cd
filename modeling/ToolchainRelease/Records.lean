import ToolchainRelease.Modes
import ToolchainRelease.Text.Record

/-! The records that describe toolchains, and the release that holds them. A scalar that is set
to the empty text is not the same as one that is not set. -/
namespace ToolchainRelease

/-- The kinds of record of a toolchain release. -/
inductive RecordKind
  | toolPath
  | compilationModeFlags
  | linkingModeFlags
  | toolchain
  | release
deriving DecidableEq

/-- A named tool and where it is found. -/
structure ToolPath where
  name : Option String := none
  path : Option String := none
deriving DecidableEq

/-- Further flags of one compilation mode. -/
structure CompilationModeFlags where
  mode : Option CompilationMode := none
  compilerFlags : List String := []
  cxxFlags : List String := []
  linkerFlags : List String := []
deriving DecidableEq

/-- Further flags of one linking mode. -/
structure LinkingModeFlags where
  mode : Option LinkingMode := none
  linkerFlags : List String := []
deriving DecidableEq

/-- One compiler configuration for a target platform. -/
structure Toolchain where
  identifier : Option String := none
  hostSystemName : Option String := none
  targetSystemName : Option String := none
  targetCpu : Option String := none
  targetLibc : Option String := none
  compiler : Option String := none
  abiVersion : Option String := none
  abiLibcVersion : Option String := none
  toolPaths : List ToolPath := []
  compilerFlags : List String := []
  cxxFlags : List String := []
  unfilteredCxxFlags : List String := []
  linkerFlags : List String := []
  dynamicLibraryLinkerFlags : List String := []
  testOnlyLinkerFlags : List String := []
  objcopyEmbedFlags : List String := []
  ldEmbedFlags : List String := []
  arFlags : List String := []
  compilationModeFlags : List CompilationModeFlags := []
  linkingModeFlags : List LinkingModeFlags := []
  cxxBuiltinIncludeDirectories : List String := []
  builtinSysroot : Option String := none
  supportsGoldLinker : Option Bool := none
  supportsThinArchives : Option Bool := none
  supportsStartEndLib : Option Bool := none
  supportsInterfaceSharedObjects : Option Bool := none
  supportsEmbeddedRuntimes : Option Bool := none
  supportsIncrementalLinker : Option Bool := none
  supportsFission : Option Bool := none
  supportsNormalizingAr : Option Bool := none
  supportsDsym : Option Bool := none
  needsPic : Option Bool := none
deriving DecidableEq

/-- The container of all toolchains that are generated together. -/
structure Release where
  majorVersion : Option String := none
  minorVersion : Option String := none
  defaultTargetCpu : Option String := none
  toolchains : List Toolchain := []
deriving DecidableEq

open Text

namespace ToolPath

def slots : List (Slot RecordKind ToolPath) :=
  [.text "name" name fun v r => { r with name := v },
   .text "path" path fun v r => { r with path := v }]

def entries : ToolPath → List Entry := Slot.entriesOf slots

def ofEntries : List Entry → ToolPath := Slot.ofEntries slots {}

end ToolPath

namespace CompilationModeFlags

def slots : List (Slot RecordKind CompilationModeFlags) :=
  [.choice "mode" CompilationMode.choices CompilationMode.name CompilationMode.ofName? mode
     fun v r => { r with mode := v },
   .texts "compiler_flag" compilerFlags fun v r => { r with compilerFlags := v },
   .texts "cxx_flag" cxxFlags fun v r => { r with cxxFlags := v },
   .texts "linker_flag" linkerFlags fun v r => { r with linkerFlags := v }]

def entries : CompilationModeFlags → List Entry := Slot.entriesOf slots

def ofEntries : List Entry → CompilationModeFlags := Slot.ofEntries slots {}

end CompilationModeFlags

namespace LinkingModeFlags

def slots : List (Slot RecordKind LinkingModeFlags) :=
  [.choice "mode" LinkingMode.choices LinkingMode.name LinkingMode.ofName? mode
     fun v r => { r with mode := v },
   .texts "linker_flag" linkerFlags fun v r => { r with linkerFlags := v }]

def entries : LinkingModeFlags → List Entry := Slot.entriesOf slots

def ofEntries : List Entry → LinkingModeFlags := Slot.ofEntries slots {}

end LinkingModeFlags

namespace Toolchain

def slots : List (Slot RecordKind Toolchain) :=
  [.text "toolchain_identifier" identifier fun v r => { r with identifier := v },
   .text "host_system_name" hostSystemName fun v r => { r with hostSystemName := v },
   .text "target_system_name" targetSystemName fun v r => { r with targetSystemName := v },
   .text "target_cpu" targetCpu fun v r => { r with targetCpu := v },
   .text "target_libc" targetLibc fun v r => { r with targetLibc := v },
   .text "compiler" compiler fun v r => { r with compiler := v },
   .text "abi_version" abiVersion fun v r => { r with abiVersion := v },
   .text "abi_libc_version" abiLibcVersion fun v r => { r with abiLibcVersion := v },
   .records "tool_path" .toolPath ToolPath.entries ToolPath.ofEntries toolPaths
     fun v r => { r with toolPaths := v },
   .texts "compiler_flag" compilerFlags fun v r => { r with compilerFlags := v },
   .texts "cxx_flag" cxxFlags fun v r => { r with cxxFlags := v },
   .texts "unfiltered_cxx_flag" unfilteredCxxFlags fun v r => { r with unfilteredCxxFlags := v },
   .texts "linker_flag" linkerFlags fun v r => { r with linkerFlags := v },
   .texts "dynamic_library_linker_flag" dynamicLibraryLinkerFlags
     fun v r => { r with dynamicLibraryLinkerFlags := v },
   .texts "test_only_linker_flag" testOnlyLinkerFlags
     fun v r => { r with testOnlyLinkerFlags := v },
   .texts "objcopy_embed_flag" objcopyEmbedFlags fun v r => { r with objcopyEmbedFlags := v },
   .texts "ld_embed_flag" ldEmbedFlags fun v r => { r with ldEmbedFlags := v },
   .texts "ar_flag" arFlags fun v r => { r with arFlags := v },
   .records "compilation_mode_flags" .compilationModeFlags CompilationModeFlags.entries
     CompilationModeFlags.ofEntries compilationModeFlags
     fun v r => { r with compilationModeFlags := v },
   .records "linking_mode_flags" .linkingModeFlags LinkingModeFlags.entries
     LinkingModeFlags.ofEntries linkingModeFlags fun v r => { r with linkingModeFlags := v },
   .texts "cxx_builtin_include_directory" cxxBuiltinIncludeDirectories
     fun v r => { r with cxxBuiltinIncludeDirectories := v },
   .text "builtin_sysroot" builtinSysroot fun v r => { r with builtinSysroot := v },
   .flag "supports_gold_linker" supportsGoldLinker fun v r => { r with supportsGoldLinker := v },
   .flag "supports_thin_archives" supportsThinArchives
     fun v r => { r with supportsThinArchives := v },
   .flag "supports_start_end_lib" supportsStartEndLib
     fun v r => { r with supportsStartEndLib := v },
   .flag "supports_interface_shared_objects" supportsInterfaceSharedObjects
     fun v r => { r with supportsInterfaceSharedObjects := v },
   .flag "supports_embedded_runtimes" supportsEmbeddedRuntimes
     fun v r => { r with supportsEmbeddedRuntimes := v },
   .flag "supports_incremental_linker" supportsIncrementalLinker
     fun v r => { r with supportsIncrementalLinker := v },
   .flag "supports_fission" supportsFission fun v r => { r with supportsFission := v },
   .flag "supports_normalizing_ar" supportsNormalizingAr
     fun v r => { r with supportsNormalizingAr := v },
   .flag "supports_dsym" supportsDsym fun v r => { r with supportsDsym := v },
   .flag "needsPic" needsPic fun v r => { r with needsPic := v }]

def entries : Toolchain → List Entry := Slot.entriesOf slots

def ofEntries : List Entry → Toolchain := Slot.ofEntries slots {}

/-- The path of the first tool of that name; it may be unset. -/
def tool (t : Toolchain) (name : String) : Option String :=
  (t.toolPaths.find? fun p => p.name = some name).bind ToolPath.path

end Toolchain

namespace Release

def slots : List (Slot RecordKind Release) :=
  [.text "major_version" majorVersion fun v r => { r with majorVersion := v },
   .text "minor_version" minorVersion fun v r => { r with minorVersion := v },
   .text "default_target_cpu" defaultTargetCpu fun v r => { r with defaultTargetCpu := v },
   .records "toolchain" .toolchain Toolchain.entries Toolchain.ofEntries toolchains
     fun v r => { r with toolchains := v }]

def entries : Release → List Entry := Slot.entriesOf slots

def ofEntries : List Entry → Release := Slot.ofEntries slots {}

end Release

namespace RecordKind

def package : String := "com.google.devtools.build.lib.view.config.crosstool."

def fullName : RecordKind → String
  | toolPath => package ++ "ToolPath"
  | compilationModeFlags => package ++ "CompilationModeFlags"
  | linkingModeFlags => package ++ "LinkingModeFlags"
  | toolchain => package ++ "CToolchain"
  | release => package ++ "CrosstoolRelease"

def fields : RecordKind → List (FieldSchema RecordKind)
  | toolPath => ToolPath.slots.map Slot.field
  | compilationModeFlags => CompilationModeFlags.slots.map Slot.field
  | linkingModeFlags => LinkingModeFlags.slots.map Slot.field
  | toolchain => Toolchain.slots.map Slot.field
  | release => Release.slots.map Slot.field

def schema : Schema RecordKind := ⟨fullName, fields⟩

end RecordKind

instance : Record ToolPath :=
  ⟨RecordKind, RecordKind.schema, .toolPath, ToolPath.entries, ToolPath.ofEntries⟩

instance : Record CompilationModeFlags :=
  ⟨RecordKind, RecordKind.schema, .compilationModeFlags, CompilationModeFlags.entries,
    CompilationModeFlags.ofEntries⟩

instance : Record LinkingModeFlags :=
  ⟨RecordKind, RecordKind.schema, .linkingModeFlags, LinkingModeFlags.entries,
    LinkingModeFlags.ofEntries⟩

instance : Record Toolchain :=
  ⟨RecordKind, RecordKind.schema, .toolchain, Toolchain.entries, Toolchain.ofEntries⟩

instance : Record Release :=
  ⟨RecordKind, RecordKind.schema, .release, Release.entries, Release.ofEntries⟩

end ToolchainRelease
