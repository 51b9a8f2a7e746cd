/-! The platforms that a release is made for, and the labels of a release. -/
namespace ToolchainRelease

/-- A platform. The tools of a cross target are looked up under its name. -/
structure Target where
  cpu : String
  libc : String
  cross : Bool := false
deriving DecidableEq

namespace Target

def hostCpu : String := "k8"

def hostSystemName : String := "host"

/-- The tools of a toolchain in the order of its entries; one of them is listed twice. -/
def toolNames : List String :=
  ["ar", "ld", "cpp", "dwp", "gcc", "gcov", "ld", "nm", "objcopy", "objdump", "strip"]

def hostIncludeDirectories : List String :=
  ["/usr/lib/gcc", "/usr/local/include", "/usr/include"]

/-- The processor that the toolchain names; the host always reports the same one. -/
def effectiveCpu (t : Target) : String := if t.cross then t.cpu else hostCpu

def libcLabel (t : Target) : String := t.effectiveCpu ++ "-" ++ t.libc

/-- The name of the platform, which is also the identifier of its toolchain. -/
def systemName (t : Target) : String :=
  if t.cross then "cross-" ++ t.cpu ++ "-" ++ t.libc else hostSystemName

def toolPath (t : Target) (tool : String) : String :=
  if t.cross then "/usr/bin/" ++ t.libcLabel ++ "-" ++ tool else "/usr/bin/" ++ tool

def includeDirectories (t : Target) : List String :=
  if t.cross then
    ["/usr/" ++ t.libcLabel ++ "/include", "/usr/lib/gcc-cross/" ++ t.libcLabel]
  else hostIncludeDirectories

/-- The host, and the platforms that are built for without a targets file. -/
def defaults : List Target :=
  [⟨hostCpu, "local", false⟩,
   ⟨"arm", "linux-gnueabihf", true⟩,
   ⟨"aarch64", "linux-gnu", true⟩,
   ⟨"powerpc64le", "linux-gnu", true⟩,
   ⟨"s390x", "linux-gnu", true⟩]

end Target

/-- The version labels of a release. -/
structure Labels where
  majorVersion : String := "local"
  minorVersion : String := ""
deriving DecidableEq

end ToolchainRelease
