import ToolchainRelease.Records

/-! The fields that all toolchains share, written as a text like any other. The fields that
identify a toolchain are empty in it and are set for each target. -/
namespace ToolchainRelease.Baseline

def lines : List String :=
  ["",
   "    # Overwritten per target.",
   "    toolchain_identifier: \"\"",
   "    target_system_name: \"\"",
   "    target_cpu: \"\"",
   "    target_libc: \"\"",
   "    compiler: \"\"",
   "    abi_version: \"\"",
   "    abi_libc_version: \"\"",
   "",
   "    builtin_sysroot: \"\"",
   "    host_system_name: \"host\"",
   "    needsPic: true",
   "    supports_gold_linker: false",
   "    supports_incremental_linker: false",
   "    supports_fission: false",
   "    supports_interface_shared_objects: false",
   "    supports_normalizing_ar: false",
   "    supports_start_end_lib: false",
   "",
   "    objcopy_embed_flag: \"-I\"",
   "    objcopy_embed_flag: \"binary\"",
   "",
   "    unfiltered_cxx_flag: \"-no-canonical-prefixes\"",
   "    unfiltered_cxx_flag: \"-fno-canonical-system-headers\"",
   "",
   "    # Reproducible builds: no timestamps baked into objects.",
   "    unfiltered_cxx_flag: \"-Wno-builtin-macro-redefined\"",
   "    unfiltered_cxx_flag: \"-D__DATE__=\\\"redacted\\\"\"",
   "    unfiltered_cxx_flag: \"-D__TIMESTAMP__=\\\"redacted\\\"\"",
   "    unfiltered_cxx_flag: \"-D__TIME__=\\\"redacted\\\"\"",
   "",
   "    # Hardening. _FORTIFY_SOURCE is undefined first since some distributions",
   "    # predefine it.",
   "    compiler_flag: \"-U_FORTIFY_SOURCE\"",
   "    compiler_flag: \"-D_FORTIFY_SOURCE=1\"",
   "    compiler_flag: \"-fstack-protector\"",
   "    linker_flag: \"-Wl,-z,relro,-z,now\"",
   "",
   "    compiler_flag: \"-Wall\"",
   "    compiler_flag: \"-Wunused-but-set-parameter\"",
   "    compiler_flag: \"-Wno-free-nonheap-object\" # false positives",
   "    compiler_flag: \"-fno-omit-frame-pointer\"",
   "",
   "    linker_flag: \"-no-canonical-prefixes\"",
   "    linker_flag: \"-pass-exit-codes\"",
   "",
   "    compilation_mode_flags \x7b",
   "      mode: DBG",
   "      compiler_flag: \"-g\"",
   "    \x7d",
   "    compilation_mode_flags \x7b",
   "      mode: OPT",
   "      compiler_flag: \"-g0\"",
   "      compiler_flag: \"-O2\"",
   "      compiler_flag: \"-DNDEBUG\"",
   "      compiler_flag: \"-ffunction-sections\"",
   "      compiler_flag: \"-fdata-sections\"",
   "      linker_flag: \"-Wl,--gc-sections\"",
   "    \x7d",
   "    linking_mode_flags \x7b mode: DYNAMIC \x7d"]

def text : String := String.join (lines.map (· ++ "\n"))

def toolchain : Except Text.Fault Toolchain := Text.parse Toolchain text

end ToolchainRelease.Baseline
