/-! What can go wrong when files are read and written, in the words of the system. -/
namespace ToolchainRelease

inductive IoFault
  | notFound
  | permissionDenied
  | notADirectory
  | isADirectory
  | nameTooLong
  | noSpace
  | nulInName
  | invalidUtf8
  /-- A fault that a sink reports in words of its own. -/
  | other (text : String)
deriving DecidableEq

namespace IoFault

def message : IoFault → String
  | notFound => "No such file or directory (os error 2)"
  | permissionDenied => "Permission denied (os error 13)"
  | notADirectory => "Not a directory (os error 20)"
  | isADirectory => "Is a directory (os error 21)"
  | nameTooLong => "File name too long (os error 36)"
  | noSpace => "No space left on device (os error 28)"
  | nulInName => "file name contained an unexpected NUL byte"
  | invalidUtf8 => "stream did not contain valid UTF-8"
  | other text => text

end IoFault

end ToolchainRelease
