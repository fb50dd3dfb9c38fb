/-!
# What the host refuses

The reasons for which the host refuses an operation on its tree of files, with the texts and the
numbers by which it reports them.
-/

namespace Strongroom

/-- Why the host refuses an operation. -/
inductive HostFault
  | noEntry
  | busy
  | alreadyExists
  | notDirectory
  | isDirectory
  | invalidArgument
  | nameTooLong
  | notEmpty
  | tooManyLinks
  | addressInUse
  | addressUnavailable
  | nulByte
  | other (text : String)
deriving DecidableEq, Repr

/-- The text of a fault. -/
def HostFault.message : HostFault → String
  | .noEntry => "No such file or directory (os error 2)"
  | .busy => "Device or resource busy (os error 16)"
  | .alreadyExists => "File exists (os error 17)"
  | .notDirectory => "Not a directory (os error 20)"
  | .isDirectory => "Is a directory (os error 21)"
  | .invalidArgument => "Invalid argument (os error 22)"
  | .nameTooLong => "File name too long (os error 36)"
  | .notEmpty => "Directory not empty (os error 39)"
  | .tooManyLinks => "Too many levels of symbolic links (os error 40)"
  | .addressInUse => "Address already in use (os error 98)"
  | .addressUnavailable => "Cannot assign requested address (os error 99)"
  | .nulByte => "file name contained an unexpected NUL byte"
  | .other text => text

end Strongroom
