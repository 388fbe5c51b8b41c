/-!
Failures of the network and of the local file system.

Each has the wording that the operating system gives it. `described` stands for a failure of which
only the wording is known.
-/

namespace FileCluster

/-- Why an operation on a socket or a local file failed. -/
inductive IoError where
  | noSuchFile
  | fileExists
  | notADirectory
  | isADirectory
  | directoryNotEmpty
  | invalidArgument
  | nameTooLong
  | tooManyLinks
  | noResources
  | addressInUse
  | addressNotAvailable
  | networkUnreachable
  | connectionAborted
  | connectionRefused
  | unknownHost
  | endOfStream
  | nulInName
  | described (text : String)
  deriving DecidableEq, Repr

/-- The wording of a failure. -/
def IoError.message : IoError → String
  | .noSuchFile => "No such file or directory (os error 2)"
  | .fileExists => "File exists (os error 17)"
  | .notADirectory => "Not a directory (os error 20)"
  | .isADirectory => "Is a directory (os error 21)"
  | .directoryNotEmpty => "Directory not empty (os error 39)"
  | .invalidArgument => "Invalid argument (os error 22)"
  | .nameTooLong => "File name too long (os error 36)"
  | .tooManyLinks => "Too many levels of symbolic links (os error 40)"
  | .noResources => "Resource temporarily unavailable (os error 11)"
  | .addressInUse => "Address already in use (os error 98)"
  | .addressNotAvailable => "Cannot assign requested address (os error 99)"
  | .networkUnreachable => "Network is unreachable (os error 101)"
  | .connectionAborted => "Software caused connection abort (os error 103)"
  | .connectionRefused => "Connection refused (os error 111)"
  | .unknownHost => "failed to lookup address information: Name or service not known"
  | .endOfStream => "failed to fill whole buffer"
  | .nulInName => "file name contained an unexpected NUL byte"
  | .described s => s

end FileCluster
