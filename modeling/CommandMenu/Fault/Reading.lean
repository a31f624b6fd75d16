/-! # Why a file cannot be read

The causes for which a source does not hand out the contents of a file, and their wording.

* `ReadFailure.Kind` is what a source says that knows no more than the kind of a failure.
* `ReadFailure` is the cause, `ReadFailure.message` the wording.
-/

namespace CommandMenu

/-- The kinds of failure that a source may state. -/
inductive ReadFailure.Kind where
  | addressInUse
  | addressNotAvailable
  | alreadyExists
  | argumentsTooLong
  | brokenPipe
  | connectionAborted
  | connectionRefused
  | connectionReset
  | crossesDevices
  | deadlock
  | directoryNotEmpty
  | executableBusy
  | fileTooLarge
  | hostUnreachable
  | interrupted
  | invalidData
  | invalidFileName
  | invalidInput
  | isADirectory
  | networkDown
  | networkUnreachable
  | notADirectory
  | notConnected
  | notFound
  | notSeekable
  | outOfMemory
  | permissionDenied
  | quotaExceeded
  | readOnlyFileSystem
  | resourceBusy
  | staleFileHandle
  | storageFull
  | timedOut
  | tooManyLinks
  | unexpectedEnd
  | unsupported
  | wouldBlock
  | writeZero
  | other
deriving DecidableEq, Repr

/-- The wording of a kind. -/
def ReadFailure.Kind.text : ReadFailure.Kind → String
  | .addressInUse => "address in use"
  | .addressNotAvailable => "address not available"
  | .alreadyExists => "entity already exists"
  | .argumentsTooLong => "argument list too long"
  | .brokenPipe => "broken pipe"
  | .connectionAborted => "connection aborted"
  | .connectionRefused => "connection refused"
  | .connectionReset => "connection reset"
  | .crossesDevices => "cross-device link or rename"
  | .deadlock => "deadlock"
  | .directoryNotEmpty => "directory not empty"
  | .executableBusy => "executable file busy"
  | .fileTooLarge => "file too large"
  | .hostUnreachable => "host unreachable"
  | .interrupted => "operation interrupted"
  | .invalidData => "invalid data"
  | .invalidFileName => "invalid filename"
  | .invalidInput => "invalid input parameter"
  | .isADirectory => "is a directory"
  | .networkDown => "network down"
  | .networkUnreachable => "network unreachable"
  | .notADirectory => "not a directory"
  | .notConnected => "not connected"
  | .notFound => "entity not found"
  | .notSeekable => "seek on unseekable file"
  | .outOfMemory => "out of memory"
  | .permissionDenied => "permission denied"
  | .quotaExceeded => "quota exceeded"
  | .readOnlyFileSystem => "read-only filesystem or storage medium"
  | .resourceBusy => "resource busy"
  | .staleFileHandle => "stale network file handle"
  | .storageFull => "no storage space"
  | .timedOut => "timed out"
  | .tooManyLinks => "too many links"
  | .unexpectedEnd => "unexpected end of file"
  | .unsupported => "unsupported"
  | .wouldBlock => "operation would block"
  | .writeZero => "write zero"
  | .other => "other error"

/-- Why the contents of a file are not available. -/
inductive ReadFailure where
  | stated (kind : ReadFailure.Kind)
  | noSuchFile
  | directory
  | throughFile
  | longName
  | badName
  | notText
  | other (text : String)
deriving DecidableEq, Repr

/-- The wording of a failure. -/
def ReadFailure.message : ReadFailure → String
  | .stated kind => kind.text
  | .noSuchFile => "No such file or directory (os error 2)"
  | .directory => "Is a directory (os error 21)"
  | .throughFile => "Not a directory (os error 20)"
  | .longName => "File name too long (os error 36)"
  | .badName => "file name contained an unexpected NUL byte"
  | .notText => "stream did not contain valid UTF-8"
  | .other text => text

end CommandMenu
