import EvilResp.Library.Text

/-!
# Errors

The error values of the proxy with the texts they display.  Parse errors are an
enumeration, so a statement about which errors can occur is a statement about
constructors; the message of each is the source's own.
-/

namespace EvilResp

open Library

/-- The kinds of I/O error of the standard library. -/
inductive ErrorKind where
  | notFound
  | permissionDenied
  | connectionRefused
  | connectionReset
  | hostUnreachable
  | networkUnreachable
  | connectionAborted
  | notConnected
  | addrInUse
  | addrNotAvailable
  | networkDown
  | brokenPipe
  | alreadyExists
  | wouldBlock
  | notADirectory
  | isADirectory
  | directoryNotEmpty
  | readOnlyFilesystem
  | filesystemLoop
  | staleNetworkFileHandle
  | invalidInput
  | invalidData
  | timedOut
  | writeZero
  | storageFull
  | notSeekable
  | quotaExceeded
  | fileTooLarge
  | resourceBusy
  | executableFileBusy
  | deadlock
  | crossesDevices
  | tooManyLinks
  | invalidFilename
  | argumentListTooLong
  | interrupted
  | unsupported
  | unexpectedEof
  | outOfMemory
  | inProgress
  | other
  | uncategorized
deriving DecidableEq

/-- The text of a kind in a record. -/
def ErrorKind.debugName : ErrorKind → String
  | notFound => "NotFound"
  | permissionDenied => "PermissionDenied"
  | connectionRefused => "ConnectionRefused"
  | connectionReset => "ConnectionReset"
  | hostUnreachable => "HostUnreachable"
  | networkUnreachable => "NetworkUnreachable"
  | connectionAborted => "ConnectionAborted"
  | notConnected => "NotConnected"
  | addrInUse => "AddrInUse"
  | addrNotAvailable => "AddrNotAvailable"
  | networkDown => "NetworkDown"
  | brokenPipe => "BrokenPipe"
  | alreadyExists => "AlreadyExists"
  | wouldBlock => "WouldBlock"
  | notADirectory => "NotADirectory"
  | isADirectory => "IsADirectory"
  | directoryNotEmpty => "DirectoryNotEmpty"
  | readOnlyFilesystem => "ReadOnlyFilesystem"
  | filesystemLoop => "FilesystemLoop"
  | staleNetworkFileHandle => "StaleNetworkFileHandle"
  | invalidInput => "InvalidInput"
  | invalidData => "InvalidData"
  | timedOut => "TimedOut"
  | writeZero => "WriteZero"
  | storageFull => "StorageFull"
  | notSeekable => "NotSeekable"
  | quotaExceeded => "QuotaExceeded"
  | fileTooLarge => "FileTooLarge"
  | resourceBusy => "ResourceBusy"
  | executableFileBusy => "ExecutableFileBusy"
  | deadlock => "Deadlock"
  | crossesDevices => "CrossesDevices"
  | tooManyLinks => "TooManyLinks"
  | invalidFilename => "InvalidFilename"
  | argumentListTooLong => "ArgumentListTooLong"
  | interrupted => "Interrupted"
  | unsupported => "Unsupported"
  | unexpectedEof => "UnexpectedEof"
  | outOfMemory => "OutOfMemory"
  | inProgress => "InProgress"
  | other => "Other"
  | uncategorized => "Uncategorized"

/-- An I/O error: its kind and its text. -/
structure IoError where
  kind : ErrorKind
  message : String
deriving DecidableEq

/-- Why a byte string is not one RESP frame. -/
inductive RespError where
  | exceedsSize
  | trailingBytes (offset : Nat)
  | nesting
  | emptyInput
  | nullWithData
  | invalidBoolean
  | negativeBlob
  | negativeAggregate
  | negativeMap
  | truncatedAggregate
  | truncatedBlob
  | blobMissingCrlf
  | invalidInteger (error : IntErrorKind)
  | invalidUtf8 (error : Utf8Error)
  | missingTerminator
  | invalidLength (len : Int)
deriving DecidableEq

/-- The displayed text of a parse error. -/
def RespError.message : RespError → String
  | exceedsSize => "RESP frame exceeds 64 MiB"
  | trailingBytes offset => s!"trailing bytes after RESP frame at offset {offset}"
  | nesting => "RESP nesting exceeds 128 levels"
  | emptyInput => "empty input"
  | nullWithData => "RESP null must not have data"
  | invalidBoolean => "invalid RESP boolean"
  | negativeBlob => "RESP3 blob types cannot have negative length"
  | negativeAggregate => "RESP3 aggregate type cannot have negative length"
  | negativeMap => "RESP3 map-like type cannot have negative length"
  | truncatedAggregate => "truncated RESP aggregate"
  | truncatedBlob => "truncated RESP blob"
  | blobMissingCrlf => "RESP blob missing CRLF"
  | invalidInteger error => s!"invalid integer: {error.message}"
  | invalidUtf8 error => s!"invalid UTF-8 line: {error.message}"
  | missingTerminator => "missing RESP line terminator"
  | invalidLength len => s!"invalid length {len}"

/-- The errors that reach a caller of the proxy's components. -/
inductive AppError where
  | io (error : IoError)
  | resp (error : RespError)
  | evilConfig (message : String)
  | proxy (message : String)
  | protocolFingerprint (message : String)
deriving DecidableEq

/-- The displayed text of an error. -/
def AppError.message : AppError → String
  | io error => "I/O error: " ++ error.message
  | resp error => "RESP parse error: " ++ error.message
  | evilConfig message => "invalid evil configuration: " ++ message
  | proxy message => "invalid proxy response: " ++ message
  | protocolFingerprint message => "invalid protocol fingerprint request: " ++ message

end EvilResp
