/-!
Why a request to the system fails, and how a failure is worded. File requests and process
requests word the same cause differently: the former give its number, the latter its symbol.
-/

namespace PipelineShell

/-- A cause that the system reports. -/
inductive Errno where
  | notPermitted
  | noEntry
  | noProcess
  | interrupted
  | noDevice
  | argumentListTooLong
  | execFormat
  | badDescriptor
  | noChild
  | tryAgain
  | outOfMemory
  | accessDenied
  | busy
  | fileExists
  | notDirectory
  | isDirectory
  | invalidArgument
  | tooManyFilesInSystem
  | tooManyFiles
  | textBusy
  | fileTooLarge
  | noSpace
  | illegalSeek
  | brokenPipe
  | outOfRange
  | nameTooLong
  | notEmpty
  | tooManyLinks
deriving DecidableEq, Repr

namespace Errno

def number : Errno → Nat
  | .notPermitted => 1
  | .noEntry => 2
  | .noProcess => 3
  | .interrupted => 4
  | .noDevice => 6
  | .argumentListTooLong => 7
  | .execFormat => 8
  | .badDescriptor => 9
  | .noChild => 10
  | .tryAgain => 11
  | .outOfMemory => 12
  | .accessDenied => 13
  | .busy => 16
  | .fileExists => 17
  | .notDirectory => 20
  | .isDirectory => 21
  | .invalidArgument => 22
  | .tooManyFilesInSystem => 23
  | .tooManyFiles => 24
  | .textBusy => 26
  | .fileTooLarge => 27
  | .noSpace => 28
  | .illegalSeek => 29
  | .brokenPipe => 32
  | .outOfRange => 34
  | .nameTooLong => 36
  | .notEmpty => 39
  | .tooManyLinks => 40

def symbol : Errno → String
  | .notPermitted => "EPERM"
  | .noEntry => "ENOENT"
  | .noProcess => "ESRCH"
  | .interrupted => "EINTR"
  | .noDevice => "ENXIO"
  | .argumentListTooLong => "E2BIG"
  | .execFormat => "ENOEXEC"
  | .badDescriptor => "EBADF"
  | .noChild => "ECHILD"
  | .tryAgain => "EAGAIN"
  | .outOfMemory => "ENOMEM"
  | .accessDenied => "EACCES"
  | .busy => "EBUSY"
  | .fileExists => "EEXIST"
  | .notDirectory => "ENOTDIR"
  | .isDirectory => "EISDIR"
  | .invalidArgument => "EINVAL"
  | .tooManyFilesInSystem => "ENFILE"
  | .tooManyFiles => "EMFILE"
  | .textBusy => "ETXTBSY"
  | .fileTooLarge => "EFBIG"
  | .noSpace => "ENOSPC"
  | .illegalSeek => "ESPIPE"
  | .brokenPipe => "EPIPE"
  | .outOfRange => "ERANGE"
  | .nameTooLong => "ENAMETOOLONG"
  | .notEmpty => "ENOTEMPTY"
  | .tooManyLinks => "ELOOP"

def text : Errno → String
  | .notPermitted => "Operation not permitted"
  | .noEntry => "No such file or directory"
  | .noProcess => "No such process"
  | .interrupted => "Interrupted system call"
  | .noDevice => "No such device or address"
  | .argumentListTooLong => "Argument list too long"
  | .execFormat => "Exec format error"
  | .badDescriptor => "Bad file descriptor"
  | .noChild => "No child processes"
  | .tryAgain => "Resource temporarily unavailable"
  | .outOfMemory => "Cannot allocate memory"
  | .accessDenied => "Permission denied"
  | .busy => "Device or resource busy"
  | .fileExists => "File exists"
  | .notDirectory => "Not a directory"
  | .isDirectory => "Is a directory"
  | .invalidArgument => "Invalid argument"
  | .tooManyFilesInSystem => "Too many open files in system"
  | .tooManyFiles => "Too many open files"
  | .textBusy => "Text file busy"
  | .fileTooLarge => "File too large"
  | .noSpace => "No space left on device"
  | .illegalSeek => "Illegal seek"
  | .brokenPipe => "Broken pipe"
  | .outOfRange => "Numerical result out of range"
  | .nameTooLong => "File name too long"
  | .notEmpty => "Directory not empty"
  | .tooManyLinks => "Too many levels of symbolic links"

def processText : Errno → String
  | .badDescriptor => "Bad file number"
  | .tryAgain => "Try again"
  | .outOfMemory => "Out of memory"
  | .tooManyFilesInSystem => "File table overflow"
  | errno => errno.text

def processMessage (errno : Errno) : String :=
  errno.symbol ++ ": " ++ errno.processText

def fileMessage (errno : Errno) : String :=
  errno.text ++ " (os error " ++ toString errno.number ++ ")"

end Errno

/-- A cause for which a request fails that is made again whenever a signal breaks it off. -/
structure LastingErrno where
  errno : Errno
  lasting : errno ≠ .interrupted
deriving DecidableEq, Repr

/-- Why a path cannot be used. -/
inductive PathFault where
  /-- The system refused it. -/
  | refused (errno : Errno)
  /-- It holds a NUL character, so that no request can name it. -/
  | holdsNul
deriving DecidableEq, Repr

def PathFault.message : PathFault → String
  | .refused errno => errno.fileMessage
  | .holdsNul => "file name contained an unexpected NUL byte"

end PipelineShell
