/-!
# Failures

What can go wrong outside the texts being parsed. A text that does not parse is no failure: its
problems are the result. Each failure is one constructor with the facts of the case, and `message`
is the only place that puts it into words.
-/

namespace DiagnosticServer

/-- Why the file system refused an operation. -/
inductive FileError where
  /-- Nothing has that name. -/
  | notFound
  /-- The process may not look up names in a directory, or not read a file. -/
  | permissionDenied
  /-- A file stands where a directory is needed. -/
  | notADirectory
  /-- A directory stands where a file is needed. -/
  | isADirectory
  /-- A name of more than 255 octets, or a path of 4096 or more. -/
  | nameTooLong
  /-- Links lead to links too many times. -/
  | tooManyLinks
  /-- The octets of a file are no UTF-8. -/
  | notUtf8
  /-- The path holds the null character. -/
  | nullInName
deriving DecidableEq, Repr

namespace FileError

/-- The words for a refusal. -/
def message : FileError → String
  | notFound => "No such file or directory (os error 2)"
  | permissionDenied => "Permission denied (os error 13)"
  | notADirectory => "Not a directory (os error 20)"
  | isADirectory => "Is a directory (os error 21)"
  | nameTooLong => "File name too long (os error 36)"
  | tooManyLinks => "Too many levels of symbolic links (os error 40)"
  | notUtf8 => "stream did not contain valid UTF-8"
  | nullInName => "file name contained an unexpected NUL byte"

end FileError

/-- Why a request could not be served. -/
inductive Error where
  /-- No parse is started any more. -/
  | schedulerShutdown
  /-- The parse that was waited for was given up. -/
  | taskAbandoned (path : String)
  /-- The URI does not name a file. -/
  | invalidUri (uri : String)
  /-- The file is larger than what is ever read. -/
  | fileTooLarge (size limit : Nat)
  /-- Diagnostics could not be handed to the editor. -/
  | delivery (uri reason : String)
  /-- The file system refused. -/
  | file (cause : FileError)
deriving DecidableEq, Repr

namespace Error

/-- The words for a failure. -/
def message : Error → String
  | schedulerShutdown => "parse scheduler is shut down"
  | taskAbandoned path => s!"parse task for {path} was abandoned before completing"
  | invalidUri uri => s!"not a file URI: {uri}"
  | fileTooLarge size limit => s!"file too large: {size} bytes (max: {limit} bytes)"
  | delivery uri reason => s!"failed to deliver diagnostics for {uri}: {reason}"
  | file cause => s!"I/O error: {cause.message}"

end Error

end DiagnosticServer
