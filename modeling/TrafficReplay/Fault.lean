/-
# Faults of files and streams

What can go wrong while a file is opened, read or written, as a cause and not as a text.
`Fault.message` holds the wording.
-/
namespace TrafficReplay

/-- What an operation on a file or a stream can fail with. -/
inductive Fault
  /-- No file of that name exists. -/
  | notFound
  /-- A file stands where the path needs a directory. -/
  | notDirectory
  /-- A directory stands where a file is needed. -/
  | isDirectory
  /-- A name or the whole path is longer than the system allows. -/
  | nameTooLong
  /-- The device has no room left. -/
  | noSpace
  /-- The path holds a NUL character, which no file name can. -/
  | nulInName
  /-- The bytes do not start with the header of a compressed file. -/
  | missingHeader
  /-- The file ends within compressed data. -/
  | incompleteData
  /-- The compressed data follow no rule of the format. -/
  | corruptData
  /-- The file ends within a member's trailer or within the header of a later member. -/
  | unexpectedEnd
  /-- The bytes after a member are no header. -/
  | invalidHeader
  /-- The file name or the comment of a member is longer than a header may hold. -/
  | headerFieldTooLong
  /-- A checksum or a length differs from what was read. -/
  | checksumMismatch
  /-- The program has no right to do what it tries to do. -/
  | permissionDenied
  /-- The medium does not give what it holds. -/
  | inputOutput
  /-- The names in a directory that a search is in cannot be listed. -/
  | unlisted (path : String) (cause : Fault)
  /-- A fault with a wording of its own. -/
  | other (description : String)
  deriving Repr, DecidableEq

/-- The wording of a fault. -/
def Fault.message : Fault → String
  | notFound => "No such file or directory (os error 2)"
  | notDirectory => "Not a directory (os error 20)"
  | isDirectory => "Is a directory (os error 21)"
  | nameTooLong => "File name too long (os error 36)"
  | noSpace => "No space left on device (os error 28)"
  | nulInName => "file name contained an unexpected NUL byte"
  | missingHeader => "missing or invalid gzip header"
  | incompleteData => "incomplete deflate stream"
  | corruptData => "corrupt deflate stream"
  | unexpectedEnd => "unexpected end of file"
  | invalidHeader => "invalid gzip header"
  | headerFieldTooLong => "gzip header field too long"
  | checksumMismatch => "corrupt gzip stream does not have a matching checksum"
  | permissionDenied => "Permission denied (os error 13)"
  | inputOutput => "Input/output error (os error 5)"
  | unlisted path cause =>
    "attempting to read `" ++ path ++ "` resulted in an error: " ++ cause.message
  | other description => description

end TrafficReplay
