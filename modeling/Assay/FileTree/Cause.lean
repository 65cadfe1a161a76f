namespace Assay

inductive SystemCause where
  | notFound
  | badFormat
  | permissionDenied
  | alreadyExists
  | notADirectory
  | isADirectory
  | nameTooLong
  | nulInName
  | nulInArgument
  | notText
  deriving DecidableEq, Repr

def SystemCause.message : SystemCause → String
  | .notFound => "No such file or directory (os error 2)"
  | .badFormat => "Exec format error (os error 8)"
  | .permissionDenied => "Permission denied (os error 13)"
  | .alreadyExists => "File exists (os error 17)"
  | .notADirectory => "Not a directory (os error 20)"
  | .isADirectory => "Is a directory (os error 21)"
  | .nameTooLong => "File name too long (os error 36)"
  | .nulInName => "file name contained an unexpected NUL byte"
  | .nulInArgument => "nul byte found in provided data"
  | .notText => "stream did not contain valid UTF-8"

end Assay
