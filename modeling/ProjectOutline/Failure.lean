import ProjectOutline.Path

/-!
What can go wrong in a run. Failures of single files are reported and passed over; a failure of the
configuration, of the recording or of the command line ends the run.
-/

namespace ProjectOutline

/-- A cause of failure. -/
inductive Failure where
  /-- A grammar cannot be used. -/
  | grammarUnavailable (grammar reason : String)
  /-- No grammar belongs to the extension of a file. -/
  | unsupportedFile (path : Path)
  | read (path : Path) (reason : String)
  /-- A file yields no syntax tree. -/
  | parse (path : Path)
  | config (path : Path) (reason : String)
  | write (path : Path) (reason : String)
  | recording (reason : String)
  | usage (text : String)
deriving DecidableEq, Repr

def Failure.message : Failure → String
  | grammarUnavailable grammar reason => "failed to load the " ++ grammar ++ " grammar: " ++ reason
  | unsupportedFile path => "unsupported file type: " ++ path.text
  | read path reason => "failed to read " ++ path.text ++ ": " ++ reason
  | parse path => "failed to parse " ++ path.text
  | config path reason => "invalid configuration in " ++ path.text ++ ": " ++ reason
  | write path reason => "failed to write " ++ path.text ++ ": " ++ reason
  | recording reason => "recording failed: " ++ reason
  | usage text => text

end ProjectOutline
