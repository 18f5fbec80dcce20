import ProjectOutline.Discovery
import ProjectOutline.DocumentFile
import ProjectOutline.SourceOutline

/-!
A whole run: the project root and its configuration are found, source files are scanned and
outlined, the report is built, and the document gets it. A file that cannot be read or parsed is
passed over, and a document that cannot be updated is told in the summary; only an unusable grammar
or configuration ends the run.
-/

namespace ProjectOutline

structure Options where
  /-- Directories to scan beside the configured ones. -/
  included : List Path
  /-- The document, in place of the configured one. -/
  output : Option Path
  /-- Whether the region is printed and nothing is written. -/
  dryRun : Bool
deriving DecidableEq, Repr

/-- What became of the document. -/
inductive DocumentStatus where
  | updated
  | unchanged
  | dryRun
  | failed (reason : String)
deriving DecidableEq, Repr

def DocumentStatus.text : DocumentStatus → String
  | updated => "updated"
  | unchanged => "unchanged"
  | dryRun => "dry run"
  | failed reason => "failed: " ++ reason

/-- What a run did. -/
structure Summary where
  projectRoot : Path
  document : Path
  packages : Nat
  filesScanned : Nat
  filesReported : Nat
  /-- The report, without markers. -/
  generated : String
  status : DocumentStatus
deriving DecidableEq, Repr

namespace Generate

def target : String := "exportmap::commands::generate"

/-- The configuration with what the command line asks for. -/
def configured (config : Config) (options : Options) : Config :=
  { config with
    output := options.output.getD config.output
    included := config.included ++ options.included }

def outline (parser : Parser) (source : Discovery.SourcePath) : Script (Option SourceFile) := do
  match ← SourceOutline.load parser source.path with
  | .ok found =>
    Script.log ⟨.debug, target, "extracted",
      [("file", .plain source.display), ("count", .plain (toString found.declarations.length))]⟩
    return some ⟨source.display, found.language, found.declarations⟩
  | .error failure =>
    let level : Log.Level :=
      match failure with
      | .unsupportedFile _ => .debug
      | _ => .warn
    Script.log ⟨level, target, failure.message, []⟩
    return none

def omissionRecord : Report.Omission → Log.Record
  | .unowned path =>
    ⟨.debug, "exportmap::report", "no package contains file", [("path", .quoted path)]⟩
  | .taken path =>
    ⟨.debug, "exportmap::report", "path already placed; keeping the first entry",
      [("path", .quoted path)]⟩

def logOmissions : List Report.Omission → Script Unit
  | [] => return ()
  | o :: rest => do
    Script.log (omissionRecord o)
    logOmissions rest

/-- Updates the document, or prints the region. -/
def publish (document : Path) (generated : String) (config : Config) (dryRun : Bool) :
    Script DocumentStatus := do
  if dryRun then
    Script.print (config.markers.wrap generated)
    return .dryRun
  else
    match ← DocumentFile.update document generated config with
    | .ok outcome => return if outcome.changed then .updated else .unchanged
    | .error failure =>
      Script.log ⟨.error, target, failure.message, []⟩
      Script.printError failure.message
      return .failed failure.message

/-- Scans a project with its configuration and publishes the report. -/
def scan (parser : Parser) (root : Path) (config : Config) (dryRun : Bool) : Script Summary := do
  let sources ← Discovery.sources root config.included config.skip
  let outlined ← Script.forEach (outline parser) sources
  let entries := outlined.filterMap id
  let packages ← Discovery.packages root config.included config.skip
  logOmissions (Report.omissions entries packages)
  let report := Report.build entries packages
  let generated := report.render
  let document := root.join config.output
  let status ← publish document generated config dryRun
  return {
    projectRoot := root
    document := document
    packages := report.packages.length
    filesScanned := sources.length
    filesReported := report.fileCount
    generated := generated
    status := status }

def generate (parser : Parser) (start : Path) (options : Options) :
    Script (Except Failure Summary) := do
  match parser.load with
  | .error failure => return .error failure
  | .ok _ =>
    Script.log ⟨.debug, "exportmap::syntax::tree_sitter",
      "loaded python, typescript and tsx grammars", []⟩
    let root ← Discovery.projectRoot start
    Script.log ⟨.info, target, "project root: " ++ root.text, []⟩
    match ← Config.load root with
    | .error failure => return .error failure
    | .ok config => return .ok (← scan parser root (configured config options) options.dryRun)

/-- Runs and prints a summary, unless the region was printed. -/
def run (parser : Parser) (start : Path) (options : Options) :
    Script (Except Failure Summary) := do
  match ← generate parser start options with
  | .error failure => return .error failure
  | .ok summary =>
    if !options.dryRun then
      Script.print ("Scanned " ++ toString summary.filesScanned ++ " files, reported " ++
        toString summary.filesReported ++ " across " ++ toString summary.packages ++ " packages")
      Script.print (summary.document.text ++ ": " ++ summary.status.text)
    return .ok summary

end Generate

end ProjectOutline
