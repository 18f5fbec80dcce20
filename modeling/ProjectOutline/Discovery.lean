import ProjectOutline.Language
import ProjectOutline.Report
import ProjectOutline.Store

/-!
Where a project starts, which packages it has, and which of its files are read. All three are told
by the store: the root by the nearest `package.json`, packages by their manifests, and source files
by their extensions.
-/

namespace ProjectOutline.Discovery

def target : String := "exportmap::discover"

def jsManifest : Path := ⟨"package.json"⟩

def pyManifests : List Path := [⟨"setup.py"⟩, ⟨"pyproject.toml"⟩]

def isHidden (name : String) : Bool := name.toList.head? = some '.'

/-- The first of some directories that holds a `package.json`. -/
def firstWithManifest : List Path → Script (Option Path)
  | [] => return none
  | dir :: rest => do
    if ← Script.ask (.present (dir.join jsManifest)) then return some dir
    else firstWithManifest rest

/-- The nearest directory at or above `start` that holds a `package.json`, or `start`. -/
def projectRoot (start : Path) : Script Path := do
  match ← firstWithManifest start.ancestors with
  | some dir => return dir
  | none =>
    Script.log ⟨.debug, target,
      "no package.json above " ++ start.text ++ "; using it as project root", []⟩
    return start

def holdsAny (dir : Path) : List Path → Script Bool
  | [] => return false
  | manifest :: rest => do
    if ← Script.ask (.present (dir.join manifest)) then return true else holdsAny dir rest

/-- The ecosystems whose manifests a directory holds, `js` first. -/
def manifestKinds (dir : Path) : Script (List PackageKind) := do
  let js ← Script.ask (.present (dir.join jsManifest))
  let py ← holdsAny dir pyManifests
  return (if js then [.js] else []) ++ (if py then [.py] else [])

/-- The ecosystems of an entry of the root; none if it is hidden, skipped or no directory. -/
def entryKinds (root : Path) (skip : List String) (name : String) :
    Script (String × List PackageKind) := do
  if isHidden name || skip.contains name then return (name, [])
  else
    let dir := root.join ⟨name⟩
    if ← Script.ask (.isDir dir) then return (name, ← manifestKinds dir) else return (name, [])

def includedPackages (root : Path) (extra : Path) : Script (List Package) := do
  let dir := root.join extra
  if ← Script.ask (.isDir dir) then
    let kinds ← manifestKinds dir
    return kinds.map fun kind => ⟨extra.label, kind⟩
  else return []

/-- The packages of one ecosystem among the entries of the root. -/
def packagesOf (kind : PackageKind) (entries : List (String × List PackageKind)) : List Package :=
  (entries.filter (·.2.contains kind)).map fun entry => ⟨entry.1, kind⟩

/-- The members of a list at the place where they first stand. -/
def firsts {α : Type} [DecidableEq α] (xs : List α) : List α :=
  xs.foldl (fun seen x => if x ∈ seen then seen else seen ++ [x]) []

/-- The names in the root; none if it cannot be listed. -/
def rootNames (root : Path) : Script (List String) := do
  match ← Script.ask (.list root) with
  | .ok names => return names
  | .error reason =>
    Script.log ⟨.warn, target, "cannot list " ++ root.text ++ ": " ++ reason, []⟩
    return []

/-- The packages of a project: the root, then its directories, `js` before `py`, then the included
paths in their order. Repeated packages count once. -/
def packages (root : Path) (included : List Path) (skip : List String) :
    Script (List Package) := do
  let whole ← Script.ask (.present (root.join jsManifest))
  let names ← rootNames root
  let entries ← Script.forEach (entryKinds root skip) names
  let extras ← Script.forEach (includedPackages root) included
  -- Kind by kind, though the entries were asked one by one.
  let found := firsts ((if whole then [⟨".", .js⟩] else []) ++ packagesOf .js entries ++
    packagesOf .py entries ++ extras.flatten)
  Script.log ⟨.info, target, "discovered packages", [("count", .plain (toString found.length))]⟩
  return found

/-- A source file of the scan. -/
structure SourcePath where
  path : Path
  display : String
deriving DecidableEq, Repr

/-- A directory to scan, and the label of the files below it. -/
structure ScanRoot where
  dir : Path
  label : String
deriving DecidableEq, Repr

/-- The directories to scan: the root, then the included ones. -/
def scanRoots (root : Path) (included : List Path) : List ScanRoot :=
  ⟨root, ""⟩ :: included.map fun extra =>
    ⟨root.join extra, if extra.label = "." then "" else extra.label⟩

/-- The files below a directory to scan; none if it is missing or cannot be walked. -/
def filesBelow (skip : List String) (scan : ScanRoot) : Script (ScanRoot × List Path) := do
  if ← Script.ask (.isDir scan.dir) then
    match ← Script.ask (.walk scan.dir skip) with
    | .ok files => return (scan, files)
    | .error reason =>
      Script.log ⟨.warn, target, "cannot walk " ++ scan.dir.text ++ ": " ++ reason, []⟩
      return (scan, [])
  else
    Script.log ⟨.warn, target, "scan path does not exist: " ++ scan.dir.text, []⟩
    return (scan, [])

/-- The path of a file in the report, if it lies below the directory that was scanned. -/
def display? (scan : ScanRoot) (path : Path) : Option String :=
  (path.below? scan.dir).map fun rest =>
    let inner := Path.slashed rest
    if scan.label = "" then inner else scan.label ++ "/" ++ inner

/-- The files seen so far, by their components, and the sources among them. -/
structure Gathered where
  seen : List (List Path.Component)
  sources : List SourcePath
deriving DecidableEq, Repr

/-- Takes one file of the scan: files without a grammar do not count, and a file that was seen from
an earlier directory counts there only. -/
def Gathered.add (scan : ScanRoot) (g : Gathered) (path : Path) : Gathered :=
  if (Grammar.ofPath? path).isNone || g.seen.contains path.components then g
  else
    { seen := g.seen ++ [path.components]
      sources := g.sources ++ ((display? scan path).map (SourcePath.mk path)).toList }

/-- The sources among the files of the directories that were scanned. -/
def gather (found : List (ScanRoot × List Path)) : List SourcePath :=
  let start : Gathered := ⟨[], []⟩
  (found.foldl (fun g item => item.2.foldl (Gathered.add item.1) g) start).sources

/-- The source files below the root and the included paths, each once. -/
def sources (root : Path) (included : List Path) (skip : List String) :
    Script (List SourcePath) := do
  let found ← Script.forEach (filesBelow skip) (scanRoots root included)
  let sources := gather found
  Script.log ⟨.info, target, "collected source files",
    [("count", .plain (toString sources.length))]⟩
  return sources

end ProjectOutline.Discovery
