import ProjectOutline.Declaration
import ProjectOutline.Language
import ProjectOutline.Text.Blank
import ProjectOutline.Text.Search

/-!
The report: one tree of directories and files per package, with the declarations of each file at the
leaves. A file goes to the package with the deepest root that contains it, and the first file at a
place keeps it.
-/

namespace ProjectOutline

/-- The declarations of one source file. -/
structure SourceFile where
  /-- Path below the project root, with slashes. -/
  path : String
  language : Language
  declarations : List Declaration
deriving DecidableEq, Repr, Inhabited

/-- A package inside the project. -/
structure Package where
  /-- Root below the project root; `.` is the project root. -/
  root : String
  kind : PackageKind
deriving DecidableEq, Repr, Inhabited

namespace Package

/-- The root without slashes at its end. -/
def trimmedRoot (p : Package) : String :=
  Text.trimTail '/' p.root

def isWhole (p : Package) : Bool :=
  p.trimmedRoot = "." || p.trimmedRoot = ""

/-- A path seen from the package, if the package contains it. -/
def relative? (p : Package) (path : String) : Option String :=
  if p.isWhole then some path
  else (Text.after? p.trimmedRoot path).bind (Text.after? "/")

/-- How many segments the root has; the project root has none. -/
def depth (p : Package) : Nat :=
  if p.isWhole then 0 else (Text.split '/' p.trimmedRoot).length

end Package

/-- A named entry of a directory of the report. -/
inductive Entry where
  /-- A source file and what it declares. -/
  | file (key : String) (declarations : List Declaration)
  /-- A directory and its entries, in the order in which they came. -/
  | directory (key : String) (entries : List Entry)
deriving Repr, Inhabited

def Entry.key : Entry → String
  | file key _ | directory key _ => key

/-- The entries of a directory, in the order in which they came. -/
abbrev Directory := List Entry

namespace Directory

/-- The first entry of that name. -/
def get? (d : Directory) (key : String) : Option Entry :=
  d.find? (·.key = key)

def lookup? (d : Directory) : List String → Option Entry
  | [] => none
  | [key] => get? d key
  | key :: rest =>
    match get? d key with
    | some (.directory _ entries) => lookup? entries rest
    | _ => none

/-- Gives the first entry of that name, a directory, other contents. -/
def refill (key : String) (contents : Directory) : Directory → Directory
  | [] => []
  | e :: rest =>
    if e.key = key then .directory key contents :: rest else e :: refill key contents rest

/-- Adds an empty directory at the end unless the name is taken. -/
def ensure (d : Directory) (key : String) : Directory :=
  if (get? d key).isSome then d else d ++ [.directory key []]

/-- Places a file at the end of a list of names, making the directories on the way. The flag tells
whether the place was free and no name on the way was a file. -/
def insertFile (d : Directory) (declarations : List Declaration) :
    List String → Directory × Bool
  | [] => (d, false)
  | [leaf] => if (get? d leaf).isSome then (d, false) else (d ++ [.file leaf declarations], true)
  | key :: rest =>
    -- A directory that is made here is empty, so the file cannot be refused below it.
    let d := ensure d key
    match get? d key with
    | some (.directory _ entries) =>
      let (entries, placed) := insertFile entries declarations rest
      (refill key entries d, placed)
    | _ => (d, false)

end Directory

/-- The packages of a project with their trees. -/
structure Report where
  packages : List (Package × Directory)
deriving Repr, Inhabited

namespace Report

/-- The path without the `./` it may begin with, once or more often. -/
def dropDotSlash : List Char → List Char
  | '.' :: '/' :: rest => dropDotSlash rest
  | cs => cs

/-- The path of a file as its package is looked up. -/
def plainPath (path : String) : String :=
  String.ofList (dropDotSlash path.toList)

/-- The segments of a path that are not empty. -/
def segments (path : String) : List String :=
  (Text.split '/' path).filter (· ≠ "")

/-- How well a package fits a file that it contains: by depth, then by ecosystem. -/
structure Rank where
  depth : Nat
  serves : Bool
deriving DecidableEq, Repr

def Rank.beats (a b : Rank) : Bool :=
  b.depth < a.depth || (a.depth == b.depth && a.serves && !b.serves)

/-- A package that contains a file: its position, the path seen from it, and how well it fits. -/
structure Candidate where
  index : Nat
  relative : String
  rank : Rank
deriving DecidableEq, Repr

/-- The better of the best candidate so far and the package at a position. -/
def better (path : String) (language : Language) (best : Option Candidate) (item : Package × Nat) :
    Option Candidate :=
  match item.1.relative? path with
  | none => best
  | some relative =>
    let rank := { depth := item.1.depth, serves := item.1.kind.serves language : Rank }
    match best with
    | none => some ⟨item.2, relative, rank⟩
    | some current => if rank.beats current.rank then some ⟨item.2, relative, rank⟩ else best

/-- The package a file belongs to and the path seen from it: the deepest root wins, then the
ecosystem of the language, then the earlier package. -/
def owner? (packages : List Package) (path : String) (language : Language) :
    Option (Nat × String) :=
  (packages.zipIdx.foldl (better path language) none).map fun c => (c.index, c.relative)

/-- Why a file with declarations is not in the report. -/
inductive Omission where
  /-- No package contains it. -/
  | unowned (path : String)
  /-- Its place is taken. -/
  | taken (path : String)
deriving DecidableEq, Repr

/-- Trees under construction, and the files left out so far. -/
structure Draft where
  trees : List Directory
  omissions : List Omission
deriving Repr

def Draft.place (packages : List Package) (draft : Draft) (entry : SourceFile) : Draft :=
  if entry.declarations = [] then draft
  else
    let path := plainPath entry.path
    match owner? packages path entry.language with
    | none => { draft with omissions := draft.omissions ++ [.unowned path] }
    | some (index, relative) =>
      match draft.trees[index]? with
      | none => draft
      | some tree =>
        let (tree, placed) := Directory.insertFile tree entry.declarations (segments relative)
        { trees := draft.trees.set index tree
          omissions := if placed then draft.omissions else draft.omissions ++ [.taken path] }

/-- The packages of a report: a project without any is one `js` package. -/
def packagesOrWhole (packages : List Package) : List Package :=
  if packages = [] then [⟨".", .js⟩] else packages

def draft (entries : List SourceFile) (packages : List Package) : Draft :=
  entries.foldl (Draft.place packages) ⟨packages.map fun _ => [], []⟩

/-- Groups source files under their packages. Files that declare nothing are left out. -/
def build (entries : List SourceFile) (packages : List Package) : Report :=
  let packages := packagesOrWhole packages
  ⟨packages.zip (draft entries packages).trees⟩

/-- The files with declarations that `build` leaves out, in order. -/
def omissions (entries : List SourceFile) (packages : List Package) : List Omission :=
  (draft entries (packagesOrWhole packages)).omissions

end Report

mutual

def Entry.fileCount : Entry → Nat
  | .file _ _ => 1
  | .directory _ entries => Directory.fileCount entries

def Directory.fileCount : List Entry → Nat
  | [] => 0
  | e :: rest => e.fileCount + Directory.fileCount rest

end

def Report.fileCount (r : Report) : Nat :=
  r.packages.foldr (fun p count => Directory.fileCount p.2 + count) 0

namespace Report

def bullet (depth : Nat) (text : String) : String :=
  String.join (List.replicate depth "  ") ++ "- " ++ text

def declarationLines (depth : Nat) (d : Declaration) : List String :=
  bullet depth d.name :: d.methods.map (bullet (depth + 1))

mutual

def entryLines (depth : Nat) : Entry → List String
  | .file key declarations =>
    bullet depth key :: declarations.flatMap (declarationLines (depth + 1))
  | .directory key entries => bullet depth (key ++ "/") :: directoryLines (depth + 1) entries

def directoryLines (depth : Nat) : List Entry → List String
  | [] => []
  | e :: rest => entryLines depth e ++ directoryLines depth rest

end

def heading (p : Package) : String :=
  "## Package (" ++ p.kind.name ++ "): `" ++ p.root ++ "`"

/-- A package as a heading with a nested list, each followed by an empty line. -/
def packageLines (item : Package × Directory) : List String :=
  heading item.1 :: "" :: (directoryLines 0 item.2 ++ [""])

def lines (r : Report) : List String :=
  r.packages.flatMap packageLines

def render (r : Report) : String :=
  String.join (r.lines.map (· ++ "\n"))

end Report

end ProjectOutline
