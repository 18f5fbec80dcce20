import ProjectOutline.Store

/-!
A tree of files in memory, with the meaning that paths have on a POSIX system: names are bytes, `.`
and `..` and symbolic links are followed while a path is walked, and a trailing slash asks for a
directory. The tree answers the questions of a script.
-/

namespace ProjectOutline

/-- The name of an entry, as bytes. -/
abbrev Name := List UInt8

/-- The names from the root of the tree down to a place. -/
abbrev Location := List Name

inductive Item where
  | file (name : Name) (content : ByteArray)
  | directory (name : Name) (items : List Item)
  | link (name : Name) (target : List UInt8)
deriving Inhabited

namespace Item

def name : Item → Name
  | file name _ | directory name _ | link name _ => name

end Item

/-- Why the tree refuses a request. -/
inductive Refusal where
  | notFound
  | notDirectory
  | isDirectory
  | alreadyExists
  | tooManyLinks
  | nameTooLong
  | nullInPath
  | notText
deriving DecidableEq, Repr

def Refusal.message : Refusal → String
  | notFound => "No such file or directory (os error 2)"
  | notDirectory => "Not a directory (os error 20)"
  | isDirectory => "Is a directory (os error 21)"
  | alreadyExists => "File exists (os error 17)"
  | tooManyLinks => "Too many levels of symbolic links (os error 40)"
  | nameTooLong => "File name too long (os error 36)"
  | nullInPath => "file name contained an unexpected NUL byte"
  | notText => "stream did not contain valid UTF-8"

def bytesOf (s : String) : List UInt8 :=
  s.toUTF8.data.toList

/-- The text that some bytes encode. -/
def textOf? (bytes : List UInt8) : Option String :=
  String.fromUTF8? ⟨bytes.toArray⟩

/-- Whether bytes stand before others in their order, or are the same. -/
def bytesLe : List UInt8 → List UInt8 → Bool
  | [], _ => true
  | _ :: _, [] => false
  | a :: as, b :: bs => a < b || (a == b && bytesLe as bs)

/-- A tree of files and the directory that relative paths start from. -/
structure FileTree where
  items : List Item
  here : Location

namespace FileTree

def find? (items : List Item) (name : Name) : Option Item :=
  items.find? (·.name = name)

def contents? (items : List Item) : Location → Option (List Item)
  | [] => some items
  | name :: rest =>
    match find? items name with
    | some (.directory _ inner) => contents? inner rest
    | _ => none

def modify (f : List Item → List Item) : Location → List Item → List Item
  | [], items => f items
  | name :: rest, items => items.map fun
    | .directory n inner =>
      if n = name then .directory n (modify f rest inner) else .directory n inner
    | other => other

def slash : UInt8 := 47

/-- The names between slashes, with the empty ones. -/
def splitBytes : List UInt8 → List Name
  | [] => [[]]
  | b :: rest =>
    if b = slash then [] :: splitBytes rest
    else
      match splitBytes rest with
      | [] => [[b]]
      | name :: names => (b :: name) :: names

def segments (path : List UInt8) : List Name :=
  (splitBytes path).filter (· ≠ [])

def dot : Name := [46]

def dotDot : Name := [46, 46]

def isRooted (path : List UInt8) : Bool := path.head? = some slash

def endsInSlash (path : List UInt8) : Bool := path.getLast? = some slash

/-- What a path leads to. -/
inductive Target where
  | file (location : Location)
  | directory (location : Location)
  | link (location : Location)
  /-- The directory is there, but nothing of that name in it. -/
  | absent (parent : Location) (name : Name)
deriving DecidableEq, Repr

/-- Walks segments from a directory on. A link at the end is followed if `follow` is set, every
other link always; `links` bounds how many links are followed. -/
def walkSegments (items : List Item) (follow : Bool) (links : Nat) (location : Location) :
    List Name → Except Refusal Target
  | [] => .ok (.directory location)
  | segment :: rest =>
    if segment = dot then walkSegments items follow links location rest
    else if segment = dotDot then walkSegments items follow links location.dropLast rest
    else if 255 < segment.length then .error .nameTooLong
    else
      match (contents? items location).bind (find? · segment) with
      | none => if rest = [] then .ok (.absent location segment) else .error .notFound
      | some (.directory _ _) => walkSegments items follow links (location ++ [segment]) rest
      | some (.file _ _) =>
        if rest = [] then .ok (.file (location ++ [segment])) else .error .notDirectory
      | some (.link _ target) =>
        if rest = [] ∧ ¬ follow then .ok (.link (location ++ [segment]))
        else
          match links with
          | 0 => .error .tooManyLinks
          | links + 1 =>
            if target = [] then .error .notFound
            else
              walkSegments items follow links (if isRooted target then [] else location)
                (segments target ++ (if endsInSlash target then [dot] else []) ++ rest)
termination_by segments => (links, segments.length)

def maxLinks : Nat := 40

def walkFrom (t : FileTree) (path : List UInt8) (follow : Bool) (names : List Name) :
    Except Refusal Target :=
  walkSegments t.items follow maxLinks (if isRooted path then [] else t.here) names

/-- What a path leads to, following links. -/
def resolve (t : FileTree) (p : Path) : Except Refusal Target :=
  let path := bytesOf p.text
  if path = [] then .error .notFound
  else if path.contains 0 then .error .nullInPath
  else walkFrom t path true (segments path ++ if endsInSlash path then [dot] else [])

def isPresent (t : FileTree) (p : Path) : Bool :=
  match t.resolve p with
  | .ok (.absent _ _) => false
  | .ok _ => true
  | .error _ => false

def isDirectory (t : FileTree) (p : Path) : Bool :=
  match t.resolve p with
  | .ok (.directory _) => true
  | _ => false

def content? (items : List Item) (location : Location) : Option ByteArray :=
  match (contents? items location.dropLast).bind fun inner =>
      location.getLast?.bind (find? inner) with
  | some (.file _ content) => some content
  | _ => none

def readBytes (t : FileTree) (p : Path) : Except Refusal ByteArray := do
  match ← t.resolve p with
  | .file location =>
    match content? t.items location with
    | some content => .ok content
    | none => .error .notFound
  | .directory _ => .error .isDirectory
  | .link _ | .absent _ _ => .error .notFound

def readText (t : FileTree) (p : Path) : Except Refusal String := do
  match String.fromUTF8? (← t.readBytes p) with
  | some text => .ok text
  | none => .error .notText

/-- The names in the directory that a path leads to, sorted and without those that are not text. -/
def listNames (t : FileTree) (p : Path) : Except Refusal (List String) := do
  match ← t.resolve p with
  | .directory location =>
    .ok ((((contents? t.items location).getD []).filterMap fun item => textOf? item.name).mergeSort
      fun a b => bytesLe (bytesOf a) (bytesOf b))
  | .file _ => .error .notDirectory
  | .link _ | .absent _ _ => .error .notFound

/-- The directory in which the last of some segments is looked up. -/
def parentOf (t : FileTree) (path : List UInt8) (names : List Name) : Except Refusal Location := do
  match ← walkFrom t path true names.dropLast with
  | .directory location => .ok location
  | .file _ => .error .notDirectory
  | .link _ | .absent _ _ => .error .notFound

def add (t : FileTree) (location : Location) (item : Item) : FileTree :=
  { t with items := modify (· ++ [item]) location t.items }

def makeDirectory (t : FileTree) (p : Path) : Except Refusal FileTree := do
  let path := bytesOf p.text
  if path = [] then .error .notFound
  else if path.contains 0 then .error .nullInPath
  else
    let names := segments path
    match names.getLast? with
    | none => .error .alreadyExists
    | some last =>
      let location ← parentOf t path names
      if last = dot ∨ last = dotDot then .error .alreadyExists
      else if 255 < last.length then .error .nameTooLong
      else if (((contents? t.items location).getD []).any (·.name = last)) then
        .error .alreadyExists
      else .ok (t.add location (.directory last []))

/-- Makes the first of some directories, each the parent of the one before it, and those parents
that are missing. The tree keeps what was made even if a later step is refused. -/
def makeDirectories (t : FileTree) : List Path → Except Refusal Unit × FileTree
  | [] => (.error .notFound, t)
  | p :: above =>
    if p.text = "" then (.ok (), t)
    else
      match t.makeDirectory p with
      | .ok t => (.ok (), t)
      | .error .notFound =>
        match t.makeDirectories above with
        | (.error refusal, t) => (.error refusal, t)
        | (.ok (), t) =>
          match t.makeDirectory p with
          | .ok t => (.ok (), t)
          | .error refusal => (if t.isDirectory p then .ok () else .error refusal, t)
      | .error refusal => (if t.isDirectory p then .ok () else .error refusal, t)

def ensureDirectory (t : FileTree) (p : Path) : Except Refusal Unit × FileTree :=
  t.makeDirectories p.ancestors

/-- Gives a name a content in a directory, as a new file or in place of the old content. -/
def setContent (name : Name) (content : ByteArray) (items : List Item) : List Item :=
  if items.any (·.name = name) then
    items.map fun item => if item.name = name then .file name content else item
  else items ++ [.file name content]

/-- Stores bytes in the file that a path leads to; the directory has to be there. -/
def storeBytes (t : FileTree) (p : Path) (content : ByteArray) : Except Refusal FileTree := do
  let path := bytesOf p.text
  if path = [] then .error .notFound
  else if path.contains 0 then .error .nullInPath
  else
    let names := segments path
    let last := names.getLast?
    if endsInSlash path ∨ last = some dot ∨ last = some dotDot then
      let _ ← parentOf t path names
      .error .isDirectory
    else
      match ← walkFrom t path true names with
      | .file location =>
        match location.getLast? with
        | some name =>
          .ok { t with items := modify (setContent name content) location.dropLast t.items }
        | none => .error .notFound
      | .absent location name =>
        .ok { t with items := modify (setContent name content) location t.items }
      | .directory _ => .error .isDirectory
      | .link _ => .error .notFound

def writeBytes (t : FileTree) (p : Path) (content : ByteArray) : Except Refusal Unit × FileTree :=
  match p.parent? with
  | some parent =>
    match t.ensureDirectory parent with
    | (.ok (), t) => finish t
    | (.error refusal, t) => (.error refusal, t)
  | none => finish t
where
  finish (t : FileTree) : Except Refusal Unit × FileTree :=
    match t.storeBytes p content with
    | .ok t => (.ok (), t)
    | .error refusal => (.error refusal, t)

def isHidden (name : String) : Bool := name.toList.head? = some '.'

mutual

/-- The regular files at and below an entry of the directory `base`. -/
def filesOf (skip : List String) (base : Path) : Item → List Path
  | .file name _ =>
    match textOf? name with
    | some text => if isHidden text then [] else [base.join ⟨text⟩]
    | none => []
  | .directory name items =>
    match textOf? name with
    | some text =>
      if isHidden text || skip.contains text then []
      else ((filesOfAll skip (base.join ⟨text⟩) items).mergeSort
        fun a b => bytesLe a.1 b.1).flatMap (·.2)
    | none => []
  | .link _ _ => []

/-- The regular files at and below each of some entries, under the entry's name. -/
def filesOfAll (skip : List String) (base : Path) : List Item → List (Name × List Path)
  | [] => []
  | item :: rest => (item.name, filesOf skip base item) :: filesOfAll skip base rest

end

/-- The regular files below the directory `root`, in the order of their names. -/
def filesBelow (skip : List String) (root : Path) (items : List Item) : List Path :=
  ((filesOfAll skip root items).mergeSort fun a b => bytesLe a.1 b.1).flatMap (·.2)

def walk (t : FileTree) (root : Path) (skip : List String) : Except String (List Path) :=
  match t.resolve root with
  | .ok (.directory location) => .ok (filesBelow skip root ((contents? t.items location).getD []))
  | _ => .error ("not a directory: " ++ root.text)

/-- The answer of the tree to a question, and the tree after it. -/
def answer : (c : Call) → FileTree → c.Answer × FileTree
  | .read path, t => ((t.readText path).mapError Refusal.message, t)
  | .write path contents, t =>
    let (result, t) := t.writeBytes path contents.toUTF8
    (result.mapError Refusal.message, t)
  | .present path, t => (t.isPresent path, t)
  | .isDir path, t => (t.isDirectory path, t)
  | .list path, t => ((t.listNames path).mapError Refusal.message, t)
  | .walk root skip, t => (t.walk root skip, t)

/-- The tree as a store; it never breaks down. -/
def store : Store FileTree := fun c t =>
  let (answer, t) := answer c t
  (.ok answer, t)

def pathOf (location : Location) : Path :=
  ⟨"/" ++ "/".intercalate (location.map fun name => (textOf? name).getD "\uFFFD")⟩

def canonical? (t : FileTree) (p : Path) : Option Path :=
  match t.resolve p with
  | .ok (.directory location) | .ok (.file location) => some (pathOf location)
  | _ => none

def herePath (t : FileTree) : Path := pathOf t.here

def enter (t : FileTree) (p : Path) : FileTree :=
  match t.resolve p with
  | .ok (.directory location) => { t with here := location }
  | _ => t

def remove (t : FileTree) (p : Path) : FileTree :=
  let path := bytesOf p.text
  match walkFrom t path false (segments path) with
  | .ok (.file location) | .ok (.directory location) | .ok (.link location) =>
    match location.getLast? with
    | some name =>
      { t with items := modify (·.filter fun item => item.name ≠ name) location.dropLast t.items }
    | none => t
  | _ => t

/-- Puts a link into the tree, with the directories above it. -/
def addLink (t : FileTree) (p : Path) (target : String) : FileTree :=
  let t := match p.parent? with
    | some parent => (t.ensureDirectory parent).2
    | none => t
  let path := bytesOf p.text
  match walkFrom t path false (segments path) with
  | .ok (.absent location name) => t.add location (.link name (bytesOf target))
  | _ => t

/-- Puts a file below a directory, and the directories above it that are missing. -/
def plant (content : ByteArray) : List Name → List Item → List Item
  | [], items => items
  | [name], items => setContent name content items
  | name :: next :: rest, items =>
    let inside := match find? items name with
      | some (.directory _ items) => items
      | _ => []
    items.filter (·.name ≠ name) ++ [.directory name (plant content (next :: rest) inside)]

/-- Puts a file at a relative path whose names need not be texts. -/
def addFile (t : FileTree) (path : List UInt8) (content : ByteArray) : FileTree :=
  { t with items := modify (plant content (segments path)) t.here t.items }

mutual

/-- The regular files at and below an entry, hidden ones as well, with their places and contents. -/
def allFilesOf (above : Location) : Item → List (Location × ByteArray)
  | .file name content => [(above ++ [name], content)]
  | .directory name items => allFiles (above ++ [name]) items
  | .link _ _ => []

/-- The regular files of some entries, hidden ones as well, with their places and contents. -/
def allFiles (above : Location) : List Item → List (Location × ByteArray)
  | [] => []
  | item :: rest => allFilesOf above item ++ allFiles above rest

end

/-- The regular files below the directory that relative paths start from. -/
def regularFiles (t : FileTree) : List (Location × ByteArray) :=
  allFiles [] ((contents? t.items t.here).getD [])

/-- An empty tree in which relative paths start at a directory below the root. -/
def emptyAt (location : Location) : FileTree where
  items := nest location
  here := location
where
  nest : Location → List Item
    | [] => []
    | name :: rest => [.directory name (nest rest)]

end FileTree

end ProjectOutline
