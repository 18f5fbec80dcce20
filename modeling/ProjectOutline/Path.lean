import ProjectOutline.Text.Search

/-!
File paths as text with slashes. A path is kept exactly as it was spelled; two spellings name the
same place for the scan when their components agree. Repeated slashes and inner `.` segments do not
count as components, a leading `.` and every `..` do.
-/

namespace ProjectOutline

/-- A path as it was spelled. -/
structure Path where
  text : String
deriving DecidableEq, Repr, Inhabited

namespace Path

/-- One step of a path. -/
inductive Component where
  | root
  /-- A leading `.`. -/
  | current
  /-- A `..` anywhere. -/
  | parent
  | name (text : String)
deriving DecidableEq, Repr, Inhabited

/-- The text a component contributes to a label. -/
def Component.label : Component → String
  | root => "/"
  | current => "."
  | parent => ".."
  | name text => text

/-- The component a segment between slashes stands for, if it counts. -/
def Component.ofSegment? (segment : List Char) : Option Component :=
  if segment = [] ∨ segment = ['.'] then none
  else if segment = ['.', '.'] then some .parent
  else some (.name (String.ofList segment))

def startsAtRoot : List Char → Bool
  | '/' :: _ => true
  | _ => false

/-- The component that stands before the segments: the root or a leading `.`. -/
def leadingComponent (cs : List Char) : List Component :=
  if startsAtRoot cs then [.root]
  else if (Text.splitChars '/' cs).head? = some ['.'] then [.current]
  else []

def componentsOf (cs : List Char) : List Component :=
  leadingComponent cs ++ (Text.splitChars '/' cs).filterMap Component.ofSegment?

def components (p : Path) : List Component :=
  componentsOf p.text.toList

def isAbsolute (p : Path) : Bool :=
  startsAtRoot p.text.toList

/-- `right` seen from `left`: an absolute `right` stands for itself, any other is put behind `left`
with one slash between, unless `left` is empty or ends in a slash already. -/
def join (left right : Path) : Path :=
  if right.isAbsolute then right
  else if left.text = "" ∨ Text.endsIn "/" left.text then ⟨left.text ++ right.text⟩
  else ⟨left.text ++ "/" ++ right.text⟩

/-- The shortest prefix of the spelling that has the first `n` components. -/
def cut (p : Path) (n : Nat) : Path :=
  let cs := p.text.toList
  let wanted := p.components.take n
  match (List.range (cs.length + 1)).find? (fun k => componentsOf (cs.take k) = wanted) with
  | some k => ⟨String.ofList (cs.take k)⟩
  | none => p

/-- How many components stay in every ancestor: the root does. -/
def anchored (p : Path) : Nat :=
  if p.isAbsolute then 1 else 0

/-- The path without its last component; the root and the empty path have no parent. -/
def parent? (p : Path) : Option Path :=
  let n := p.components.length
  if n ≤ p.anchored then none else some (p.cut (n - 1))

def ancestors (p : Path) : List Path :=
  let n := p.components.length
  p :: ((List.range (n - p.anchored)).reverse.map fun k => p.cut (k + p.anchored))

/-- The last component, if it is a name. -/
def fileName? (p : Path) : Option String :=
  match p.components.getLast? with
  | some (.name text) => some text
  | _ => none

/-- The part of a name after its last dot, unless that dot is its first character. -/
def extensionOf? (name : String) : Option String :=
  let cs := name.toList
  match Text.lastAt ['.'] cs with
  | some (n + 1) => some (String.ofList (cs.drop (n + 2)))
  | _ => none

def extension? (p : Path) : Option String :=
  p.fileName?.bind extensionOf?

/-- What follows `lead` in a list of components. -/
def dropLead? (lead whole : List Component) : Option (List Component) :=
  if lead.isPrefixOf whole then some (whole.drop lead.length) else none

/-- The components of `p` below `base`, if `p` lies below it. -/
def below? (p base : Path) : Option (List Component) :=
  dropLead? base.components p.components

/-- The components joined by slashes, without `.` segments. -/
def slashed (cs : List Component) : String :=
  "/".intercalate ((cs.filter (· ≠ .current)).map Component.label)

/-- The label of a path in a report; `.` where nothing is left. -/
def label (p : Path) : String :=
  let text := slashed p.components
  if text = "" then "." else text

def same (p q : Path) : Bool :=
  p.components == q.components

end Path

end ProjectOutline
