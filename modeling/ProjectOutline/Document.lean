import ProjectOutline.Text.Search

/-!
The generated region of a document. A pair of markers delimits it; patching replaces the text from
the opening through the closing marker and keeps all other text as it is. A document without a
region gets one behind its text.
-/

namespace ProjectOutline

/-- The texts that open and close the generated region. -/
structure Markers where
  opening : String
  closing : String
deriving DecidableEq, Repr, Inhabited

namespace Markers

/-- The markers used unless others are configured. -/
def standard : Markers where
  opening := "<!-- BEGIN GENERATED CONTENT -->"
  closing := "<!-- END GENERATED CONTENT -->"

/-- A generated text between the markers, each on a line of its own. -/
def wrap (m : Markers) (generated : String) : String :=
  m.opening ++ "\n" ++ generated ++
    (if generated = "" ∨ Text.endsIn "\n" generated then "" else "\n") ++ m.closing

def scaffold (m : Markers) : String :=
  "# Project Structure\n\nNotes written above or below the generated block are preserved.\n\n" ++
    m.opening ++ "\n" ++ m.closing ++ "\n"

/-- What one closing marker tells about the region. -/
inductive Probe where
  | absent
  | found (start stop : Nat)
  /-- No opening marker stands before this closing marker; the search goes on at `next`. -/
  | retry (next : Nat)
deriving DecidableEq, Repr

/-- Looks at the first closing marker from a position on, and at the last opening marker that is
complete before it. -/
def probe (m : Markers) (text : List Char) (position : Nat) : Probe :=
  match Text.firstAt m.closing.toList (text.drop position) with
  | none => .absent
  | some offset =>
    let stop := position + offset + m.closing.toList.length
    match Text.lastAt m.opening.toList (text.take (position + offset)) with
    | some start => .found start stop
    | none => .retry stop

/-- Searches the region from a position on. -/
def locateFrom (m : Markers) (text : List Char) (position : Nat) : Option (Nat × Nat) :=
  match m.probe text position with
  | .absent => none
  | .found start stop => some (start, stop)
  | .retry next =>
    -- Only an empty closing marker makes no progress, and such a configuration is refused.
    if position < next ∧ next ≤ text.length then m.locateFrom text next else none
termination_by text.length - position

/-- The region of a text: the first closing marker that has an opening marker before it closes it,
and the nearest opening marker before that opens it. -/
def locate (m : Markers) (text : List Char) : Option (Nat × Nat) :=
  m.locateFrom text 0

end Markers

namespace Document

/-- A document after patching. -/
structure Outcome where
  text : String
  /-- Whether the text differs from what is stored. -/
  changed : Bool
deriving DecidableEq, Repr, Inhabited

/-- The line ends that put an empty line behind a text. -/
def gap (text : List Char) : List Char :=
  if text = [] then []
  else if ['\n', '\n'].isSuffixOf text then []
  else if ['\n'].isSuffixOf text then ['\n']
  else ['\n', '\n']

/-- Puts a region in the place of the old one, or behind the text if there is none. -/
def place (m : Markers) (region current : List Char) : List Char × Bool :=
  match m.locate current with
  | some (start, stop) =>
    if (current.take stop).drop start = region then (current, false)
    else (current.take start ++ region ++ current.drop stop, true)
  | none => (current ++ gap current ++ region ++ ['\n'], true)

/-- Replaces the generated region of a document. A missing document starts from `bootstrap` and
always counts as changed. -/
def patch (existing : Option String) (generated : String) (m : Markers) (bootstrap : String) :
    Outcome :=
  let region := (m.wrap generated).toList
  match existing with
  | some current =>
    let (text, changed) := place m region current.toList
    ⟨String.ofList text, changed⟩
  | none => ⟨String.ofList (place m region bootstrap.toList).1, true⟩

end Document

end ProjectOutline
