import ProjectOutline.Outline

/-!
# The outline without a walk

The outline is described here by where a node stands, not by how it is reached. A `Site` is a node
below the root with the kinds of its proper ancestors below the root; `sitesBelow` lists all sites
in pre-order. A site is visible if none of these ancestors hides what lies in it, and it stands at
the top if they are all wrappers. `specified` goes through the visible sites from left to right and
adds what each one declares.

No scope occurs in these definitions, and names are told by the texts of the nodes: a name is a text
that is more than blanks, without the blanks around it (`readable?`), and a target binds the
readable variables in its binding parts, at any depth (`introduced`). `Proofs.Outline.Walk` shows
that the walk computes all this.
-/

namespace ProjectOutline

namespace OutlineRules

/-- Whether nodes of a kind hide what lies below them from the outline. -/
def hides (rules : OutlineRules) (kind : String) : Bool :=
  rules.isClass kind || rules.opensScope kind

end OutlineRules

namespace Outline

/-- A node below the root and the kinds of its proper ancestors below the root, the outermost
first. -/
structure Site where
  ancestors : List String
  node : SyntaxTree

mutual

/-- A node and all nodes below it that are more than punctuation, in pre-order. -/
def sites (ancestors : List String) : SyntaxTree → List Site
  | .node kind text named fields children =>
    ⟨ancestors, .node kind text named fields children⟩ :: sitesAll (ancestors ++ [kind]) children

/-- The sites of all nodes of a list that are more than punctuation. -/
def sitesAll (ancestors : List String) : List SyntaxTree → List Site
  | [] => []
  | t :: rest => (if t.named then sites ancestors t else []) ++ sitesAll ancestors rest

end

/-- All sites below a root, in pre-order. -/
def sitesBelow (root : SyntaxTree) : List Site :=
  sitesAll [] root.children

namespace Site

/-- No class, function, method or other scope lies around the site. -/
def isVisible (rules : OutlineRules) (site : Site) : Bool :=
  site.ancestors.all fun kind => !rules.hides kind

/-- Only wrappers lie around the site. -/
def isAtTop (rules : OutlineRules) (site : Site) : Bool :=
  site.ancestors.all rules.isPassthrough

end Site

/-! ## Names -/

/-- The text of a node without the blanks around it, unless there are only blanks. -/
def readable? (t : SyntaxTree) : Option String :=
  (t.text?.filter fun text => !text.toList.all Text.isBlank).map Text.trim

def ownName? (t : SyntaxTree) : Option String :=
  (t.field? "name").bind readable?

/-- Whether a target is a single variable. -/
def isVariable (t : SyntaxTree) : Bool :=
  t.kind = "identifier" || t.kind = "shorthand_property_identifier_pattern"

/-- The parts of a target that bind names: a pair binds its value and a default its left side, not
the key and not the default value. -/
def bindingParts (t : SyntaxTree) : List SyntaxTree :=
  if t.kind = "pair_pattern" then (t.field? "value").toList
  else if t.kind = "assignment_pattern" ∨ t.kind = "object_assignment_pattern" then
    (t.field? "left").toList
  else t.namedChildren

theorem sizeOf_lt_of_mem_children {t part : SyntaxTree} (h : part ∈ t.children) :
    sizeOf part < sizeOf t := by
  obtain ⟨kind, text, named, fields, children⟩ := t
  have hlt := List.sizeOf_lt_of_mem h
  simp only [SyntaxTree.children] at hlt
  simp only [SyntaxTree.node.sizeOf_spec]
  omega

theorem mem_children_of_mem_field? {t part : SyntaxTree} {name : String}
    (h : part ∈ (t.field? name).toList) : part ∈ t.children := by
  obtain ⟨i, -, hi⟩ := Option.bind_eq_some_iff.mp (Option.mem_toList.mp h)
  exact List.mem_of_getElem? hi

theorem mem_children_of_mem_bindingParts {t part : SyntaxTree} (h : part ∈ bindingParts t) :
    part ∈ t.children := by
  rw [bindingParts] at h
  split at h
  · exact mem_children_of_mem_field? h
  · split at h
    · exact mem_children_of_mem_field? h
    · exact (List.mem_filter.mp h).1

/-- The names that a target introduces, from left to right. -/
def introduced (t : SyntaxTree) : List String :=
  if isVariable t then (readable? t).toList
  else (bindingParts t).attach.flatMap fun ⟨part, _⟩ => introduced part
termination_by sizeOf t
decreasing_by exact sizeOf_lt_of_mem_children (mem_children_of_mem_bindingParts ‹_›)

/-! ## Declarations -/

/-- The methods of a class: the method nodes among the children of its body, in Python also the
definition inside a decorated child. -/
def methodNodes (language : Language) (t : SyntaxTree) : List SyntaxTree :=
  ((t.field? "body").toList.flatMap SyntaxTree.namedChildren).filterMap fun child =>
    (if language = .python ∧ child.kind = "decorated_definition" then child.field? "definition"
    else some child).filter fun t => (OutlineRules.ofLanguage language).isMethod t.kind

/-- The record of a class: its name, or the stand-in for a missing or blank one, and the methods
that have a name. -/
def classDeclaration (language : Language) (t : SyntaxTree) : Declaration :=
  .classDef ((ownName? t).getD "UnnamedClass") ((methodNodes language t).filterMap ownName?)

/-- The names that the declarators of a variable declaration bind. -/
def bindingNames (language : Language) (t : SyntaxTree) : List String :=
  (t.namedChildren.filter (·.kind = (OutlineRules.ofLanguage language).declarator)).flatMap
    fun declarator => (declarator.field? "name").toList.flatMap introduced

/-- The names of the bare identifiers of an export. -/
def exportedNames (t : SyntaxTree) : List String :=
  (t.namedChildren.filter (·.kind = "identifier")).filterMap readable?

/-- Adds what a site declares to the records so far. An export adds the names that no record has
yet. -/
def Site.declare (language : Language) (out : List Declaration) (site : Site) :
    List Declaration :=
  let rules := OutlineRules.ofLanguage language
  let t := site.node
  if rules.isClass t.kind then out ++ [classDeclaration language t]
  else if rules.isFunction t.kind then out ++ (ownName? t).toList.map Declaration.function
  else if site.isAtTop rules ∧ rules.isBinding t.kind then
    out ++ (bindingNames language t).map Declaration.function
  else if site.isAtTop rules ∧ rules.isExport t.kind then
    (exportedNames t).foldl
      (fun out name => if name ∈ out.map Declaration.name then out else out ++ [.function name]) out
  else out

/-- The records after a list of sites, from those so far. -/
def declareAll (language : Language) (sites : List Site) (out : List Declaration) :
    List Declaration :=
  (sites.filter (Site.isVisible (OutlineRules.ofLanguage language))).foldl
    (Site.declare language) out

/-- The outline as a fold over the visible sites. -/
def specified (language : Language) (root : SyntaxTree) : List Declaration :=
  declareAll language (sitesBelow root) []

end Outline

end ProjectOutline
