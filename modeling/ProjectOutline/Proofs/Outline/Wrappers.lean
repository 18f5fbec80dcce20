import Mathlib.Data.List.Forall2
import ProjectOutline.Proofs.Outline.Patterns

/-!
# Wrappers do not show

A decorated definition is outlined as the definition, and an exported statement as the statement.
For decorators two parts of the program have to agree. The walk keeps its scope when it passes a
wrapper (`visit_of_decorates`), and the methods of a class are looked up through the wrapper
(`methodName?_of_decorates`). A tree may be decorated at many places at once, in a class and around
it, and in control flow at any depth: `Redecorated` relates a node in a module scope to what it
becomes, `Redecorated.Member` does so in the body of a class.

Exports read the records so far, but only for the sake of bare identifiers, and a wrapper around
anything else has none (`visit_of_exports`).
-/

namespace ProjectOutline

/-- The node with other children. -/
def SyntaxTree.withChildren (t : SyntaxTree) (children : List SyntaxTree) : SyntaxTree :=
  .node t.kind t.text? t.named t.fields children

section WithChildren

variable (t : SyntaxTree) (children : List SyntaxTree)

@[simp]
theorem SyntaxTree.kind_withChildren : (t.withChildren children).kind = t.kind := rfl

@[simp]
theorem SyntaxTree.text?_withChildren : (t.withChildren children).text? = t.text? := rfl

@[simp]
theorem SyntaxTree.named_withChildren : (t.withChildren children).named = t.named := rfl

@[simp]
theorem SyntaxTree.fields_withChildren : (t.withChildren children).fields = t.fields := rfl

@[simp]
theorem SyntaxTree.children_withChildren : (t.withChildren children).children = children := rfl

end WithChildren

namespace Outline

/-! ## Decorated trees -/

/-- No class and no function is declared at a node of the tree, at any depth. -/
def Undeclaring (t : SyntaxTree) : Prop :=
  ∀ site ∈ sites [] t, OutlineRules.python.declares site.node.kind = false

instance (t : SyntaxTree) : Decidable (Undeclaring t) :=
  inferInstanceAs (Decidable (∀ site ∈ sites [] t,
    OutlineRules.python.declares site.node.kind = false))

/-- The definition of a function or a class with decorators around it. The field `definition` of the
wrapper leads to the definition. Its other children declare nothing; punctuation may be anything. -/
inductive Decorates (t : SyntaxTree) : SyntaxTree → Prop where
  | wrapper (hkind : t.kind = "function_definition" ∨ t.kind = "class_definition")
      (hnamed : t.named = true) (text : Option String) {fields : List (String × Nat)}
      {before after : List SyntaxTree} (hfield : fields.lookup "definition" = some before.length)
      (hothers : ∀ other ∈ before ++ after, other.named = true → Undeclaring other) :
      Decorates t (.node "decorated_definition" text true fields (before ++ t :: after))

/-- What a child of the body of a class becomes: itself, or itself with decorators. -/
inductive Redecorated.Member : SyntaxTree → SyntaxTree → Prop where
  | kept (t : SyntaxTree) : Member t t
  | decorated {t wrapper : SyntaxTree} (h : Decorates t wrapper) : Member t wrapper

mutual

/-- What a node in a module scope becomes when some of the definitions at and below it that stand
in a module scope, or directly in the body of a class there, get decorators. -/
inductive Redecorated : SyntaxTree → SyntaxTree → Prop where
  | kept (t : SyntaxTree) : Redecorated t t
  /-- Control flow and the blocks in it. -/
  | inside {t : SyntaxTree} {children : List SyntaxTree}
      (hshows : OutlineRules.python.hides t.kind = false)
      (h : RedecoratedAll t.children children) : Redecorated t (t.withChildren children)
  /-- A class, by its body. -/
  | members {t body : SyntaxTree} {i : Nat} {members : List SyntaxTree}
      (hkind : t.kind = "class_definition") (hfield : t.fields.lookup "body" = some i)
      (hbody : t.children[i]? = some body)
      (h : List.Forall₂ Redecorated.Member body.children members) :
      Redecorated t (t.withChildren (t.children.set i (body.withChildren members)))
  /-- A definition, after changes inside of it. -/
  | decorated {t inner wrapper : SyntaxTree} (h : Redecorated t inner)
      (hwrapper : Decorates inner wrapper) : Redecorated t wrapper

/-- The same for the nodes of a list, one by one. -/
inductive RedecoratedAll : List SyntaxTree → List SyntaxTree → Prop where
  | nil : RedecoratedAll [] []
  | cons {t t' : SyntaxTree} {rest rest' : List SyntaxTree} (h : Redecorated t t')
      (hrest : RedecoratedAll rest rest') : RedecoratedAll (t :: rest) (t' :: rest')

end

/-! ## The walk passes a wrapper -/

theorem visitAll_append (rules : OutlineRules) (scope : Scope) (front back : List SyntaxTree)
    (out : List Declaration) :
    visitAll rules scope (front ++ back) out =
      visitAll rules scope back (visitAll rules scope front out) := by
  induction front generalizing out with
  | nil => rfl
  | cons t rest ih => rw [List.cons_append, visitAll, visitAll, ih]

mutual

/-- The walk adds nothing for a tree without declarations. -/
theorem visit_of_undeclaring {ancestors : List String} {scope : Scope} :
    ∀ (t : SyntaxTree) (out : List Declaration),
      (∀ site ∈ sites ancestors t, OutlineRules.python.declares site.node.kind = false) →
        visit OutlineRules.python scope t out = out
  | .node kind text named fields children, out, h => by
    rw [sites] at h
    have hkind := h _ List.mem_cons_self
    have hbelow : ∀ (below : Scope) (out : List Declaration),
        visitAll OutlineRules.python below children out = out := fun below out =>
      visitAll_of_undeclaring children out fun site hsite => h site (List.mem_cons_of_mem _ hsite)
    have hclass : OutlineRules.python.isClass kind = false := (Bool.or_eq_false_iff.mp hkind).1
    have hfunction : OutlineRules.python.isFunction kind = false :=
      (Bool.or_eq_false_iff.mp hkind).2
    have hbinding : OutlineRules.python.isBinding kind = false := rfl
    have hexport : OutlineRules.python.isExport kind = false := rfl
    simp [visit, hclass, hfunction, hbinding, hexport, hbelow]

theorem visitAll_of_undeclaring {ancestors : List String} {scope : Scope} :
    ∀ (ts : List SyntaxTree) (out : List Declaration),
      (∀ site ∈ sitesAll ancestors ts, OutlineRules.python.declares site.node.kind = false) →
        visitAll OutlineRules.python scope ts out = out
  | [], _, _ => rfl
  | t :: rest, out, h => by
    rw [sitesAll] at h
    rw [visitAll, visitAll_of_undeclaring rest _ fun site hsite =>
      h site (List.mem_append_right _ hsite)]
    split
    · next hnamed =>
      apply visit_of_undeclaring t out
      intro site hsite
      exact h site (List.mem_append_left _ (by rwa [if_pos hnamed]))
    · rfl

end

/-- A list of trees without declarations adds nothing. -/
theorem visitAll_of_forall_undeclaring {scope : Scope} {ts : List SyntaxTree}
    (h : ∀ t ∈ ts, t.named = true → Undeclaring t) (out : List Declaration) :
    visitAll OutlineRules.python scope ts out = out := by
  apply @visitAll_of_undeclaring [] scope ts out
  intro site hsite
  obtain ⟨t, ht, hsite⟩ := mem_sitesAll_iff.mp hsite
  obtain ⟨hmem, hnamed⟩ := List.mem_filter.mp ht
  exact h t hmem hnamed site hsite

/-- The walk finds in a decorated definition what it finds in the definition. -/
theorem visit_of_decorates {t wrapper : SyntaxTree} (h : Decorates t wrapper) (scope : Scope)
    (out : List Declaration) :
    visit OutlineRules.python scope wrapper out = visit OutlineRules.python scope t out := by
  cases h with
  | @wrapper hkind hnamed text fields before after hfield hothers =>
    have hbefore : ∀ out, visitAll OutlineRules.python scope before out = out := fun out =>
      visitAll_of_forall_undeclaring (fun other hother =>
        hothers other (List.mem_append_left _ hother)) out
    have hafter : ∀ out, visitAll OutlineRules.python scope after out = out := fun out =>
      visitAll_of_forall_undeclaring (fun other hother =>
        hothers other (List.mem_append_right _ hother)) out
    have hclass : OutlineRules.python.isClass "decorated_definition" = false := by decide
    have hscope : OutlineRules.python.opensScope "decorated_definition" = false := by decide
    have hwrapper : OutlineRules.python.isPassthrough "decorated_definition" = true := by decide
    have hbinding : OutlineRules.python.isBinding "decorated_definition" = false := rfl
    have hexport : OutlineRules.python.isExport "decorated_definition" = false := rfl
    simp only [visit, hclass, hscope, hwrapper, hbinding, hexport, Bool.false_eq_true, if_false,
      if_true, and_false]
    rw [visitAll_append, hbefore, visitAll, if_pos hnamed, hafter]

theorem Decorates.named {t wrapper : SyntaxTree} (h : Decorates t wrapper) :
    wrapper.named = t.named := by
  cases h with
  | wrapper hkind hnamed => exact hnamed.symm

/-! ## The members of a class -/

/-- A method is found behind its decorators, and nothing else is. -/
theorem methodName?_of_decorates {t wrapper : SyntaxTree} (h : Decorates t wrapper) :
    methodName? OutlineRules.python wrapper = methodName? OutlineRules.python t := by
  cases h with
  | @wrapper hkind hnamed text fields before after hfield hothers =>
    have hmethod : OutlineRules.python.isMethod "decorated_definition" = false := by decide
    have hwrapper : OutlineRules.python.isPassthrough "decorated_definition" = true := by decide
    have hwrapped : OutlineRules.python.wrappedField = some "definition" := rfl
    have houter : (SyntaxTree.node "decorated_definition" text true fields
        (before ++ t :: after)).kind = "decorated_definition" := rfl
    have hinner : (SyntaxTree.node "decorated_definition" text true fields
        (before ++ t :: after)).field? "definition" = some t := by
      simp [SyntaxTree.field?, SyntaxTree.fields, SyntaxTree.children, hfield]
    have hbare : OutlineRules.python.isPassthrough t.kind = false := by
      rcases hkind with hkind | hkind <;> rw [hkind] <;> decide
    simp [methodName?, houter, hmethod, hwrapper, hwrapped, hinner, hbare]

theorem Redecorated.Member.named {t t' : SyntaxTree} (h : Member t t') : t'.named = t.named := by
  cases h with
  | kept => rfl
  | decorated hwrapper => exact hwrapper.named

theorem Redecorated.Member.methodName? {t t' : SyntaxTree} (h : Member t t') :
    methodName? OutlineRules.python t' = Outline.methodName? OutlineRules.python t := by
  cases h with
  | kept => rfl
  | decorated hwrapper => exact methodName?_of_decorates hwrapper

/-- The methods of a class are the same with decorators around some of them. -/
theorem filterMap_methodName?_of_members {ts ts' : List SyntaxTree}
    (h : List.Forall₂ Redecorated.Member ts ts') :
    (ts'.filter SyntaxTree.named).filterMap (methodName? OutlineRules.python) =
      (ts.filter SyntaxTree.named).filterMap (methodName? OutlineRules.python) := by
  induction h with
  | nil => rfl
  | @cons t t' rest rest' hmember _ ih =>
    simp only [List.filter_cons, hmember.named]
    split
    · simp only [List.filterMap_cons, hmember.methodName?, ih]
    · exact ih

/-- A class has the same record when its body gets other members, as far as these have the same
methods. -/
theorem classRecord_of_members {t body : SyntaxTree} {i : Nat} {members : List SyntaxTree}
    (hfield : t.fields.lookup "body" = some i) (hbody : t.children[i]? = some body)
    (h : List.Forall₂ Redecorated.Member body.children members) :
    classRecord OutlineRules.python
        (t.withChildren (t.children.set i (body.withChildren members))) =
      classRecord OutlineRules.python t := by
  have hlength : i < t.children.length := (List.getElem?_eq_some_iff.mp hbody).1
  have hfieldName : OutlineRules.python.bodyField = "body" := rfl
  have hname : nameOf? (t.withChildren (t.children.set i (body.withChildren members))) =
      nameOf? t := by
    -- The name may be looked up in the body itself, which keeps its text.
    simp only [nameOf?, SyntaxTree.field?, SyntaxTree.fields_withChildren,
      SyntaxTree.children_withChildren]
    cases t.fields.lookup "name" with
    | none => rfl
    | some j =>
      by_cases hj : i = j
      · subst hj
        rw [Option.bind_some, Option.bind_some, List.getElem?_set_self hlength, hbody]
        rfl
      · simp [List.getElem?_set_ne hj]
  have hmethods : (body.withChildren members).namedChildren.filterMap
      (methodName? OutlineRules.python) =
        body.namedChildren.filterMap (methodName? OutlineRules.python) :=
    filterMap_methodName?_of_members h
  have hbody' : (t.withChildren (t.children.set i (body.withChildren members))).field? "body" =
      some (body.withChildren members) := by
    simp [SyntaxTree.field?, hfield, hlength]
  have hbody'' : t.field? "body" = some body := by
    simp [SyntaxTree.field?, hfield, hbody]
  simp only [classRecord, hfieldName, hname, hbody', hbody'', hmethods]

/-! ## Trees that are decorated at many places -/

/-- The walk over a class in a module scope. -/
theorem visit_of_class {t : SyntaxTree} (hkind : t.kind = "class_definition") {scope : Scope}
    (hmodule : scope.isModule = true) (out : List Declaration) :
    visit OutlineRules.python scope t out = out ++ [classRecord OutlineRules.python t] := by
  obtain ⟨kind, text, named, fields, children⟩ := t
  obtain rfl : kind = "class_definition" := hkind
  have hclass : OutlineRules.python.isClass "class_definition" = true := by decide
  simp only [visit, hclass, hmodule, if_true]
  split
  · exact visitBelowAt_inner rfl _ children _
  · rfl

/-- The walk goes below a node that hides nothing, whatever its fields are. -/
theorem visit_of_not_hides {t : SyntaxTree} (hshows : OutlineRules.python.hides t.kind = false)
    (scope : Scope) (out : List Declaration) :
    visit OutlineRules.python scope t out =
      visitAll OutlineRules.python
        (if OutlineRules.python.isPassthrough t.kind then scope else scope.nested)
        t.children out := by
  obtain ⟨kind, text, named, fields, children⟩ := t
  change OutlineRules.python.hides kind = false at hshows
  change _ = visitAll _ (if OutlineRules.python.isPassthrough kind then _ else _) children out
  obtain ⟨hclass, hscope⟩ := Bool.or_eq_false_iff.mp hshows
  have hbinding : OutlineRules.python.isBinding kind = false := rfl
  have hexport : OutlineRules.python.isExport kind = false := rfl
  simp only [visit, hclass, hscope, hbinding, hexport, Bool.false_eq_true, if_false, and_false]
  split <;> rfl

theorem Redecorated.named {t t' : SyntaxTree} : Redecorated t t' → t'.named = t.named
  | .kept _ => rfl
  | .inside _ _ => rfl
  | .members _ _ _ _ => rfl
  | .decorated h hwrapper => hwrapper.named.trans h.named

mutual

/-- The walk finds the same in a tree and in one that it becomes by decorators. -/
theorem visit_of_redecorated {t t' : SyntaxTree} :
    Redecorated t t' → ∀ (scope : Scope) (out : List Declaration),
      visit OutlineRules.python scope t' out = visit OutlineRules.python scope t out
  | .kept _, _, _ => rfl
  | .inside hshows h, scope, out => by
    rw [visit_of_not_hides hshows, visit_of_not_hides (by exact hshows)]
    exact visitAll_of_redecorated h _ out
  | .members hkind hfield hbody h, scope, out => by
    cases hmodule : scope.isModule with
    | true =>
      rw [visit_of_class hkind hmodule, visit_of_class (by exact hkind) hmodule,
        classRecord_of_members hfield hbody h]
    | false => rw [visit_inner hmodule, visit_inner hmodule]
  | .decorated h hwrapper, scope, out => by
    rw [visit_of_decorates hwrapper, visit_of_redecorated h]

theorem visitAll_of_redecorated {ts ts' : List SyntaxTree} :
    RedecoratedAll ts ts' → ∀ (scope : Scope) (out : List Declaration),
      visitAll OutlineRules.python scope ts' out = visitAll OutlineRules.python scope ts out
  | .nil, _, _ => rfl
  | .cons h hrest, scope, out => by
    rw [visitAll, visitAll, h.named, visit_of_redecorated h, visitAll_of_redecorated hrest]

end

/-! ## Exported statements -/

/-- An export of something that is no bare identifier, and of nothing else. -/
structure Exports (t wrapper : SyntaxTree) : Prop where
  kind : wrapper.kind = "export_statement"
  named : wrapper.named = true
  only : wrapper.namedChildren = [t]
  proper : t.kind ≠ "identifier"

/-- What a child of the root becomes: itself, or itself in an export. -/
def Reexported (t t' : SyntaxTree) : Prop :=
  t' = t ∨ Exports t t'

theorem visitAll_filter_named (rules : OutlineRules) (scope : Scope) (ts : List SyntaxTree)
    (out : List Declaration) :
    visitAll rules scope (ts.filter SyntaxTree.named) out = visitAll rules scope ts out := by
  induction ts generalizing out with
  | nil => rfl
  | cons t rest ih =>
    by_cases hnamed : t.named = true
    · rw [List.filter_cons_of_pos hnamed, visitAll, visitAll, ih]
    · rw [List.filter_cons_of_neg hnamed, visitAll, if_neg hnamed, ih]

theorem Exports.named_only {t wrapper : SyntaxTree} (h : Exports t wrapper) : t.named = true := by
  have hmem : t ∈ wrapper.namedChildren := by
    rw [h.only]
    exact List.mem_singleton.mpr rfl
  exact (List.mem_filter.mp hmem).2

/-- At the top, the walk finds in an export what it finds in the statement. -/
theorem visit_of_exports {t wrapper : SyntaxTree} (h : Exports t wrapper)
    (out : List Declaration) :
    visit OutlineRules.javascript .topLevel wrapper out =
      visit OutlineRules.javascript .topLevel t out := by
  have hadded : addExported wrapper out = out := by
    simp [addExported, h.only, h.proper]
  have honly := h.only
  obtain ⟨kind, text, named, fields, children⟩ := wrapper
  obtain rfl : kind = "export_statement" := h.kind
  have hclass : OutlineRules.javascript.isClass "export_statement" = false := by decide
  have hscope : OutlineRules.javascript.opensScope "export_statement" = false := by decide
  have hbinding : OutlineRules.javascript.isBinding "export_statement" = false := by decide
  have hwrapper : OutlineRules.javascript.isPassthrough "export_statement" = true := by decide
  have hexport : OutlineRules.javascript.isExport "export_statement" = true := by decide
  simp only [visit, hclass, hscope, hbinding, hwrapper, hexport, hadded, Bool.false_eq_true,
    if_false, if_true, and_false, and_self]
  rw [← visitAll_filter_named]
  rw [SyntaxTree.namedChildren, SyntaxTree.children] at honly
  rw [honly, visitAll, if_pos h.named_only, visitAll]

theorem visitAll_of_reexported {ts ts' : List SyntaxTree} (h : List.Forall₂ Reexported ts ts')
    (out : List Declaration) :
    visitAll OutlineRules.javascript .topLevel ts' out =
      visitAll OutlineRules.javascript .topLevel ts out := by
  induction h generalizing out with
  | nil => rfl
  | @cons t t' rest rest' hfirst _ ih =>
    rw [visitAll, visitAll, ih]
    rcases hfirst with rfl | hexports
    · rfl
    · rw [if_pos hexports.named, if_pos hexports.named_only, visit_of_exports hexports]

/-! ## The outline -/

theorem extract_withChildren (language : Language) (root : SyntaxTree)
    (children : List SyntaxTree) :
    extract language (root.withChildren children) =
      visitAll (OutlineRules.ofLanguage language) .topLevel children [] := by
  rw [extract, SyntaxTree.withChildren, visitBelow]

/-- **Wrappers do not show in an outline.** In a Python tree, any functions and classes that stand
at module level, in control flow there, or directly in a class there may get decorators. In a
JavaScript tree, any statements may be exported, except bare identifiers. The outline stays the
same, with the methods of its classes. -/
theorem wrappers_do_not_show :
    (∀ (root : SyntaxTree) (children : List SyntaxTree), RedecoratedAll root.children children →
      extract .python (root.withChildren children) = extract .python root) ∧
    ∀ (root : SyntaxTree) (children : List SyntaxTree),
      List.Forall₂ Reexported root.children children →
        extract .javascript (root.withChildren children) = extract .javascript root := by
  constructor
  · intro root children h
    obtain ⟨kind, text, named, fields, before⟩ := root
    rw [extract_withChildren, extract, visitBelow]
    exact visitAll_of_redecorated h .topLevel []
  · intro root children h
    obtain ⟨kind, text, named, fields, before⟩ := root
    rw [extract_withChildren, extract, visitBelow]
    exact visitAll_of_reexported h []

/-- A definition of which only the name is told. -/
def definition (kind name : String) : SyntaxTree :=
  .node kind none true [("name", 1)] [mark "def", leaf "identifier" name]

/-- The decorator `@(lambda: 0)`. -/
def lambdaDecorator : SyntaxTree :=
  .node "decorator" none true [] [mark "@", leaf "lambda" "lambda: 0"]

/-- A definition behind this decorator. -/
def decorate (t : SyntaxTree) : SyntaxTree :=
  .node "decorated_definition" none true [("definition", 1)] [lambdaDecorator, t]

/-- A class with these members. -/
def classOf (members : List SyntaxTree) : SyntaxTree :=
  .node "class_definition" none true [("name", 1), ("body", 3)]
    [mark "class", leaf "identifier" "C", mark ":", .node "block" none true [] members]

/-- A condition with this block. -/
def guarded (block : List SyntaxTree) : SyntaxTree :=
  .node "if_statement" none true [("consequence", 3)]
    [mark "if", leaf "identifier" "x", mark ":", .node "block" none true [] block]

/-- A statement in an export. -/
def exporting (t : SyntaxTree) : SyntaxTree :=
  .node "export_statement" none true [("declaration", 1)] [mark "export", t]

/-- A class and one of its methods get decorators, and so does a function under a condition. Behind
the export of a name, a function of that name and a class are exported. -/
theorem wrappers_do_not_show_nested :
    extract .python (.node "module" none true []
      [decorate (classOf [decorate (definition "function_definition" "m"), leaf "pass" "pass"]),
        guarded [decorate (definition "function_definition" "f")]]) =
      [.classDef "C" ["m"], .function "f"] ∧
    extract .javascript (.node "program" none true []
      [exporting (leaf "identifier" "g"), exporting (definition "function_declaration" "g"),
        exporting (definition "class_declaration" "D")]) =
      [.function "g", .function "g", .classDef "D" []] := by
  have hdecorate : ∀ t : SyntaxTree,
      t.kind = "function_definition" ∨ t.kind = "class_definition" → t.named = true →
        Decorates t (decorate t) := fun t hkind hnamed =>
    @Decorates.wrapper t hkind hnamed none _ [lambdaDecorator] [] rfl (by decide)
  have hmethod : Redecorated.Member (definition "function_definition" "m")
      (decorate (definition "function_definition" "m")) :=
    .decorated (hdecorate _ (Or.inl rfl) rfl)
  have hclass : Redecorated
      (classOf [definition "function_definition" "m", leaf "pass" "pass"])
      (classOf [decorate (definition "function_definition" "m"), leaf "pass" "pass"]) :=
    @Redecorated.members _ (.node "block" none true []
      [definition "function_definition" "m", leaf "pass" "pass"]) 3 _ rfl rfl rfl
      (.cons hmethod (.cons (.kept _) .nil))
  have hfunction : Redecorated (definition "function_definition" "f")
      (decorate (definition "function_definition" "f")) :=
    .decorated (.kept _) (hdecorate _ (Or.inl rfl) rfl)
  have hblock : Redecorated (.node "block" none true [] [definition "function_definition" "f"])
      (.node "block" none true [] [decorate (definition "function_definition" "f")]) :=
    .inside (by decide) (.cons hfunction .nil)
  have hguarded : Redecorated (guarded [definition "function_definition" "f"])
      (guarded [decorate (definition "function_definition" "f")]) :=
    .inside (by decide)
      (.cons (.kept _) (.cons (.kept _) (.cons (.kept _) (.cons hblock .nil))))
  have hexport : Reexported (definition "function_declaration" "g")
      (exporting (definition "function_declaration" "g")) :=
    Or.inr ⟨rfl, rfl, rfl, by decide⟩
  have hexport' : Reexported (definition "class_declaration" "D")
      (exporting (definition "class_declaration" "D")) :=
    Or.inr ⟨rfl, rfl, rfl, by decide⟩
  constructor
  · have hmodule := wrappers_do_not_show.1 (.node "module" none true []
      [classOf [definition "function_definition" "m", leaf "pass" "pass"],
        guarded [definition "function_definition" "f"]]) _
      (.cons (.decorated hclass (hdecorate _ (Or.inr rfl) rfl)) (.cons hguarded .nil))
    exact hmodule.trans (by decide)
  · have hprogram := wrappers_do_not_show.2 (.node "program" none true []
      [exporting (leaf "identifier" "g"), definition "function_declaration" "g",
        definition "class_declaration" "D"]) _
      (.cons (Or.inl rfl) (.cons hexport (.cons hexport' .nil)))
    exact hprogram.trans (by decide)

end Outline

end ProjectOutline
