import Mathlib.Data.List.Basic
import ProjectOutline.Proofs.Outline.Sites
import ProjectOutline.Proofs.Text.Trimming

/-!
# The walk computes the outline

The invariant of the walk is `Scope.Fits`: the scope it carries tells whether only wrappers lie
around a node, or nothing that hides it, or something that does. A scope of the last kind reports
nothing, whatever lies below (`visit_inner`), and there the specification has no visible sites
(`filter_sitesAll_eq_nil`). In the other two the walk and the fold go through the same nodes
(`visit_eq_foldl`), one case for each branch of `visit`.

The rule tables enter through `OutlineRules.Coherent` alone.
-/

namespace ProjectOutline

/-- What the walk needs of a rule table: wrappers and bindings hide nothing, a binding is no
wrapper, and exports are wrappers. -/
structure OutlineRules.Coherent (rules : OutlineRules) : Prop where
  passthrough_shows : ∀ kind, rules.isPassthrough kind = true → rules.hides kind = false
  binding_shows : ∀ kind, rules.isBinding kind = true → rules.hides kind = false
  binding_proper : ∀ kind, rules.isBinding kind = true → rules.isPassthrough kind = false
  export_wraps : ∀ kind, rules.isExport kind = true → rules.isPassthrough kind = true

theorem OutlineRules.coherent_ofLanguage (language : Language) :
    (OutlineRules.ofLanguage language).Coherent := by
  cases language with
  | python =>
    constructor <;> intro kind h <;>
      simp only [ofLanguage, python, isPassthrough, isBinding, isExport, List.contains_iff_mem,
        List.mem_singleton, List.not_mem_nil] at h
    subst h
    decide
  | javascript =>
    constructor <;> intro kind h <;>
      simp only [ofLanguage, javascript, isPassthrough, isBinding, isExport,
        List.contains_iff_mem, List.mem_cons, List.not_mem_nil, or_false] at h
    · subst h
      decide
    · rcases h with rfl | rfl <;> decide
    · rcases h with rfl | rfl <;> decide
    · subst h
      decide

namespace Outline

variable {rules : OutlineRules}

/-! ## Scopes that report nothing -/

mutual

theorem visit_inner {scope : Scope} (h : scope.isModule = false) :
    ∀ (t : SyntaxTree) (out : List Declaration), visit rules scope t out = out
  | .node kind text named fields children, out => by
    have hnested : scope.nested.isModule = false := by
      cases scope <;> simp_all [Scope.isModule, Scope.nested]
    have htop : scope ≠ .topLevel := by rintro rfl; cases h
    have hinner : Scope.inner.isModule = false := rfl
    rw [visit]
    simp only [h, htop, Bool.false_eq_true, if_false, Bool.false_and, false_and]
    split
    · split
      · exact visitBelowAt_inner hinner _ children out
      · rfl
    · split
      · exact visitAll_inner hinner children out
      · split
        · exact visitAll_inner h children out
        · exact visitAll_inner hnested children out

theorem visitAll_inner {scope : Scope} (h : scope.isModule = false) :
    ∀ (ts : List SyntaxTree) (out : List Declaration), visitAll rules scope ts out = out
  | [], out => rfl
  | t :: rest, out => by
    rw [visitAll, visit_inner h t out, ite_self]
    exact visitAll_inner h rest out

theorem visitBelowAt_inner {scope : Scope} (h : scope.isModule = false) :
    ∀ (i : Nat) (ts : List SyntaxTree) (out : List Declaration),
      visitBelowAt rules scope i ts out = out
  | _, [], out => by rw [visitBelowAt]
  | 0, t :: _, out => by rw [visitBelowAt]; exact visitBelow_inner h t out
  | i + 1, _ :: rest, out => by rw [visitBelowAt]; exact visitBelowAt_inner h i rest out

theorem visitBelow_inner {scope : Scope} (h : scope.isModule = false) :
    ∀ (t : SyntaxTree) (out : List Declaration), visitBelow rules scope t out = out
  | .node _ _ _ _ children, out => by rw [visitBelow]; exact visitAll_inner h children out

end

/-! ## Sites below something that hides them -/

mutual

theorem ancestors_begin {ancestors : List String} :
    ∀ (t : SyntaxTree) {site : Site}, site ∈ sites ancestors t → ancestors <+: site.ancestors
  | .node kind text named fields children, site, h => by
    rw [sites, List.mem_cons] at h
    rcases h with rfl | h
    · exact List.prefix_refl ancestors
    · exact (List.prefix_append ancestors [kind]).trans (ancestors_beginAll children h)

theorem ancestors_beginAll {ancestors : List String} :
    ∀ (ts : List SyntaxTree) {site : Site}, site ∈ sitesAll ancestors ts →
      ancestors <+: site.ancestors
  | [], site, h => by simp [sitesAll] at h
  | t :: rest, site, h => by
    rw [sitesAll, List.mem_append] at h
    rcases h with h | h
    · split at h
      · exact ancestors_begin t h
      · cases h
    · exact ancestors_beginAll rest h

end

theorem filter_sitesAll_eq_nil {ancestors : List String} {kind : String}
    (hmem : kind ∈ ancestors) (hhides : rules.hides kind = true) (ts : List SyntaxTree) :
    (sitesAll ancestors ts).filter (Site.isVisible rules) = [] := by
  rw [List.filter_eq_nil_iff]
  intro site hsite hvisible
  have hin := (ancestors_beginAll ts hsite).subset hmem
  have hshown := List.all_eq_true.mp hvisible kind hin
  simp [hhides] at hshown

/-! ## Names, in the words of the walk -/

theorem textOf?_eq_readable? (t : SyntaxTree) : textOf? t = readable? t := by
  rw [textOf?, readable?]
  cases t.text? with
  | none => rfl
  | some text =>
    by_cases hblank : Text.trim text = ""
    · have hall : text.toList.all Text.isBlank = true :=
        List.all_eq_true.mpr (Text.trim_eq_empty_iff.mp hblank)
      simp [hblank, hall, Option.filter]
    · have hall : text.toList.all Text.isBlank = false := by
        rw [Bool.eq_false_iff, ne_eq, List.all_eq_true, ← Text.trim_eq_empty_iff]
        exact hblank
      simp [hblank, hall, Option.filter]

theorem nameOf?_eq_ownName? (t : SyntaxTree) : nameOf? t = ownName? t := by
  rw [nameOf?, ownName?, funext textOf?_eq_readable?]

theorem boundNamesAt_eq (i : Nat) (ts : List SyntaxTree) :
    boundNamesAt i ts = ts[i]?.toList.flatMap boundNames := by
  induction ts generalizing i with
  | nil => simp [boundNamesAt]
  | cons t others ih =>
    cases i with
    | zero => simp [boundNamesAt]
    | succ i =>
      rw [boundNamesAt, ih, List.getElem?_cons_succ]

theorem boundNamesAll_eq (ts : List SyntaxTree) :
    boundNamesAll ts = (ts.filter SyntaxTree.named).flatMap boundNames := by
  induction ts with
  | nil => simp [boundNamesAll]
  | cons t others ih =>
    rw [boundNamesAll, ih]
    by_cases hnamed : t.named = true
    · simp [hnamed]
    · simp [hnamed]

/-- The collection of names takes a variable by its text, and any other target by its parts. -/
theorem boundNames_eq (t : SyntaxTree) :
    boundNames t =
      if isVariable t then (readable? t).toList else (bindingParts t).flatMap boundNames := by
  obtain ⟨kind, text, named, fields, children⟩ := t
  have hiff : isVariable (.node kind text named fields children) = true ↔
      kind = "identifier" ∨ kind = "shorthand_property_identifier_pattern" := by
    change (decide (kind = _) || decide (kind = _)) = true ↔ _
    simp
  by_cases hvariable : kind = "identifier" ∨ kind = "shorthand_property_identifier_pattern"
  · rw [boundNames, if_pos hvariable, if_pos (hiff.mpr hvariable), textOf?_eq_readable?]
  rw [boundNames, if_neg hvariable, if_neg (mt hiff.mp hvariable), bindingParts, SyntaxTree.kind]
  by_cases hpair : kind = "pair_pattern"
  · -- A field that is missing gives no part.
    rw [if_pos hpair, if_pos hpair, SyntaxTree.field?, SyntaxTree.fields, SyntaxTree.children]
    cases fields.lookup "value" with
    | none => rfl
    | some i => exact boundNamesAt_eq i children
  rw [if_neg hpair, if_neg hpair]
  by_cases hdefault : kind = "assignment_pattern" ∨ kind = "object_assignment_pattern"
  · rw [if_pos hdefault, if_pos hdefault, SyntaxTree.field?, SyntaxTree.fields,
      SyntaxTree.children]
    cases fields.lookup "left" with
    | none => rfl
    | some i => exact boundNamesAt_eq i children
  · rw [if_neg hdefault, if_neg hdefault, boundNamesAll_eq]
    rfl

/-- The collected names are those that the target introduces. -/
theorem boundNames_eq_introduced (t : SyntaxTree) : boundNames t = introduced t := by
  induction t using introduced.induct with
  | case1 t hvariable => rw [boundNames_eq, introduced, if_pos hvariable, if_pos hvariable]
  | case2 t hpattern ih =>
    rw [boundNames_eq, introduced, if_neg hpattern, if_neg hpattern]
    conv_lhs => rw [← List.attach_map_subtype_val (bindingParts t), List.flatMap_map]
    exact List.flatMap_congr fun part _ => ih part.1 part.2

/-! ## What a site declares, in the words of the walk -/

theorem methodName?_eq (language : Language) (child : SyntaxTree) :
    methodName? (OutlineRules.ofLanguage language) child =
      ((if language = .python ∧ child.kind = "decorated_definition" then
          child.field? "definition"
        else some child).filter
          fun t => (OutlineRules.ofLanguage language).isMethod t.kind).bind ownName? := by
  rw [← funext nameOf?_eq_ownName?]
  by_cases hmethod : (OutlineRules.ofLanguage language).isMethod child.kind = true
  · -- A method is no wrapper, so the specification does not look inside it.
    have hplain : ¬ (language = .python ∧ child.kind = "decorated_definition") := by
      rintro ⟨rfl, hkind⟩
      rw [hkind] at hmethod
      exact absurd hmethod (by decide)
    rw [methodName?, if_pos hmethod, if_neg hplain]
    simp [Option.filter, hmethod]
  · rw [methodName?, if_neg hmethod]
    cases language with
    | python =>
      by_cases hkind : child.kind = "decorated_definition"
      · have hwrap : (OutlineRules.ofLanguage .python).isPassthrough child.kind = true := by
          rw [hkind]
          decide
        rw [if_pos hwrap, if_pos ⟨rfl, hkind⟩]
        change (child.field? "definition").bind _ = _
        cases child.field? "definition" with
        | none => rfl
        | some wrapped => simp only [Option.bind_some, Option.filter_some]; split <;> simp_all
      · have hwrap : (OutlineRules.ofLanguage .python).isPassthrough child.kind = false := by
          simpa [OutlineRules.ofLanguage, OutlineRules.python, OutlineRules.isPassthrough]
            using hkind
        rw [hwrap, if_neg (by simp), if_neg (fun h => hkind h.2)]
        simp [Option.filter, hmethod]
    | javascript =>
      have hfield : (OutlineRules.ofLanguage .javascript).wrappedField = none := rfl
      simp [hfield, Option.filter, hmethod]

theorem classRecord_eq (language : Language) (t : SyntaxTree) :
    classRecord (OutlineRules.ofLanguage language) t = classDeclaration language t := by
  have hfield : (OutlineRules.ofLanguage language).bodyField = "body" := by cases language <;> rfl
  rw [classRecord, classDeclaration, methodNodes, hfield, List.filterMap_filterMap,
    nameOf?_eq_ownName?]
  simp only [← methodName?_eq]
  cases t.field? "body" <;> simp [Declaration.unnamedClass]

theorem declaredNames_eq (language : Language) (t : SyntaxTree) :
    declaredNames (OutlineRules.ofLanguage language) t = bindingNames language t := by
  rw [declaredNames, bindingNames, ← funext boundNames_eq_introduced]
  congr 1
  funext declarator
  cases declarator.field? "name" <;> simp

theorem addExported_eq (t : SyntaxTree) (out : List Declaration) :
    addExported t out = (exportedNames t).foldl
      (fun out name => if name ∈ out.map Declaration.name then out else out ++ [.function name])
      out := by
  have hstep : addNew = fun out name =>
      if name ∈ out.map Declaration.name then out else out ++ [.function name] := by
    funext out name
    simp [addNew]
  rw [addExported, hstep, exportedNames, funext textOf?_eq_readable?]

/-! ## The invariant -/

/-- The scope that the walk carries, read off the kinds of the proper ancestors. -/
def Scope.Fits (rules : OutlineRules) (ancestors : List String) : Scope → Prop
  | .topLevel => ∀ kind ∈ ancestors, rules.isPassthrough kind = true
  | .moduleBlock => (∀ kind ∈ ancestors, rules.hides kind = false) ∧
      ∃ kind ∈ ancestors, rules.isPassthrough kind = false
  | .classBody | .inner => ∃ kind ∈ ancestors, rules.hides kind = true

theorem Scope.Fits.shows (hrules : rules.Coherent) {ancestors : List String} {scope : Scope}
    (h : scope.Fits rules ancestors) (hmodule : scope.isModule = true) :
    ∀ kind ∈ ancestors, rules.hides kind = false := by
  cases scope with
  | topLevel => exact fun kind hkind => hrules.passthrough_shows kind (h kind hkind)
  | moduleBlock => exact h.1
  | classBody => cases hmodule
  | inner => cases hmodule

theorem Scope.Fits.atTop_iff {ancestors : List String} {scope : Scope} {node : SyntaxTree}
    (h : scope.Fits rules ancestors) (hmodule : scope.isModule = true) :
    Site.isAtTop rules ⟨ancestors, node⟩ = true ↔ scope = .topLevel := by
  rw [Site.isAtTop, List.all_eq_true]
  cases scope with
  | topLevel => exact ⟨fun _ => rfl, fun _ => h⟩
  | moduleBlock =>
    obtain ⟨-, kind, hmem, hproper⟩ := h
    constructor
    · intro hall
      rw [hall kind hmem] at hproper
      cases hproper
    · intro h
      cases h
  | classBody => cases hmodule
  | inner => cases hmodule

/-- A wrapper keeps the scope. -/
theorem Scope.Fits.wrapper (hrules : rules.Coherent) {ancestors : List String} {scope : Scope}
    {kind : String} (h : scope.Fits rules ancestors) (hmodule : scope.isModule = true)
    (hkind : rules.isPassthrough kind = true) : scope.Fits rules (ancestors ++ [kind]) := by
  cases scope with
  | topLevel =>
    intro other hother
    rcases List.mem_append.mp hother with hother | hother
    · exact h other hother
    · rw [List.mem_singleton.mp hother]
      exact hkind
  | moduleBlock =>
    obtain ⟨hshows, proper, hmem, hproper⟩ := h
    refine ⟨fun other hother => ?_, proper, List.mem_append_left _ hmem, hproper⟩
    rcases List.mem_append.mp hother with hother | hother
    · exact hshows other hother
    · rw [List.mem_singleton.mp hother]
      exact hrules.passthrough_shows kind hkind
  | classBody => cases hmodule
  | inner => cases hmodule

/-- Any other node that hides nothing leads to a block. -/
theorem Scope.Fits.block (hrules : rules.Coherent) {ancestors : List String} {scope : Scope}
    {kind : String} (h : scope.Fits rules ancestors) (hmodule : scope.isModule = true)
    (hshows : rules.hides kind = false) (hproper : rules.isPassthrough kind = false) :
    Scope.moduleBlock.Fits rules (ancestors ++ [kind]) := by
  refine ⟨fun other hother => ?_, kind, List.mem_append_right _ (by simp), hproper⟩
  rcases List.mem_append.mp hother with hother | hother
  · exact h.shows hrules hmodule other hother
  · rw [List.mem_singleton.mp hother]
    exact hshows

/-! ## One node -/

section Node

variable {language : Language} {scope : Scope} {ancestors : List String}
  (kind : String) (text : Option String) (named : Bool) (fields : List (String × Nat))
  (children : List SyntaxTree) (out : List Declaration)

/-- A class or a scope in a module scope: the walk adds what the site declares, and nothing from
below. -/
theorem visit_of_hides (hmodule : scope.isModule = true)
    (hhides : (OutlineRules.ofLanguage language).hides kind = true) :
    visit (OutlineRules.ofLanguage language) scope (.node kind text named fields children) out =
      Site.declare language out ⟨ancestors, .node kind text named fields children⟩ := by
  have hrules := OutlineRules.coherent_ofLanguage language
  simp only [visit, Site.declare, SyntaxTree.kind, hmodule, if_true, Bool.true_and]
  by_cases hclass : (OutlineRules.ofLanguage language).isClass kind = true
  · simp only [hclass, if_true, classRecord_eq]
    split
    · exact visitBelowAt_inner rfl _ children _
    · rfl
  · have hscope : (OutlineRules.ofLanguage language).opensScope kind = true := by
      simpa [OutlineRules.hides, hclass] using hhides
    -- Bindings and exports hide nothing, so only the function branch of `declare` is left.
    have hbinding : ¬ (OutlineRules.ofLanguage language).isBinding kind = true := by
      intro h
      rw [hrules.binding_shows kind h] at hhides
      cases hhides
    have hexport : ¬ (OutlineRules.ofLanguage language).isExport kind = true := by
      intro h
      rw [hrules.passthrough_shows kind (hrules.export_wraps kind h)] at hhides
      cases hhides
    simp only [hclass, hscope, hbinding, hexport, if_true, if_false, and_false,
      Bool.false_eq_true]
    rw [visitAll_inner rfl]
    split
    · rw [nameOf?_eq_ownName?, Option.toList_map]
    · rfl

/-- Any other node in a module scope: the walk adds what the site declares, and goes on below in a
module scope that fits. -/
theorem visit_of_shows (hmodule : scope.isModule = true)
    (hfits : scope.Fits (OutlineRules.ofLanguage language) ancestors)
    (hshows : (OutlineRules.ofLanguage language).hides kind = false) :
    ∃ below : Scope, below.isModule = true ∧
      below.Fits (OutlineRules.ofLanguage language) (ancestors ++ [kind]) ∧
      visit (OutlineRules.ofLanguage language) scope (.node kind text named fields children) out =
        visitAll (OutlineRules.ofLanguage language) below children
          (Site.declare language out ⟨ancestors, .node kind text named fields children⟩) := by
  have hrules := OutlineRules.coherent_ofLanguage language
  have hclass : ¬ (OutlineRules.ofLanguage language).isClass kind = true := by
    intro h
    simp [OutlineRules.hides, h] at hshows
  have hscope : ¬ (OutlineRules.ofLanguage language).opensScope kind = true := by
    intro h
    simp [OutlineRules.hides, h] at hshows
  have hfunction : ¬ (OutlineRules.ofLanguage language).isFunction kind = true := by
    intro h
    simp [OutlineRules.opensScope, h] at hscope
  have hnested : scope.nested = .moduleBlock := by
    cases scope <;> first | rfl | cases hmodule
  simp only [visit, Site.declare, SyntaxTree.kind, hclass, hscope, hfunction, if_false,
    Bool.false_eq_true, hfits.atTop_iff hmodule, hnested]
  by_cases hbinding : scope = .topLevel ∧ (OutlineRules.ofLanguage language).isBinding kind = true
  · have hproper := hrules.binding_proper kind hbinding.2
    refine ⟨.moduleBlock, rfl, hfits.block hrules hmodule hshows hproper, ?_⟩
    rw [if_pos hbinding, if_pos hbinding, declaredNames_eq]
  · simp only [if_neg hbinding]
    by_cases hwrapper : (OutlineRules.ofLanguage language).isPassthrough kind = true
    · refine ⟨scope, hmodule, hfits.wrapper hrules hmodule hwrapper, ?_⟩
      rw [if_pos hwrapper, addExported_eq]
    · have hexport : ¬ (OutlineRules.ofLanguage language).isExport kind = true :=
        fun h => hwrapper (hrules.export_wraps kind h)
      refine ⟨.moduleBlock, rfl, hfits.block hrules hmodule hshows (by simpa using hwrapper), ?_⟩
      rw [if_neg hwrapper, if_neg fun h => hexport h.2]

end Node

/-- The visible sites of a node that is itself visible. -/
theorem filter_sites {ancestors : List String} (kind : String) (text : Option String)
    (named : Bool) (fields : List (String × Nat)) (children : List SyntaxTree)
    (hshows : ∀ kind ∈ ancestors, rules.hides kind = false) :
    (sites ancestors (.node kind text named fields children)).filter (Site.isVisible rules) =
      ⟨ancestors, .node kind text named fields children⟩ ::
        (sitesAll (ancestors ++ [kind]) children).filter (Site.isVisible rules) := by
  have hvisible : Site.isVisible rules ⟨ancestors, .node kind text named fields children⟩ =
      true := by
    rw [Site.isVisible, List.all_eq_true]
    intro kind hkind
    rw [hshows kind hkind]
    rfl
  rw [sites, List.filter_cons_of_pos hvisible]

/-! ## The walk -/

mutual

/-- The walk over a node in a module scope is the fold over its visible sites. -/
theorem visit_eq_foldl (language : Language) :
    ∀ (t : SyntaxTree) (scope : Scope) (ancestors : List String) (out : List Declaration),
      scope.isModule = true → scope.Fits (OutlineRules.ofLanguage language) ancestors →
      visit (OutlineRules.ofLanguage language) scope t out =
        ((sites ancestors t).filter (Site.isVisible (OutlineRules.ofLanguage language))).foldl
          (Site.declare language) out
  | .node kind text named fields children, scope, ancestors, out, hmodule, hfits => by
    have hshows := hfits.shows (OutlineRules.coherent_ofLanguage language) hmodule
    rw [filter_sites kind text named fields children hshows, List.foldl_cons]
    cases hhides : (OutlineRules.ofLanguage language).hides kind with
    | true =>
      rw [filter_sitesAll_eq_nil (List.mem_append_right _ (List.mem_singleton.mpr rfl)) hhides]
      exact visit_of_hides kind text named fields children out hmodule hhides
    | false =>
      obtain ⟨below, hbelow, hfitsBelow, hvisit⟩ :=
        visit_of_shows kind text named fields children out hmodule hfits hhides
      rw [hvisit, visitAll_eq_foldl language children below _ _ hbelow hfitsBelow]

theorem visitAll_eq_foldl (language : Language) :
    ∀ (ts : List SyntaxTree) (scope : Scope) (ancestors : List String) (out : List Declaration),
      scope.isModule = true → scope.Fits (OutlineRules.ofLanguage language) ancestors →
      visitAll (OutlineRules.ofLanguage language) scope ts out =
        ((sitesAll ancestors ts).filter
          (Site.isVisible (OutlineRules.ofLanguage language))).foldl (Site.declare language) out
  | [], _, _, _, _, _ => rfl
  | t :: rest, scope, ancestors, out, hmodule, hfits => by
    rw [visitAll, sitesAll, List.filter_append, List.foldl_append,
      visitAll_eq_foldl language rest scope ancestors _ hmodule hfits]
    split
    · rw [visit_eq_foldl language t scope ancestors out hmodule hfits]
    · rfl

end

theorem declareAll_append {language : Language} (front back : List Site)
    (out : List Declaration) :
    declareAll language (front ++ back) out =
      declareAll language back (declareAll language front out) := by
  rw [declareAll, List.filter_append, List.foldl_append, declareAll, declareAll]

/-- The walk is the fold over the visible sites of a file. -/
theorem extract_eq_declareAll (language : Language) (root : SyntaxTree) :
    extract language root = declareAll language (sitesBelow root) [] := by
  obtain ⟨kind, text, named, fields, children⟩ := root
  rw [extract, visitBelow]
  exact visitAll_eq_foldl language children .topLevel [] [] rfl (by intro kind h; cases h)

/-- The outline of a file whose sites fall into two parts, part by part. -/
theorem extract_of_append {language : Language} {root : SyntaxTree} {front back : List Site}
    (h : sitesBelow root = front ++ back) :
    extract language root = declareAll language back (declareAll language front []) := by
  rw [extract_eq_declareAll, h, declareAll_append]

/-- **The walk computes the specification:** for every tree and language the extracted outline is
the fold over the visible sites, in pre-order. -/
theorem extract_eq_specified (language : Language) (root : SyntaxTree) :
    extract language root = specified language root :=
  extract_eq_declareAll language root

/-- A node without children. -/
def leaf (kind text : String) : SyntaxTree :=
  .node kind (some text) true [] []

/-- Punctuation. -/
def mark (text : String) : SyntaxTree :=
  .node text (some text) false [] []

/-- A function or a method with a name and a body. -/
def defined (kind name : String) (body : List SyntaxTree) : SyntaxTree :=
  .node kind none true [("name", 0), ("body", 1)]
    [leaf "identifier" name, .node "block" none true [] body]

/-- A class with a plain, a decorated, a nameless and a nested member, one with a blank name, and
functions without a name, in a block and inside another function. -/
def paddedClasses : SyntaxTree :=
  .node "module" none true [] [
    defined "class_definition" "  Point\n" [
      defined "function_definition" "move " [],
      .node "decorated_definition" none true [("definition", 1)]
        [leaf "decorator" "@cached", defined "function_definition" "\tarea" []],
      defined "function_definition" "  " [],
      defined "class_definition" "Inner" [defined "function_definition" "hidden" []]],
    defined "class_definition" " \t" [],
    defined "function_definition" "\n" [],
    .node "if_statement" none true [] [leaf "true" "True", .node "block" none true []
      [defined "function_definition" "late" [defined "function_definition" "hidden" []]]]]

/-- Variables of an exported pattern and of a block, and exports of a bound and of an unbound
name. -/
def paddedBindings : SyntaxTree :=
  .node "program" none true [] [
    .node "export_statement" none true [] [mark "export",
      .node "lexical_declaration" none true [] [mark "const",
        .node "variable_declarator" none true [("name", 0), ("value", 2)] [
          .node "object_pattern" none true [] [mark "\x7b",
            .node "pair_pattern" none true [("key", 0), ("value", 2)]
              [leaf "property_identifier" "k", mark ":",
                .node "assignment_pattern" none true [("left", 0), ("right", 2)]
                  [leaf "identifier" " v ", mark "=", leaf "identifier" "d"]],
            mark ",", leaf "shorthand_property_identifier_pattern" "s", mark "\x7d"],
          mark "=", leaf "identifier" "p"]]],
    .node "statement_block" none true []
      [.node "lexical_declaration" none true [] [mark "let",
        .node "variable_declarator" none true [("name", 0)] [leaf "identifier" "inner"]]],
    .node "export_statement" none true [] [mark "export", mark "default", leaf "identifier" "s"],
    .node "export_statement" none true [] [mark "export", mark "default", leaf "identifier" "w "]]

/-- Names are trimmed and blank ones left out, the decorated method is one of its class, what is
hidden is not reported, and of the exported names only the unbound one is added. -/
theorem extract_eq_specified_padded :
    (extract .python paddedClasses =
        [.classDef "Point" ["move", "area"], .classDef "UnnamedClass" [], .function "late"] ∧
      specified .python paddedClasses =
        [.classDef "Point" ["move", "area"], .classDef "UnnamedClass" [], .function "late"]) ∧
      extract .javascript paddedBindings = [.function "v", .function "s", .function "w"] ∧
      specified .javascript paddedBindings = [.function "v", .function "s", .function "w"] := by
  rw [← extract_eq_specified, ← extract_eq_specified]
  decide

end Outline

end ProjectOutline
