import Mathlib.Data.List.Induction
import ProjectOutline.Proofs.Outline.Walk

/-!
# Records of exports

A bare identifier in a top-level export names something that is imported, or declared elsewhere in
the file. It is meant to be reported only in the first case, but the walk looks at the records so
far alone, and a declaration may follow its export.

To tell the two kinds of records apart, each one is credited to a declaration or to an export
(`credited`); without the credits the records are the outline. An export is credited with a name
exactly if no declaration of the name comes before it (`exported_creditsOf_iff`). From this follows
for which files exports add no record to a declared name: those in which every export of a name that
is declared behind it comes behind another declaration of the name.
-/

namespace ProjectOutline

/-- An export is no class, function or variable declaration. -/
theorem OutlineRules.Coherent.export_proper {rules : OutlineRules} (hrules : rules.Coherent)
    {kind : String} (h : rules.isExport kind = true) :
    rules.isClass kind = false ∧ rules.isFunction kind = false ∧ rules.isBinding kind = false := by
  have hwrap := hrules.export_wraps kind h
  have hshows := hrules.passthrough_shows kind hwrap
  rw [OutlineRules.hides, OutlineRules.opensScope, Bool.or_eq_false_iff, Bool.or_eq_false_iff,
    Bool.or_eq_false_iff] at hshows
  obtain ⟨hclass, ⟨hfunction, -⟩, -⟩ := hshows
  refine ⟨hclass, hfunction, Bool.eq_false_iff.mpr fun hbinding => ?_⟩
  rw [hrules.binding_proper kind hbinding] at hwrap
  cases hwrap

namespace Outline

variable {language : Language}

/-! ## Declarations and exports of a site -/

/-- The records of the class, the function or the top-level variables that a site declares. -/
def Site.declared (language : Language) (site : Site) : List Declaration :=
  let rules := OutlineRules.ofLanguage language
  if rules.isClass site.node.kind then [classDeclaration language site.node]
  else if rules.isFunction site.node.kind then (ownName? site.node).toList.map Declaration.function
  else if site.isAtTop rules ∧ rules.isBinding site.node.kind then
    (bindingNames language site.node).map Declaration.function
  else []

/-- The names of the bare identifiers of a top-level export. -/
def Site.exported (language : Language) (site : Site) : List String :=
  let rules := OutlineRules.ofLanguage language
  if site.isAtTop rules ∧ rules.isExport site.node.kind then exportedNames site.node else []

/-- The names that sites declare, in order. -/
def declaredIn (language : Language) (sites : List Site) : List String :=
  sites.flatMap fun site => (site.declared language).map Declaration.name

/-- An export declares nothing itself. -/
theorem Site.declared_eq_nil {site : Site} {name : String}
    (h : name ∈ site.exported language) : site.declared language = [] := by
  rw [Site.exported] at h
  split at h
  · next hexport =>
    obtain ⟨hclass, hfunction, hbinding⟩ :=
      (OutlineRules.coherent_ofLanguage language).export_proper hexport.2
    simp [Site.declared, hclass, hfunction, hbinding]
  · cases h

/-- Adds a record of an exported name, unless there is one of the name. -/
def addUnreported (out : List Declaration) (name : String) : List Declaration :=
  if name ∈ out.map Declaration.name then out else out ++ [.function name]

/-- A site adds what it declares, then the exported names that have no record yet. -/
theorem Site.declare_eq (out : List Declaration) (site : Site) :
    site.declare language out =
      (site.exported language).foldl addUnreported (out ++ site.declared language) := by
  by_cases hexport : site.isAtTop (OutlineRules.ofLanguage language) = true ∧
      (OutlineRules.ofLanguage language).isExport site.node.kind = true
  · obtain ⟨hclass, hfunction, hbinding⟩ :=
      (OutlineRules.coherent_ofLanguage language).export_proper hexport.2
    simp only [Site.declare, Site.declared, Site.exported, hclass, hfunction, hbinding, hexport,
      Bool.false_eq_true, and_false, and_self, if_false, if_true, List.append_nil]
    rfl
  · rw [Site.declare, Site.declared, Site.exported, if_neg hexport, if_neg hexport,
      List.foldl_nil]
    split
    · rfl
    · split
      · rfl
      · split
        · rfl
        · rw [List.append_nil]

/-! ## Credits -/

/-- A record, and whether an export put it there. -/
structure Credit where
  record : Declaration
  exported : Bool
deriving DecidableEq, Repr

/-- Credits an export with a name, unless there is a record of the name. -/
def Credit.add (credits : List Credit) (name : String) : List Credit :=
  if name ∈ credits.map (·.record.name) then credits else credits ++ [⟨.function name, true⟩]

/-- Credits a site with what it declares and with what it exports. -/
def Site.credit (language : Language) (credits : List Credit) (site : Site) : List Credit :=
  (site.exported language).foldl Credit.add
    (credits ++ (site.declared language).map fun record => ⟨record, false⟩)

/-- The credited records of a list of sites. -/
def creditsOf (language : Language) (sites : List Site) : List Credit :=
  sites.foldl (Site.credit language) []

/-- The sites of a file that the outline goes through. -/
def shownSites (language : Language) (root : SyntaxTree) : List Site :=
  (sitesBelow root).filter (Site.isVisible (OutlineRules.ofLanguage language))

/-- The records of a file, each credited to a declaration or to an export. -/
def credited (language : Language) (root : SyntaxTree) : List Credit :=
  creditsOf language (shownSites language root)

/-- An export is credited with a record of that name. -/
def Exported (credits : List Credit) (name : String) : Prop :=
  ∃ r ∈ credits, r.exported = true ∧ r.record.name = name

theorem creditsOf_concat (sites : List Site) (site : Site) :
    creditsOf language (sites ++ [site]) = site.credit language (creditsOf language sites) := by
  rw [creditsOf, List.foldl_append, List.foldl_cons, List.foldl_nil, creditsOf]

theorem map_record_add (credits : List Credit) (name : String) :
    (Credit.add credits name).map Credit.record =
      addUnreported (credits.map Credit.record) name := by
  rw [Credit.add, addUnreported, List.map_map, Function.comp_def]
  split
  · rfl
  · rw [List.map_append, List.map_singleton]

/-- Without the credits, a site adds the records that it adds to the outline. -/
theorem map_record_credit (credits : List Credit) (site : Site) :
    (site.credit language credits).map Credit.record =
      site.declare language (credits.map Credit.record) := by
  rw [Site.credit, Site.declare_eq,
    ← List.foldl_hom (List.map Credit.record) fun x name => (map_record_add x name).symm,
    List.map_append, List.map_map, Function.comp_def, List.map_id']

/-- Without the credits, the records are the outline. -/
theorem map_record_credited (root : SyntaxTree) :
    (credited language root).map Credit.record = extract language root := by
  rw [credited, creditsOf,
    ← List.foldl_hom (List.map Credit.record) fun x site => (map_record_credit x site).symm]
  exact (extract_eq_declareAll language root).symm

/-! ## Which records are credited to exports -/

theorem exported_append {credits : List Credit} {records : List Declaration} {name : String} :
    Exported (credits ++ records.map fun record => ⟨record, false⟩) name ↔
      Exported credits name := by
  constructor
  · rintro ⟨r, hr, hexported, hname⟩
    rcases List.mem_append.mp hr with hr | hr
    · exact ⟨r, hr, hexported, hname⟩
    · obtain ⟨record, -, rfl⟩ := List.mem_map.mp hr
      cases hexported
  · rintro ⟨r, hr, hexported⟩
    exact ⟨r, List.mem_append_left _ hr, hexported⟩

theorem exported_add {credits : List Credit} {name other : String} :
    Exported (Credit.add credits other) name ↔
      Exported credits name ∨ name = other ∧ name ∉ credits.map (·.record.name) := by
  rw [Credit.add]
  split
  · next hmem =>
    constructor
    · exact Or.inl
    · rintro (h | ⟨rfl, hnot⟩)
      · exact h
      · exact absurd hmem hnot
  · next hnot =>
    constructor
    · rintro ⟨r, hr, hexported, rfl⟩
      rcases List.mem_append.mp hr with hr | hr
      · exact Or.inl ⟨r, hr, hexported, rfl⟩
      · rw [List.mem_singleton.mp hr]
        exact Or.inr ⟨rfl, hnot⟩
    · rintro (⟨r, hr, hexported⟩ | ⟨rfl, -⟩)
      · exact ⟨r, List.mem_append_left _ hr, hexported⟩
      · exact ⟨_, List.mem_append_right _ (List.mem_singleton.mpr rfl), rfl, rfl⟩

theorem mem_names_add {credits : List Credit} {name other : String} :
    name ∈ (Credit.add credits other).map (·.record.name) ↔
      name ∈ credits.map (·.record.name) ∨ name = other := by
  rw [Credit.add]
  split
  · next hmem =>
    constructor
    · exact Or.inl
    · rintro (h | rfl)
      · exact h
      · exact hmem
  · rw [List.map_append, List.mem_append, List.map_singleton, List.mem_singleton]
    rfl

/-- Of the names that are exported, those without a record are credited. -/
theorem exported_foldl_add {names : List String} {credits : List Credit} {name : String} :
    Exported (names.foldl Credit.add credits) name ↔
      Exported credits name ∨ name ∈ names ∧ name ∉ credits.map (·.record.name) := by
  induction names generalizing credits with
  | nil => simp
  | cons other rest ih =>
    rw [List.foldl_cons, ih, exported_add, mem_names_add, List.mem_cons]
    tauto

/-- Exports leave the records of declarations as they are. -/
theorem filter_foldl_add (names : List String) (credits : List Credit) :
    (names.foldl Credit.add credits).filter (!·.exported) = credits.filter (!·.exported) := by
  induction names generalizing credits with
  | nil => rfl
  | cons name rest ih =>
    rw [List.foldl_cons, ih, Credit.add]
    split
    · rfl
    · simp

/-- The records that are not credited to exports are those that the sites declare, in order. -/
theorem filter_creditsOf (sites : List Site) :
    ((creditsOf language sites).filter (!·.exported)).map (·.record.name) =
      declaredIn language sites := by
  induction sites using List.reverseRecOn with
  | nil => rfl
  | append_singleton front site ih =>
    rw [creditsOf_concat, Site.credit, filter_foldl_add, List.filter_append, List.map_append, ih,
      declaredIn, declaredIn, List.flatMap_append, List.flatMap_singleton]
    simp [List.filter_map, Function.comp_def]

theorem mem_names_creditsOf_iff {sites : List Site} {name : String} :
    name ∈ (creditsOf language sites).map (·.record.name) ↔
      name ∈ declaredIn language sites ∨ Exported (creditsOf language sites) name := by
  rw [← filter_creditsOf, Exported]
  simp only [List.mem_map, List.mem_filter, Bool.not_eq_true']
  constructor
  · rintro ⟨r, hr, hname⟩
    cases hexported : r.exported with
    | false => exact Or.inl ⟨r, ⟨hr, hexported⟩, hname⟩
    | true => exact Or.inr ⟨r, hr, hexported, hname⟩
  · rintro (⟨r, ⟨hr, -⟩, hname⟩ | ⟨r, hr, -, hname⟩)
    · exact ⟨r, hr, hname⟩
    · exact ⟨r, hr, hname⟩

/-- The step from a list of sites to one more. -/
theorem exported_creditsOf_concat {sites : List Site} {site : Site} {name : String} :
    Exported (creditsOf language (sites ++ [site])) name ↔
      Exported (creditsOf language sites) name ∨
        name ∈ site.exported language ∧ name ∉ declaredIn language sites := by
  rw [creditsOf_concat, Site.credit, exported_foldl_add, exported_append]
  -- A record that an earlier export has put there keeps the name credited to exports.
  by_cases hexports : name ∈ site.exported language
  · rw [Site.declared_eq_nil hexports, List.map_nil, List.append_nil, mem_names_creditsOf_iff]
    tauto
  · simp only [hexports, false_and]

/-- An export is credited with a name exactly if some export of it has no declaration of the name
before it. -/
theorem exported_creditsOf_iff {sites : List Site} {name : String} :
    Exported (creditsOf language sites) name ↔
      ∃ before site after, sites = before ++ site :: after ∧ name ∈ site.exported language ∧
        name ∉ declaredIn language before := by
  -- From the end, as an export sees only the declarations in front of it.
  induction sites using List.reverseRecOn with
  | nil =>
    constructor
    · rintro ⟨r, hr, -⟩
      cases hr
    · rintro ⟨before, site, after, hsites, -⟩
      simp at hsites
  | append_singleton front last ih =>
    rw [exported_creditsOf_concat, ih]
    constructor
    · rintro (⟨before, site, after, rfl, hname⟩ | hname)
      · exact ⟨before, site, after ++ [last], by simp, hname⟩
      · exact ⟨front, last, [], rfl, hname⟩
    · rintro ⟨before, site, after, hsites, hname⟩
      rcases List.eq_nil_or_concat after with rfl | ⟨init, final, rfl⟩
      · obtain ⟨rfl, hlast⟩ := List.append_inj' hsites rfl
        rw [List.singleton_inj] at hlast
        rw [hlast]
        exact Or.inr hname
      · rw [List.concat_eq_append, ← List.cons_append, ← List.append_assoc] at hsites
        obtain ⟨rfl, -⟩ := List.append_inj' hsites rfl
        exact Or.inl ⟨before, site, init, rfl, hname⟩

/-! ## Files whose exports add undeclared names only -/

/-- No export adds a record under a name that a class, a function or a top-level variable of the
file is reported under. -/
def ExportsUndeclared (language : Language) (root : SyntaxTree) : Prop :=
  ∀ r ∈ credited language root, r.exported = true →
    r.record.name ∉ declaredIn language (shownSites language root)

instance (language : Language) (root : SyntaxTree) :
    Decidable (ExportsUndeclared language root) :=
  inferInstanceAs (Decidable (∀ r ∈ credited language root, r.exported = true →
    r.record.name ∉ declaredIn language (shownSites language root)))

/-- Every export of a name that is declared behind it comes behind another declaration of it. -/
def DeclaresFirst (language : Language) (sites : List Site) : Prop :=
  ∀ before site after, sites = before ++ site :: after →
    ∀ name ∈ site.exported language, name ∈ declaredIn language after →
      name ∈ declaredIn language before

theorem exportsUndeclared_iff {root : SyntaxTree} :
    ExportsUndeclared language root ↔
      ∀ name, Exported (credited language root) name →
        name ∉ declaredIn language (shownSites language root) := by
  constructor
  · rintro h name ⟨r, hr, hexported, rfl⟩
    exact h r hr hexported
  · intro h r hr hexported
    exact h r.record.name ⟨r, hr, hexported, rfl⟩

theorem exportsUndeclared_iff_declaresFirst {root : SyntaxTree} :
    ExportsUndeclared language root ↔ DeclaresFirst language (shownSites language root) := by
  rw [exportsUndeclared_iff]
  constructor
  · intro h before site after hsites name hname hafter
    by_contra hbefore
    apply h name (exported_creditsOf_iff.mpr ⟨before, site, after, hsites, hname, hbefore⟩)
    rw [hsites, declaredIn, List.flatMap_append, List.flatMap_cons]
    exact List.mem_append_right _ (List.mem_append_right _ hafter)
  · intro h name hexported hdeclared
    obtain ⟨before, site, after, hsites, hname, hbefore⟩ := exported_creditsOf_iff.mp hexported
    rw [hsites, declaredIn, List.flatMap_append, List.flatMap_cons, Site.declared_eq_nil hname,
      List.map_nil, List.nil_append, List.mem_append] at hdeclared
    rcases hdeclared with hdeclared | hdeclared
    · exact hbefore hdeclared
    · exact hbefore (h before site after hsites name hname hdeclared)

/-- A name has as many records as declarations, and one more for each record of an export. -/
theorem count_names_creditsOf (sites : List Site) (name : String) :
    ((creditsOf language sites).map (·.record.name)).count name =
      (declaredIn language sites).count name +
        (((creditsOf language sites).filter (·.exported)).map (·.record.name)).count name := by
  have hparts := (List.filter_append_perm (·.exported) (creditsOf language sites)).map
    (·.record.name)
  rw [← hparts.count_eq, List.map_append, List.count_append, Nat.add_comm, ← filter_creditsOf]

theorem count_eq_iff_not_exported {sites : List Site} {name : String} :
    ((creditsOf language sites).map (·.record.name)).count name =
        (declaredIn language sites).count name ↔
      ¬ Exported (creditsOf language sites) name := by
  rw [count_names_creditsOf, Nat.add_eq_left, List.count_eq_zero, Exported]
  simp [and_assoc]

/-- **When exports add nothing to declared names.** Without its credits the credited list is the
outline. Exports add no record to a name that is declared in the file exactly if every export of a
name that is declared behind it comes behind another declaration of the name; and exactly if every
declared name has as many records as it has declarations, so one if it is declared once. -/
theorem exports_add_undeclared_iff (language : Language) (root : SyntaxTree) :
    (credited language root).map Credit.record = extract language root ∧
      (ExportsUndeclared language root ↔
        DeclaresFirst language (shownSites language root)) ∧
      (ExportsUndeclared language root ↔
        ∀ name ∈ declaredIn language (shownSites language root),
          ((extract language root).map Declaration.name).count name =
            (declaredIn language (shownSites language root)).count name) := by
  refine ⟨map_record_credited root, exportsUndeclared_iff_declaresFirst, ?_⟩
  rw [exportsUndeclared_iff, ← map_record_credited, List.map_map]
  constructor
  · intro h name hname
    exact count_eq_iff_not_exported.mpr fun hexported => h name hexported hname
  · intro h name hexported hname
    exact count_eq_iff_not_exported.mp (h name hname) hexported

/-- The tree of `export default f; function f() {}`. -/
def exportAhead : SyntaxTree :=
  .node "program" none true []
    [.node "export_statement" none true [("value", 2)]
      [.node "export" none false [] [], .node "default" none false [] [],
        .node "identifier" (some "f") true [] [], .node ";" none false [] []],
     .node "function_declaration" none true [("name", 1), ("body", 2)]
      [.node "function" none false [] [], .node "identifier" (some "f") true [] [],
        .node "statement_block" none true [] []]]

/-- An export in front of the only declaration of its name adds a second record. -/
theorem export_ahead_repeats :
    ¬ ExportsUndeclared .javascript exportAhead ∧
      extract .javascript exportAhead = [.function "f", .function "f"] := by
  decide

end Outline

end ProjectOutline
