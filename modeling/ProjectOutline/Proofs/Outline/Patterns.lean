import ProjectOutline.Proofs.Outline.Walk

/-!
# Names that patterns bind

The targets of a destructuring declaration have a syntax of their own: a `Pattern` is built from
variables, pairs, defaults, objects, arrays and rests, and tells by itself which names it binds.
Keys and default values are syntax trees of any shape, and bind nothing. `Pattern.Spells` tells
which trees are trees of a pattern; punctuation may stand anywhere in them.

The collection of names goes into every node that it does not know, so keys and defaults have to be
passed by at every level (`boundNames_of_spells`). The walk goes below the declaration as well, but
nothing that it meets there stands at the top, and all that it can report are classes and functions
(`declareAll_of_spells`).
-/

namespace ProjectOutline

/-- Whether nodes of a kind declare a class or a function. -/
def OutlineRules.declares (rules : OutlineRules) (kind : String) : Bool :=
  rules.isClass kind || rules.isFunction kind

namespace Outline

/-- A binding pattern. -/
inductive Pattern where
  /-- A variable, in an object possibly as a shorthand property. Its text is not blank. -/
  | name (shorthand : Bool) (text : String) (shown : Text.trim text ≠ "")
  /-- A property that is bound under another name, or taken apart further. -/
  | pair (key : SyntaxTree) (value : Pattern)
  /-- A target with a default value; objects have a node kind of their own for it. -/
  | withDefault (inObject : Bool) (target : Pattern) (value : SyntaxTree)
  /-- The properties of an object. -/
  | object (items : List Pattern)
  /-- The elements of an array. -/
  | array (items : List Pattern)
  /-- What is left of an object or an array. -/
  | rest (target : Pattern)

namespace Pattern

mutual

/-- The names that a pattern binds, from left to right. -/
def binds : Pattern → List String
  | name _ text _ => [Text.trim text]
  | pair _ value => value.binds
  | withDefault _ target _ => target.binds
  | object items | array items => bindsAll items
  | rest target => target.binds

/-- The names that the patterns of a list bind. -/
def bindsAll : List Pattern → List String
  | [] => []
  | p :: ps => p.binds ++ bindsAll ps

end

mutual

/-- The keys and default values in a pattern, at any depth. -/
def foreign : Pattern → List SyntaxTree
  | name _ _ _ => []
  | pair key value => key :: value.foreign
  | withDefault _ target value => target.foreign ++ [value]
  | object items | array items => foreignAll items
  | rest target => target.foreign

/-- The keys and default values in the patterns of a list. -/
def foreignAll : List Pattern → List SyntaxTree
  | [] => []
  | p :: ps => p.foreign ++ foreignAll ps

end

/-- The kind of a node that is a variable. -/
def nameKind (shorthand : Bool) : String :=
  if shorthand then "shorthand_property_identifier_pattern" else "identifier"

/-- The kind of a node that is a target with a default value. -/
def defaultKind (inObject : Bool) : String :=
  if inObject then "object_assignment_pattern" else "assignment_pattern"

mutual

/-- The tree is one of the pattern. Between its parts there may be any punctuation. -/
def Spells : Pattern → SyntaxTree → Prop
  | name shorthand text _, t =>
    t.kind = nameKind shorthand ∧ t.text? = some text ∧ t.namedChildren = []
  | pair key value, t =>
    t.kind = "pair_pattern" ∧ ∃ inner, t.field? "value" = some inner ∧
      t.namedChildren = [key, inner].filter SyntaxTree.named ∧ value.Spells inner
  | withDefault inObject target value, t =>
    t.kind = defaultKind inObject ∧ ∃ inner, t.field? "left" = some inner ∧
      t.namedChildren = [inner, value].filter SyntaxTree.named ∧ target.Spells inner
  | object items, t => t.kind = "object_pattern" ∧ SpellsAll items t.namedChildren
  | array items, t => t.kind = "array_pattern" ∧ SpellsAll items t.namedChildren
  | rest target, t =>
    t.kind = "rest_pattern" ∧ ∃ inner, t.namedChildren = [inner] ∧ target.Spells inner

/-- The trees are those of the patterns of a list, one by one. -/
def SpellsAll : List Pattern → List SyntaxTree → Prop
  | [], ts => ts = []
  | p :: ps, ts => ∃ t others, ts = t :: others ∧ p.Spells t ∧ SpellsAll ps others

end

end Pattern

/-! ## The collection of names -/

/-- A variable gives its text. -/
theorem boundNames_of_name {t : SyntaxTree} {shorthand : Bool} {text : String}
    (hkind : t.kind = Pattern.nameKind shorthand) (htext : t.text? = some text)
    (hshown : Text.trim text ≠ "") : boundNames t = [Text.trim text] := by
  have hvariable : isVariable t = true := by
    rw [isVariable, hkind]
    cases shorthand <;> decide
  have hreadable : readable? t = some (Text.trim text) := by
    rw [← textOf?_eq_readable?, textOf?, htext]
    exact if_neg hshown
  rw [boundNames_eq, if_pos hvariable, hreadable, Option.toList_some]

/-- Any other target gives the names of its binding parts. -/
theorem boundNames_of_parts {t : SyntaxTree} (parts : List SyntaxTree)
    (hpattern : isVariable t = false) (hparts : bindingParts t = parts) :
    boundNames t = parts.flatMap boundNames := by
  rw [boundNames_eq, hpattern, if_neg Bool.false_ne_true, hparts]

/-- A pair gives the names of its value. -/
theorem boundNames_of_pair {t inner : SyntaxTree} (hkind : t.kind = "pair_pattern")
    (hvalue : t.field? "value" = some inner) : boundNames t = boundNames inner := by
  rw [boundNames_of_parts [inner], List.flatMap_singleton]
  · rw [isVariable, hkind]
    decide
  · rw [bindingParts, if_pos hkind, hvalue, Option.toList_some]

/-- A target with a default value gives the names of its left side. -/
theorem boundNames_of_default {t inner : SyntaxTree} {inObject : Bool}
    (hkind : t.kind = Pattern.defaultKind inObject) (hleft : t.field? "left" = some inner) :
    boundNames t = boundNames inner := by
  rw [boundNames_of_parts [inner], List.flatMap_singleton]
  · rw [isVariable, hkind]
    cases inObject <;> decide
  · rw [bindingParts, hkind, if_neg (by cases inObject <;> decide),
      if_pos (by cases inObject <;> decide), hleft, Option.toList_some]

/-- Objects, arrays and rests give the names of their parts. -/
theorem boundNames_of_group {t : SyntaxTree}
    (hkind : t.kind = "object_pattern" ∨ t.kind = "array_pattern" ∨ t.kind = "rest_pattern") :
    boundNames t = t.namedChildren.flatMap boundNames := by
  apply boundNames_of_parts
  · rw [isVariable]
    rcases hkind with hkind | hkind | hkind <;> rw [hkind] <;> decide
  · rw [bindingParts]
    rcases hkind with hkind | hkind | hkind <;>
      rw [hkind, if_neg (by decide), if_neg (by decide)]

mutual

/-- The names that are collected from a tree of a pattern are those that the pattern binds. -/
theorem boundNames_of_spells :
    ∀ (p : Pattern) (t : SyntaxTree), p.Spells t → boundNames t = p.binds
  | .name _ _ shown, _, ⟨hkind, htext, _⟩ => by
    rw [boundNames_of_name hkind htext shown, Pattern.binds]
  | .pair _ value, _, ⟨hkind, inner, hvalue, _, hinner⟩ => by
    rw [boundNames_of_pair hkind hvalue, boundNames_of_spells value inner hinner, Pattern.binds]
  | .withDefault _ target _, _, ⟨hkind, inner, hleft, _, hinner⟩ => by
    rw [boundNames_of_default hkind hleft, boundNames_of_spells target inner hinner,
      Pattern.binds]
  | .object items, t, ⟨hkind, hitems⟩ => by
    rw [boundNames_of_group (Or.inl hkind), boundNames_of_spellsAll items _ hitems,
      Pattern.binds]
  | .array items, t, ⟨hkind, hitems⟩ => by
    rw [boundNames_of_group (Or.inr (Or.inl hkind)), boundNames_of_spellsAll items _ hitems,
      Pattern.binds]
  | .rest target, _, ⟨hkind, inner, hchildren, hinner⟩ => by
    rw [boundNames_of_group (Or.inr (Or.inr hkind)), hchildren, List.flatMap_singleton,
      boundNames_of_spells target inner hinner, Pattern.binds]

theorem boundNames_of_spellsAll :
    ∀ (ps : List Pattern) (ts : List SyntaxTree), Pattern.SpellsAll ps ts →
      ts.flatMap boundNames = Pattern.bindsAll ps
  | [], _, rfl => by simp [Pattern.bindsAll]
  | p :: ps, _, ⟨t, others, rfl, hp, hps⟩ => by
    rw [List.flatMap_cons, boundNames_of_spells p t hp, boundNames_of_spellsAll ps others hps,
      Pattern.bindsAll]

end

/-! ## Trees that report nothing -/

/-- No class and no function is declared in the tree, other than inside of one or in another local
scope. -/
def Quiet (t : SyntaxTree) : Prop :=
  ∀ site ∈ sites [] t, site.isVisible (OutlineRules.ofLanguage .javascript) = true →
    (OutlineRules.ofLanguage .javascript).declares site.node.kind = false

instance (t : SyntaxTree) : Decidable (Quiet t) :=
  inferInstanceAs (Decidable (∀ site ∈ sites [] t,
    site.isVisible (OutlineRules.ofLanguage .javascript) = true →
      (OutlineRules.ofLanguage .javascript).declares site.node.kind = false))

theorem mem_sitesAll_iff {ancestors : List String} {ts : List SyntaxTree} {site : Site} :
    site ∈ sitesAll ancestors ts ↔
      ∃ t ∈ ts.filter SyntaxTree.named, site ∈ sites ancestors t := by
  induction ts with
  | nil => simp [sitesAll]
  | cons t others ih =>
    rw [sitesAll, List.mem_append, ih]
    by_cases hnamed : t.named = true
    · simp [hnamed]
    · simp [hnamed]

mutual

/-- The sites of a node are the same wherever it stands, but for what lies around it. -/
theorem exists_mem_sites {front ancestors : List String} :
    ∀ (t : SyntaxTree) {site : Site}, site ∈ sites (front ++ ancestors) t →
      ∃ s ∈ sites ancestors t, site = ⟨front ++ s.ancestors, s.node⟩
  | .node kind text named fields children, site, h => by
    rw [sites, List.mem_cons, List.append_assoc] at h
    rw [sites]
    rcases h with rfl | h
    · exact ⟨_, List.mem_cons_self, rfl⟩
    · obtain ⟨s, hs, hsite⟩ := exists_mem_sitesAll children h
      exact ⟨s, List.mem_cons_of_mem _ hs, hsite⟩

theorem exists_mem_sitesAll {front ancestors : List String} :
    ∀ (ts : List SyntaxTree) {site : Site}, site ∈ sitesAll (front ++ ancestors) ts →
      ∃ s ∈ sitesAll ancestors ts, site = ⟨front ++ s.ancestors, s.node⟩
  | [], site, h => by simp [sitesAll] at h
  | t :: others, site, h => by
    rw [sitesAll, List.mem_append] at h
    rw [sitesAll]
    rcases h with h | h
    · split at h
      · next hnamed =>
        obtain ⟨s, hs, hsite⟩ := exists_mem_sites t h
        exact ⟨s, List.mem_append_left _ (by rw [if_pos hnamed]; exact hs), hsite⟩
      · cases h
    · obtain ⟨s, hs, hsite⟩ := exists_mem_sitesAll others h
      exact ⟨s, List.mem_append_right _ hs, hsite⟩

end

/-- A quiet tree declares no class and no function wherever it stands. -/
theorem Quiet.not_declares {t : SyntaxTree} (h : Quiet t) {ancestors : List String} {site : Site}
    (hsite : site ∈ sites ancestors t)
    (hvisible : site.isVisible (OutlineRules.ofLanguage .javascript) = true) :
    (OutlineRules.ofLanguage .javascript).declares site.node.kind = false := by
  rw [← List.append_nil ancestors] at hsite
  obtain ⟨s, hs, rfl⟩ := exists_mem_sites t hsite
  rw [Site.isVisible, List.all_append, Bool.and_eq_true] at hvisible
  exact h s hs hvisible.2

/-- A node is quiet if it declares neither itself and its children are quiet. -/
theorem quiet_of_children {t : SyntaxTree}
    (hkind : (OutlineRules.ofLanguage .javascript).declares t.kind = false)
    (h : ∀ child ∈ t.namedChildren, Quiet child) : Quiet t := by
  obtain ⟨kind, text, named, fields, children⟩ := t
  intro site hsite hvisible
  rw [sites, List.mem_cons] at hsite
  rcases hsite with rfl | hsite
  · exact hkind
  · obtain ⟨child, hchild, hsite⟩ := mem_sitesAll_iff.mp hsite
    exact (h child hchild).not_declares hsite hvisible

/-- The same of a node whose children are given with the punctuation among them. -/
theorem quiet_of_parts {t : SyntaxTree} {parts : List SyntaxTree}
    (hkind : (OutlineRules.ofLanguage .javascript).declares t.kind = false)
    (hchildren : t.namedChildren = parts.filter SyntaxTree.named)
    (h : ∀ part ∈ parts, Quiet part) : Quiet t := by
  refine quiet_of_children hkind fun child hchild => ?_
  rw [hchildren] at hchild
  exact h child (List.mem_of_mem_filter hchild)

mutual

/-- A tree of a pattern is quiet if the keys and default values in it are. -/
theorem quiet_of_spells :
    ∀ (p : Pattern) (t : SyntaxTree), p.Spells t → (∀ e ∈ p.foreign, Quiet e) → Quiet t
  | .name shorthand _ _, t, ⟨hkind, _, hchildren⟩, _ => by
    refine quiet_of_children (by rw [hkind]; cases shorthand <;> decide) ?_
    rw [hchildren]
    simp
  | .pair key value, t, ⟨hkind, inner, _, hchildren, hinner⟩, hforeign => by
    rw [Pattern.foreign] at hforeign
    have hvalue := quiet_of_spells value inner hinner fun e he =>
      hforeign e (List.mem_cons_of_mem _ he)
    refine quiet_of_parts (by rw [hkind]; decide) hchildren ?_
    exact List.forall_mem_cons.mpr
      ⟨hforeign key List.mem_cons_self, List.forall_mem_singleton.mpr hvalue⟩
  | .withDefault inObject target value, t, ⟨hkind, inner, _, hchildren, hinner⟩, hforeign => by
    rw [Pattern.foreign] at hforeign
    have htarget := quiet_of_spells target inner hinner fun e he =>
      hforeign e (List.mem_append_left _ he)
    have hdefault := hforeign value (List.mem_append_right _ (List.mem_singleton.mpr rfl))
    refine quiet_of_parts (by rw [hkind]; cases inObject <;> decide) hchildren ?_
    exact List.forall_mem_cons.mpr ⟨htarget, List.forall_mem_singleton.mpr hdefault⟩
  | .object items, t, ⟨hkind, hitems⟩, hforeign => by
    rw [Pattern.foreign] at hforeign
    exact quiet_of_children (by rw [hkind]; decide)
      (quiet_of_spellsAll items _ hitems hforeign)
  | .array items, t, ⟨hkind, hitems⟩, hforeign => by
    rw [Pattern.foreign] at hforeign
    exact quiet_of_children (by rw [hkind]; decide)
      (quiet_of_spellsAll items _ hitems hforeign)
  | .rest target, t, ⟨hkind, inner, hchildren, hinner⟩, hforeign => by
    rw [Pattern.foreign] at hforeign
    have htarget := quiet_of_spells target inner hinner hforeign
    refine quiet_of_children (by rw [hkind]; decide) ?_
    rw [hchildren]
    exact List.forall_mem_singleton.mpr htarget

theorem quiet_of_spellsAll :
    ∀ (ps : List Pattern) (ts : List SyntaxTree), Pattern.SpellsAll ps ts →
      (∀ e ∈ Pattern.foreignAll ps, Quiet e) → ∀ t ∈ ts, Quiet t
  | [], _, rfl, _ => by simp
  | p :: ps, _, ⟨t, others, rfl, hp, hps⟩, hforeign => by
    rw [Pattern.foreignAll] at hforeign
    have hfirst := quiet_of_spells p t hp fun e he => hforeign e (List.mem_append_left _ he)
    have hothers := quiet_of_spellsAll ps others hps fun e he =>
      hforeign e (List.mem_append_right _ he)
    exact List.forall_mem_cons.mpr ⟨hfirst, hothers⟩

end

/-! ## Declarations of variables -/

/-- A target and what follows it: its type and its initialiser, where there are any. -/
structure Declarator where
  target : Pattern
  behind : List SyntaxTree

namespace Declarator

/-- The tree is one of the declarator. -/
def Spells (d : Declarator) (t : SyntaxTree) : Prop :=
  t.kind = "variable_declarator" ∧ ∃ inner, t.field? "name" = some inner ∧
    t.namedChildren = (inner :: d.behind).filter SyntaxTree.named ∧ d.target.Spells inner

/-- The keys, the default values and the initialiser. -/
def foreign (d : Declarator) : List SyntaxTree :=
  d.target.foreign ++ d.behind

/-- The tree declares variables by these declarators. -/
def SpellsAll (ds : List Declarator) (t : SyntaxTree) : Prop :=
  (t.kind = "lexical_declaration" ∨ t.kind = "variable_declaration") ∧
    List.Forall₂ Spells ds t.namedChildren

end Declarator

theorem bindingNames_of_spells {ds : List Declarator} {t : SyntaxTree}
    (h : Declarator.SpellsAll ds t) :
    bindingNames .javascript t = ds.flatMap (·.target.binds) := by
  obtain ⟨-, hall⟩ := h
  rw [bindingNames]
  generalize t.namedChildren = children at hall
  induction hall with
  | nil => rfl
  | cons hd _ ih =>
    obtain ⟨hkind, inner, hname, -, hinner⟩ := hd
    rw [List.filter_cons_of_pos (by rw [hkind]; decide), List.flatMap_cons, List.flatMap_cons, ih,
      hname, Option.toList_some, List.flatMap_singleton, ← boundNames_eq_introduced,
      boundNames_of_spells _ _ hinner]

theorem quiet_of_declaration {ds : List Declarator} {t : SyntaxTree}
    (h : Declarator.SpellsAll ds t) (hquiet : ∀ d ∈ ds, ∀ e ∈ d.foreign, Quiet e) : Quiet t := by
  have hdeclarator : ∀ (d : Declarator) (child : SyntaxTree), d.Spells child →
      (∀ e ∈ d.foreign, Quiet e) → Quiet child := by
    rintro d child ⟨hkind, inner, -, hchildren, hinner⟩ hforeign
    have htarget := quiet_of_spells d.target inner hinner fun e he =>
      hforeign e (List.mem_append_left _ he)
    refine quiet_of_parts (by rw [hkind]; decide) hchildren (List.forall_mem_cons.mpr ⟨htarget, ?_⟩)
    exact fun part hpart => hforeign part (List.mem_append_right _ hpart)
  obtain ⟨hkind, hall⟩ := h
  refine quiet_of_children ?_ ?_
  · rcases hkind with hkind | hkind <;> rw [hkind] <;> decide
  · generalize t.namedChildren = children at hall
    induction hall with
    | nil => simp
    | cons hd _ ih =>
      refine List.forall_mem_cons.mpr ⟨?_, ?_⟩
      · exact hdeclarator _ _ hd (hquiet _ List.mem_cons_self)
      · exact ih fun d hd => hquiet d (List.mem_cons_of_mem _ hd)

/-! ## What a declaration adds -/

/-- Sites that are neither classes nor functions and do not stand at the top add nothing. -/
theorem declareAll_of_silent {sites : List Site}
    (h : ∀ site ∈ sites, site.isVisible (OutlineRules.ofLanguage .javascript) = true →
      (OutlineRules.ofLanguage .javascript).declares site.node.kind = false ∧
        site.isAtTop (OutlineRules.ofLanguage .javascript) = false)
    (out : List Declaration) : declareAll .javascript sites out = out := by
  induction sites with
  | nil => rfl
  | cons site others ih =>
    have hothers := ih fun s hs => h s (List.mem_cons_of_mem _ hs)
    rw [declareAll] at hothers ⊢
    by_cases hvisible : site.isVisible (OutlineRules.ofLanguage .javascript) = true
    · obtain ⟨hkind, htop⟩ := h site List.mem_cons_self hvisible
      obtain ⟨hclass, hfunction⟩ := Bool.or_eq_false_iff.mp hkind
      have hdeclare : site.declare .javascript out = out := by
        simp [Site.declare, hclass, hfunction, htop]
      rw [List.filter_cons_of_pos hvisible, List.foldl_cons, hdeclare, hothers]
    · rw [List.filter_cons_of_neg hvisible, hothers]

/-- Below a quiet node that is no wrapper nothing is added: the kind of the node stands between the
sites and the top. -/
theorem declareAll_below_of_quiet {t : SyntaxTree} (h : Quiet t)
    (hproper : (OutlineRules.ofLanguage .javascript).isPassthrough t.kind = false)
    (ancestors : List String) (out : List Declaration) :
    declareAll .javascript (sitesAll (ancestors ++ [t.kind]) t.children) out = out := by
  obtain ⟨kind, text, named, fields, children⟩ := t
  refine declareAll_of_silent (fun site hsite hvisible => ?_) out
  have hmem : site ∈ sites ancestors (.node kind text named fields children) := by
    rw [sites]
    exact List.mem_cons_of_mem _ hsite
  have hkind : kind ∈ site.ancestors :=
    (ancestors_beginAll children hsite).subset
      (List.mem_append_right _ (List.mem_singleton.mpr rfl))
  refine ⟨h.not_declares hmem hvisible, List.all_eq_false.mpr ⟨kind, hkind, ?_⟩⟩
  rw [Bool.not_eq_true]
  exact hproper

/-- What stands at the top is visible. -/
theorem Site.isVisible_of_isAtTop {language : Language} {site : Site}
    (h : site.isAtTop (OutlineRules.ofLanguage language) = true) :
    site.isVisible (OutlineRules.ofLanguage language) = true := by
  rw [Site.isAtTop, List.all_eq_true] at h
  rw [Site.isVisible, List.all_eq_true]
  intro kind hkind
  rw [(OutlineRules.coherent_ofLanguage language).passthrough_shows kind (h kind hkind)]
  rfl

/-- A declaration of variables at the top adds the names that its patterns bind. -/
theorem declareAll_of_spells {ancestors : List String} {ds : List Declarator} {t : SyntaxTree}
    (htop : Site.isAtTop (OutlineRules.ofLanguage .javascript) ⟨ancestors, t⟩ = true)
    (h : Declarator.SpellsAll ds t) (hquiet : ∀ d ∈ ds, ∀ e ∈ d.foreign, Quiet e)
    (out : List Declaration) :
    declareAll .javascript (sites ancestors t) out =
      out ++ (ds.flatMap (·.target.binds)).map Declaration.function := by
  obtain ⟨hclass, hfunction, hbinding⟩ :
      (OutlineRules.ofLanguage .javascript).isClass t.kind = false ∧
        (OutlineRules.ofLanguage .javascript).isFunction t.kind = false ∧
        (OutlineRules.ofLanguage .javascript).isBinding t.kind = true := by
    rcases h.1 with hkind | hkind <;> rw [hkind] <;> decide
  have hdeclare : Site.declare .javascript out ⟨ancestors, t⟩ =
      out ++ (ds.flatMap (·.target.binds)).map Declaration.function := by
    simp [Site.declare, hclass, hfunction, hbinding, htop, bindingNames_of_spells h]
  have hbelow := declareAll_below_of_quiet (quiet_of_declaration h hquiet)
    ((OutlineRules.coherent_ofLanguage .javascript).binding_proper _ hbinding) ancestors
    (out ++ (ds.flatMap (·.target.binds)).map Declaration.function)
  obtain ⟨kind, text, named, fields, children⟩ := t
  rw [sites, declareAll, List.filter_cons_of_pos (Site.isVisible_of_isAtTop htop),
    List.foldl_cons, hdeclare, ← declareAll]
  exact hbelow

/-- **Destructuring reports exactly the bound variables.** From a tree of a pattern the names are
collected that the pattern binds, from left to right and once for each place, and none from keys or
default values. A declaration of variables at the top of a file, whose keys, default values and
initialisers declare no class and no function outside of a local scope, adds these names to the
records of the sites before it, and nothing else; the sites behind it go on from there. -/
theorem destructuring_reports_bound_names :
    (∀ (p : Pattern) (t : SyntaxTree), p.Spells t → boundNames t = p.binds) ∧
    ∀ (root t : SyntaxTree) (ancestors : List String) (before after : List Site)
      (ds : List Declarator),
      sitesBelow root = before ++ sites ancestors t ++ after →
      Site.isAtTop (OutlineRules.ofLanguage .javascript) ⟨ancestors, t⟩ = true →
      Declarator.SpellsAll ds t → (∀ d ∈ ds, ∀ e ∈ d.foreign, Quiet e) →
      extract .javascript root =
        declareAll .javascript after (declareAll .javascript before [] ++
          (ds.flatMap (·.target.binds)).map Declaration.function) := by
  refine ⟨boundNames_of_spells, fun root t ancestors before after ds hsites htop h hquiet => ?_⟩
  rw [List.append_assoc] at hsites
  rw [extract_of_append hsites, declareAll_append, declareAll_of_spells htop h hquiet]

/-- The key of `[k]: v`. -/
def computedKey : SyntaxTree :=
  .node "computed_property_name" none true [] [mark "[", leaf "identifier" "k", mark "]"]

/-- The pattern `[k]: v = d, s` in braces. -/
def nestedPattern : Pattern :=
  .object [
    .pair computedKey (.withDefault false (.name false "v" (by decide)) (leaf "identifier" "d")),
    .name true "s" (by decide)]

def nestedTree : SyntaxTree :=
  .node "object_pattern" none true [] [mark "\x7b",
    .node "pair_pattern" none true [("key", 0), ("value", 2)] [
      computedKey,
      mark ":",
      .node "assignment_pattern" none true [("left", 0), ("right", 2)]
        [leaf "identifier" "v", mark "=", leaf "identifier" "d"]],
    mark ",", leaf "shorthand_property_identifier_pattern" "s", mark "\x7d"]

/-- An initialiser with a function in a local scope, `() => { function g() {} }`. -/
def localFunction : SyntaxTree :=
  .node "arrow_function" none true [("body", 2)] [leaf "formal_parameters" "()", mark "=>",
    .node "statement_block" none true [] [mark "\x7b",
      .node "function_declaration" none true [("name", 1)]
        [mark "function", leaf "identifier" "g"], mark "\x7d"]]

/-- The pattern with this initialiser, and `[...r] = p`. -/
def nestedTargets : List Declarator :=
  [⟨nestedPattern, [localFunction]⟩,
   ⟨.array [.rest (.name false "r" (by decide))], [leaf "identifier" "p"]⟩]

def nestedDeclaration : SyntaxTree :=
  .node "lexical_declaration" none true [("kind", 0)] [mark "const",
    .node "variable_declarator" none true [("name", 0), ("value", 2)]
      [nestedTree, mark "=", localFunction],
    mark ",",
    .node "variable_declarator" none true [("name", 0), ("value", 2)] [
      .node "array_pattern" none true [] [mark "[",
        .node "rest_pattern" none true [] [mark "...", leaf "identifier" "r"], mark "]"],
      mark "=", leaf "identifier" "p"],
    mark ";"]

/-- Exported, the declaration adds `v`, `s` and `r`. The key `k`, the default `d` and the function
in the initialiser are not reported. -/
theorem destructuring_reports_bound_names_nested :
    (nestedPattern.Spells nestedTree ∧ boundNames nestedTree = ["v", "s"]) ∧
      Declarator.SpellsAll nestedTargets nestedDeclaration ∧
      (∀ d ∈ nestedTargets, ∀ e ∈ d.foreign, Quiet e) ∧
      extract .javascript (.node "program" none true []
        [.node "export_statement" none true [("declaration", 1)]
          [mark "export", nestedDeclaration]]) =
        [.function "v", .function "s", .function "r"] := by
  have hpattern : nestedPattern.Spells nestedTree := by
    refine ⟨rfl, _, _, rfl, ⟨rfl, _, rfl, rfl, rfl, _, rfl, rfl, rfl, rfl, rfl⟩, ?_⟩
    exact ⟨_, _, rfl, ⟨rfl, rfl, rfl⟩, rfl⟩
  have hspells : Declarator.SpellsAll nestedTargets nestedDeclaration := by
    refine ⟨Or.inl rfl, .cons ⟨rfl, _, rfl, rfl, hpattern⟩ (.cons ⟨rfl, _, rfl, rfl, rfl, ?_⟩ .nil)⟩
    exact ⟨_, _, rfl, ⟨rfl, _, rfl, rfl, rfl, rfl⟩, rfl⟩
  have hquiet : ∀ d ∈ nestedTargets, ∀ e ∈ d.foreign, Quiet e := by decide
  have hbound := destructuring_reports_bound_names.1 nestedPattern nestedTree hpattern
  refine ⟨⟨hpattern, hbound.trans (by decide)⟩, hspells, hquiet, ?_⟩
  rw [destructuring_reports_bound_names.2 _ nestedDeclaration ["export_statement"]
    [⟨[], .node "export_statement" none true [("declaration", 1)]
      [mark "export", nestedDeclaration]⟩] [] nestedTargets rfl (by decide) hspells hquiet]
  decide

end Outline

end ProjectOutline
