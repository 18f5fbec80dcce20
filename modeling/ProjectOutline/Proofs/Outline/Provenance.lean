import ProjectOutline.Outline
import ProjectOutline.Proofs.Text.Trimming

/-!
# Where the names of an outline come from

A name in an outline is the trimmed text of a node that is reached from the root through named
children and fields (`Outline.Taken`), so it is not empty and has no blank at either end. There is
one exception: a class without a readable name is recorded under a stand-in (`Outline.Sourced`).

Names are found in four ways: in the name field of a class, a function or a method, behind the
wrapper of a method, in a pattern of any depth, and as a bare identifier of an export. Each of them
ends in `textOf?`. The walk goes to reached nodes only, and a step of it keeps `Sourced` of all the
records so far (`visit_sourced`, one case for each branch).
-/

namespace ProjectOutline

/-- The nodes that are reached from a root through named children and fields. -/
inductive SyntaxTree.Reached (root : SyntaxTree) : SyntaxTree → Prop where
  | root : Reached root root
  | child {t c : SyntaxTree} (h : Reached root t) (hc : c ∈ t.namedChildren) : Reached root c
  | field {t c : SyntaxTree} (name : String) (h : Reached root t) (hc : t.field? name = some c) :
    Reached root c

section Parts

variable {root : SyntaxTree} {kind : String} {text : Option String} {named : Bool}
  {fields : List (String × Nat)} {children : List SyntaxTree}

theorem SyntaxTree.Reached.all (h : Reached root (.node kind text named fields children)) :
    ∀ c ∈ children, c.named = true → Reached root c :=
  fun _ hc hnamed => h.child (List.mem_filter.mpr ⟨hc, hnamed⟩)

theorem SyntaxTree.Reached.part {name : String} {i : Nat}
    (h : Reached root (.node kind text named fields children))
    (hi : fields.lookup name = some i) : ∀ c, children[i]? = some c → Reached root c :=
  fun _ hc => h.field name (Option.bind_eq_some_iff.mpr ⟨i, hi, hc⟩)

end Parts

namespace Outline

open SyntaxTree (Reached)

variable {root : SyntaxTree}

/-- A name that is the trimmed text of a reached node. -/
structure Taken (root : SyntaxTree) (name : String) : Prop where
  trimmed : Text.Trimmed name
  node : ∃ t text, Reached root t ∧ t.text? = some text ∧ Text.trim text = name

/-- A class node without a readable name: it has no name field, or the text of that field is unknown
or blank. -/
def Unnamed (t : SyntaxTree) : Prop :=
  ∀ field, t.field? "name" = some field → ∀ text, field.text? = some text →
    ∀ c ∈ text.toList, Text.isBlank c = true

/-- The record of a reached class node without a readable name. -/
def StandIn (rules : OutlineRules) (root : SyntaxTree) (d : Declaration) : Prop :=
  ∃ t, Reached root t ∧ rules.isClass t.kind = true ∧ d = classRecord rules t ∧ Unnamed t ∧
    d.name = "UnnamedClass"

/-- A record with its names from reached nodes. -/
structure Sourced (rules : OutlineRules) (root : SyntaxTree) (d : Declaration) : Prop where
  trimmed : Text.Trimmed d.name
  name : Taken root d.name ∨ StandIn rules root d
  methods : ∀ method ∈ d.methods, Taken root method

/-! ## Single names -/

theorem taken_of_textOf? {t : SyntaxTree} {name : String} (ht : Reached root t)
    (h : textOf? t = some name) : Taken root name := by
  obtain ⟨text, htext, hname⟩ := Option.bind_eq_some_iff.mp h
  dsimp only at hname
  split at hname
  · cases hname
  · rename_i hne
    cases hname
    exact ⟨Text.trimmed_trim hne, t, text, ht, htext, rfl⟩

theorem taken_of_nameOf? {t : SyntaxTree} {name : String} (ht : Reached root t)
    (h : nameOf? t = some name) : Taken root name := by
  obtain ⟨field, hfield, htext⟩ := Option.bind_eq_some_iff.mp h
  exact taken_of_textOf? (ht.field "name" hfield) htext

theorem taken_of_methodName? {rules : OutlineRules} {t : SyntaxTree} {name : String}
    (ht : Reached root t) (h : methodName? rules t = some name) : Taken root name := by
  rw [methodName?] at h
  split at h
  · exact taken_of_nameOf? ht h
  split at h
  · obtain ⟨wrapped, hwrapped, hname⟩ := Option.bind_eq_some_iff.mp h
    obtain ⟨field, -, hfield⟩ := Option.bind_eq_some_iff.mp hwrapped
    split at hname
    · exact taken_of_nameOf? (ht.field field hfield) hname
    · cases hname
  · cases h

theorem unnamed_of_nameOf? {t : SyntaxTree} (h : nameOf? t = none) : Unnamed t := by
  intro field hfield text htext
  rw [← Text.trim_eq_empty_iff]
  rw [nameOf?, hfield, Option.bind_some, textOf?, htext, Option.bind_some] at h
  dsimp only at h
  split at h
  · assumption
  · cases h

/-! ## Records -/

theorem sourced_function {rules : OutlineRules} {name : String} (h : Taken root name) :
    Sourced rules root (.function name) :=
  ⟨h.trimmed, Or.inl h, nofun⟩

theorem trimmed_unnamedClass : Text.Trimmed Declaration.unnamedClass where
  ne := by decide
  first := by
    intro c hc
    obtain rfl : 'U' = c := Option.some.inj hc
    rfl
  last := by
    intro c hc
    obtain rfl : 's' = c := Option.some.inj hc
    rfl

theorem taken_of_mem_methods {rules : OutlineRules} {t : SyntaxTree} (ht : Reached root t) :
    ∀ method ∈ (classRecord rules t).methods, Taken root method := by
  intro method hmethod
  rw [classRecord, Declaration.methods] at hmethod
  split at hmethod
  · rename_i body hbody
    obtain ⟨child, hchild, hname⟩ := List.mem_filterMap.mp hmethod
    exact taken_of_methodName? ((ht.field _ hbody).child hchild) hname
  · cases hmethod

theorem sourced_classRecord {rules : OutlineRules} {t : SyntaxTree} (ht : Reached root t)
    (hclass : rules.isClass t.kind = true) : Sourced rules root (classRecord rules t) := by
  cases hname : nameOf? t with
  | some name =>
    have hrecord : (classRecord rules t).name = name := by
      rw [classRecord, hname]
      rfl
    have htaken : Taken root (classRecord rules t).name := by
      rw [hrecord]
      exact taken_of_nameOf? ht hname
    exact ⟨htaken.trimmed, Or.inl htaken, taken_of_mem_methods ht⟩
  | none =>
    have hrecord : (classRecord rules t).name = Declaration.unnamedClass := by
      rw [classRecord, hname]
      rfl
    refine ⟨?_, Or.inr ⟨t, ht, hclass, rfl, unnamed_of_nameOf? hname, hrecord⟩,
      taken_of_mem_methods ht⟩
    rw [hrecord]
    exact trimmed_unnamedClass

/-- All records have their names from reached nodes. -/
abbrev AllSourced (rules : OutlineRules) (root : SyntaxTree) (out : List Declaration) : Prop :=
  ∀ d ∈ out, Sourced rules root d

theorem AllSourced.append {rules : OutlineRules} {out new : List Declaration}
    (h : AllSourced rules root out) (hnew : AllSourced rules root new) :
    AllSourced rules root (out ++ new) := by
  intro d hd
  rcases List.mem_append.mp hd with hd | hd
  · exact h d hd
  · exact hnew d hd

theorem allSourced_functions {rules : OutlineRules} {names : List String}
    (h : ∀ name ∈ names, Taken root name) :
    AllSourced rules root (names.map Declaration.function) := by
  intro d hd
  obtain ⟨name, hname, rfl⟩ := List.mem_map.mp hd
  exact sourced_function (h name hname)

theorem addExported_sourced {rules : OutlineRules} {t : SyntaxTree} {out : List Declaration}
    (ht : Reached root t) (h : AllSourced rules root out) :
    AllSourced rules root (addExported t out) := by
  have hnames : ∀ name ∈ (t.namedChildren.filter (·.kind = "identifier")).filterMap textOf?,
      Taken root name := by
    intro name hname
    obtain ⟨child, hchild, htext⟩ := List.mem_filterMap.mp hname
    exact taken_of_textOf? (ht.child (List.mem_of_mem_filter hchild)) htext
  rw [addExported]
  generalize (t.namedChildren.filter (·.kind = "identifier")).filterMap textOf? = names at hnames
  induction names generalizing out with
  | nil => exact h
  | cons name rest ih =>
    rw [List.foldl_cons]
    refine ih ?_ (fun other hother => hnames other (List.mem_cons_of_mem _ hother))
    rw [addNew]
    split
    · exact h
    · exact h.append (List.forall_mem_singleton.mpr
        (sourced_function (hnames name List.mem_cons_self)))

/-! ## Patterns -/

mutual

theorem taken_of_boundNames : ∀ (t : SyntaxTree), Reached root t →
    ∀ name ∈ boundNames t, Taken root name
  | .node kind text named fields children, ht, name, hname => by
    rw [boundNames] at hname
    split at hname
    · exact taken_of_textOf? ht (Option.mem_toList.mp hname)
    split at hname
    · split at hname
      · rename_i i hi
        exact taken_of_boundNamesAt i children (ht.part hi) name hname
      · cases hname
    split at hname
    · split at hname
      · rename_i i hi
        exact taken_of_boundNamesAt i children (ht.part hi) name hname
      · cases hname
    · exact taken_of_boundNamesAll children ht.all name hname

theorem taken_of_boundNamesAt : ∀ (i : Nat) (ts : List SyntaxTree),
    (∀ t, ts[i]? = some t → Reached root t) → ∀ name ∈ boundNamesAt i ts, Taken root name
  | _, [], _, name, hname => by
    rw [boundNamesAt] at hname
    cases hname
  | 0, t :: _, hts, name, hname => by
    rw [boundNamesAt] at hname
    exact taken_of_boundNames t (hts t rfl) name hname
  | i + 1, _ :: rest, hts, name, hname => by
    rw [boundNamesAt] at hname
    exact taken_of_boundNamesAt i rest hts name hname

theorem taken_of_boundNamesAll : ∀ (ts : List SyntaxTree),
    (∀ t ∈ ts, t.named = true → Reached root t) → ∀ name ∈ boundNamesAll ts, Taken root name
  | [], _, name, hname => by
    rw [boundNamesAll] at hname
    cases hname
  | t :: rest, hts, name, hname => by
    rw [boundNamesAll, List.mem_append] at hname
    rcases hname with hname | hname
    · split at hname
      · rename_i hnamed
        exact taken_of_boundNames t (hts t List.mem_cons_self hnamed) name hname
      · cases hname
    · exact taken_of_boundNamesAll rest
        (fun other hother => hts other (List.mem_cons_of_mem _ hother)) name hname

end

theorem taken_of_declaredNames {rules : OutlineRules} {t : SyntaxTree} (ht : Reached root t) :
    ∀ name ∈ declaredNames rules t, Taken root name := by
  intro name hname
  obtain ⟨declarator, hdeclarator, hbound⟩ := List.mem_flatMap.mp hname
  have hreached := ht.child (List.mem_of_mem_filter hdeclarator)
  split at hbound
  · rename_i target htarget
    exact taken_of_boundNames target (hreached.field "name" htarget) name hbound
  · cases hbound

/-! ## The walk -/

mutual

theorem visit_sourced (rules : OutlineRules) : ∀ (t : SyntaxTree) (scope : Scope)
    (out : List Declaration), Reached root t → AllSourced rules root out →
      AllSourced rules root (visit rules scope t out)
  | .node kind text named fields children, scope, out, ht, hout => by
    rw [visit]
    dsimp only
    split
    · rename_i hclass
      -- The body is gone through in any scope; only in a module scope there is a record before it.
      have hbody (inside : Scope) (found : List Declaration)
          (hfound : AllSourced rules root found) :
          AllSourced rules root (match fields.lookup rules.bodyField with
            | some i => visitBelowAt rules inside i children found
            | none => found) := by
        split
        · rename_i i hi
          exact visitBelowAt_sourced rules i children inside found (ht.part hi) hfound
        · exact hfound
      cases scope.isModule with
      | true =>
        have hrecord : AllSourced rules root [classRecord rules _] :=
          List.forall_mem_singleton.mpr (sourced_classRecord ht hclass)
        exact hbody .classBody _ (hout.append hrecord)
      | false => exact hbody .inner out hout
    split
    · refine visitAll_sourced rules children _ _ ht.all ?_
      split
      · rw [Option.toList_map]
        exact hout.append (allSourced_functions fun name hname =>
          taken_of_nameOf? ht (Option.mem_toList.mp hname))
      · exact hout
    split
    · exact visitAll_sourced rules children _ _ ht.all
        (hout.append (allSourced_functions (taken_of_declaredNames ht)))
    split
    · refine visitAll_sourced rules children _ _ ht.all ?_
      split
      · exact addExported_sourced ht hout
      · exact hout
    · exact visitAll_sourced rules children _ _ ht.all hout

theorem visitAll_sourced (rules : OutlineRules) : ∀ (ts : List SyntaxTree) (scope : Scope)
    (out : List Declaration), (∀ t ∈ ts, t.named = true → Reached root t) →
      AllSourced rules root out → AllSourced rules root (visitAll rules scope ts out)
  | [], _, out, _, hout => by
    rw [visitAll]
    exact hout
  | t :: rest, scope, out, hts, hout => by
    rw [visitAll]
    refine visitAll_sourced rules rest scope _
      (fun other hother => hts other (List.mem_cons_of_mem _ hother)) ?_
    split
    · rename_i hnamed
      exact visit_sourced rules t scope out (hts t List.mem_cons_self hnamed) hout
    · exact hout

theorem visitBelowAt_sourced (rules : OutlineRules) : ∀ (i : Nat) (ts : List SyntaxTree)
    (scope : Scope) (out : List Declaration), (∀ t, ts[i]? = some t → Reached root t) →
      AllSourced rules root out → AllSourced rules root (visitBelowAt rules scope i ts out)
  | _, [], _, out, _, hout => by
    rw [visitBelowAt]
    exact hout
  | 0, t :: _, scope, out, hts, hout => by
    rw [visitBelowAt]
    exact visitBelow_sourced rules t scope out (hts t rfl) hout
  | i + 1, _ :: rest, scope, out, hts, hout => by
    rw [visitBelowAt]
    exact visitBelowAt_sourced rules i rest scope out hts hout

theorem visitBelow_sourced (rules : OutlineRules) : ∀ (t : SyntaxTree) (scope : Scope)
    (out : List Declaration), Reached root t → AllSourced rules root out →
      AllSourced rules root (visitBelow rules scope t out)
  | .node _ _ _ _ children, scope, out, ht, hout => by
    rw [visitBelow]
    exact visitAll_sourced rules children scope out ht.all hout

end

/-- **Every name of an outline is the trimmed text of a reached node**, but for classes without a
readable name. -/
theorem extract_names_from_source (language : Language) (root : SyntaxTree) :
    ∀ d ∈ extract language root, Sourced (OutlineRules.ofLanguage language) root d := by
  rw [extract]
  exact visitBelow_sourced _ root .topLevel [] .root nofun

/-- A class whose name is blank, and an exported identifier. -/
def blankName : SyntaxTree :=
  .node "program" none true [] [
    .node "class_declaration" none true [("name", 0), ("body", 1)] [
      .node "type_identifier" (some " \t") true [] [],
      .node "class_body" none true [] [
        .node "method_definition" none true [("name", 0)] [
          .node "property_identifier" (some " run ") true [] []]]],
    .node "export_statement" none true [] [.node "identifier" (some "helper\n") true [] []]]

theorem extract_names_from_source_blankName :
    extract .javascript blankName = [.classDef "UnnamedClass" ["run"], .function "helper"] ∧
      Sourced .javascript blankName (.classDef "UnnamedClass" ["run"]) ∧
      Sourced .javascript blankName (.function "helper") :=
  ⟨by decide, extract_names_from_source .javascript blankName _ (by decide),
    extract_names_from_source .javascript blankName _ (by decide)⟩

end Outline

end ProjectOutline
