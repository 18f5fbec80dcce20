import ProjectOutline.Path
import ProjectOutline.Proofs.Text.Pieces

/-!
# Components of joined paths

A path that is put behind another adds the components of its segments, however the two are spelled
(`components_join`). Behind its first component a path has only names and `..`
(`plain_of_components_eq`). Each of these is told by its label, which has no slash, so such
components and their labels joined by slashes tell each other (`split_slashed`,
`prefix_labels_iff`). The label of an absolute path begins with a slash, and spells the same
components (`components_slashed_root_append`).
-/

namespace ProjectOutline.Path

/-! ## Segments -/

/-- The components of the segments of a spelled path. -/
def segmentComponents (cs : List Char) : List Component :=
  (Text.splitChars '/' cs).filterMap Component.ofSegment?

theorem segmentComponents_append_slash (front back : List Char) :
    segmentComponents (front ++ '/' :: back) =
      segmentComponents front ++ segmentComponents back := by
  rw [segmentComponents, Text.splitChars_append_separator, List.filterMap_append]
  rfl

theorem startsAtRoot_cons (c : Char) (rest : List Char) :
    startsAtRoot (c :: rest) = decide (c = '/') := by
  by_cases hc : c = '/'
  · rw [hc]
    rfl
  · rw [decide_eq_false hc, startsAtRoot]
    rintro _ ⟨⟩
    exact hc rfl

theorem leadingComponent_append_slash {front : List Char} (back : List Char) (h : front ≠ []) :
    leadingComponent (front ++ '/' :: back) = leadingComponent front := by
  obtain ⟨c, rest, rfl⟩ := List.exists_cons_of_ne_nil h
  have hhead : (Text.splitChars '/' (c :: rest ++ '/' :: back)).head? =
      (Text.splitChars '/' (c :: rest)).head? := by
    rw [Text.splitChars_append_separator]
    cases hpieces : Text.splitChars '/' (c :: rest) with
    | nil => exact absurd hpieces (Text.splitChars_ne_nil '/' _)
    | cons piece pieces => rfl
  rw [leadingComponent, leadingComponent, hhead, List.cons_append, startsAtRoot_cons,
    startsAtRoot_cons]

theorem length_leadingComponent_le (cs : List Char) : (leadingComponent cs).length ≤ 1 := by
  rw [leadingComponent]
  split
  · exact Nat.le_refl 1
  · split
    · exact Nat.le_refl 1
    · exact Nat.zero_le 1

theorem componentsOf_append_slash {front : List Char} (back : List Char) (h : front ≠ []) :
    componentsOf (front ++ '/' :: back) = componentsOf front ++ segmentComponents back := by
  change _ ++ segmentComponents _ = (_ ++ segmentComponents _) ++ _
  rw [leadingComponent_append_slash back h, segmentComponents_append_slash, List.append_assoc]

/-- A slash at the end adds no component. -/
theorem componentsOf_concat_slash {front : List Char} (h : front ≠ []) :
    componentsOf (front ++ ['/']) = componentsOf front := by
  rw [componentsOf_append_slash [] h]
  exact List.append_nil _

theorem componentsOf_ne_nil {cs : List Char} (h : cs ≠ []) : componentsOf cs ≠ [] := by
  obtain ⟨c, rest, rfl⟩ := List.exists_cons_of_ne_nil h
  rw [componentsOf, leadingComponent, startsAtRoot_cons]
  by_cases hc : c = '/'
  · simp [hc]
  · -- The first segment begins with `c`; it counts, unless it is a leading `.`.
    obtain ⟨piece, pieces, hpieces⟩ : ∃ piece pieces,
        Text.splitChars '/' (c :: rest) = (c :: piece) :: pieces := by
      rw [Text.splitChars, if_neg hc]
      split
      · exact ⟨[], [], rfl⟩
      · next piece pieces _ => exact ⟨piece, pieces, rfl⟩
    by_cases hdot : c :: piece = ['.']
    · simp [hc, hpieces, hdot]
    · have hcounts : Component.ofSegment? (c :: piece) ≠ none := by
        rw [Component.ofSegment?, if_neg (by simp [hdot])]
        split <;> simp
      obtain ⟨component, hcomponent⟩ := Option.ne_none_iff_exists'.mp hcounts
      simp [hpieces, hcomponent]

theorem components_ne_nil {p : Path} (h : p.text ≠ "") : p.components ≠ [] :=
  componentsOf_ne_nil fun hnil => h (String.toList_eq_nil_iff.mp hnil)

/-- A path that is put behind another adds the components of its segments. -/
theorem components_join {left right : Path} (hleft : left.text ≠ "")
    (hright : right.isAbsolute = false) :
    (left.join right).components = left.components ++ segmentComponents right.text.toList := by
  have hne : left.text.toList ≠ [] := fun hnil => hleft (String.toList_eq_nil_iff.mp hnil)
  have hslash : "/".toList = ['/'] := rfl
  rw [join, if_neg (by simp [hright])]
  split
  · next hends =>
    have hsuffix : ['/'] <:+ left.text.toList := by
      simpa [hleft, Text.endsIn, hslash] using hends
    obtain ⟨front, hfront⟩ := hsuffix
    rw [components, components, String.toList_append, ← hfront, List.append_assoc,
      List.singleton_append]
    cases front with
    | nil => rfl
    | cons c rest =>
      rw [componentsOf_append_slash _ (List.cons_ne_nil c rest),
        componentsOf_concat_slash (List.cons_ne_nil c rest)]
  · rw [components, components, String.toList_append, String.toList_append, hslash,
      List.append_assoc, List.singleton_append, componentsOf_append_slash _ hne]

/-! ## Plain components -/

/-- A component that a segment stands for: its label is that segment. -/
structure Component.Plain (c : Component) : Prop where
  segment : '/' ∉ c.label.toList
  spelled : ofSegment? c.label.toList = some c

namespace Component

variable {c : Component}

theorem Plain.label_ne_nil (h : c.Plain) : c.label.toList ≠ [] := by
  intro hnil
  have hspelled := h.spelled
  rw [hnil] at hspelled
  cases hspelled

theorem Plain.label_ne_dot (h : c.Plain) : c.label.toList ≠ ['.'] := by
  intro hdot
  have hspelled := h.spelled
  rw [hdot] at hspelled
  cases hspelled

theorem Plain.ne_current (h : c.Plain) : c ≠ .current := by
  rintro rfl
  exact h.label_ne_dot rfl

theorem label_of_ofSegment? {segment : List Char} (h : ofSegment? segment = some c) :
    c.label.toList = segment := by
  rw [ofSegment?] at h
  split at h
  · cases h
  · split at h
    · next hparent =>
      cases h
      exact hparent.symm
    · cases h
      exact String.toList_ofList ..

end Component

theorem plain_of_mem_segmentComponents {cs : List Char} {c : Component}
    (h : c ∈ segmentComponents cs) : c.Plain := by
  obtain ⟨segment, hsegment, hc⟩ := List.mem_filterMap.mp h
  have hlabel := Component.label_of_ofSegment? hc
  constructor
  case segment => exact hlabel ▸ Text.not_mem_of_mem_splitChars hsegment
  case spelled => rw [hlabel, hc]

/-- What follows at least one component of a path is plain. -/
theorem plain_of_components_eq {p : Path} {lead rest : List Component}
    (h : p.components = lead ++ rest) (hlead : lead ≠ []) : ∀ c ∈ rest, c.Plain := by
  intro c hc
  suffices hmem : c ∈ segmentComponents p.text.toList from plain_of_mem_segmentComponents hmem
  have hlength := length_leadingComponent_le p.text.toList
  obtain ⟨first, others, rfl⟩ := List.exists_cons_of_ne_nil hlead
  change leadingComponent _ ++ segmentComponents _ = _ at h
  -- At most the first component comes from no segment, and that one is in `lead`.
  cases hleading : leadingComponent p.text.toList with
  | nil =>
    rw [hleading, List.nil_append] at h
    rw [h]
    exact List.mem_append_right _ hc
  | cons x tail =>
    rw [hleading, List.length_cons] at hlength
    obtain rfl : tail = [] := List.length_eq_zero_iff.mp (by omega)
    rw [hleading, List.cons_append, List.cons_append, List.cons.injEq, List.nil_append] at h
    rw [h.2]
    exact List.mem_append_right _ hc

/-! ## Labels -/

section Labels

variable {cs ds : List Component}

theorem filterMap_labels (h : ∀ c ∈ cs, c.Plain) :
    (cs.map Component.label).filterMap (fun text => Component.ofSegment? text.toList) = cs := by
  induction cs with
  | nil => rfl
  | cons c rest ih =>
    have hspelled := (h c List.mem_cons_self).spelled
    have hrest := ih fun d hd => h d (List.mem_cons_of_mem _ hd)
    simp [hspelled, hrest]

theorem prefix_labels_iff (hcs : ∀ c ∈ cs, c.Plain) (hds : ∀ d ∈ ds, d.Plain) :
    cs.map Component.label <+: ds.map Component.label ↔ cs <+: ds := by
  constructor
  · intro h
    have hback := h.filterMap fun text => Component.ofSegment? text.toList
    rwa [filterMap_labels hcs, filterMap_labels hds] at hback
  · exact fun h => h.map _

theorem slashed_of_plain (h : ∀ c ∈ cs, c.Plain) :
    slashed cs = "/".intercalate (cs.map Component.label) := by
  rw [slashed, List.filter_eq_self.mpr fun c hc => decide_eq_true (h c hc).ne_current]

theorem toList_slashed (h : ∀ c ∈ cs, c.Plain) :
    (slashed cs).toList = ['/'].intercalate (cs.map fun c => c.label.toList) := by
  rw [slashed_of_plain h, String.toList_intercalate, List.map_map]
  rfl

theorem splitChars_slashed (h : ∀ c ∈ cs, c.Plain) (hne : cs ≠ []) :
    Text.splitChars '/' (slashed cs).toList = cs.map fun c => c.label.toList := by
  rw [toList_slashed h, Text.splitChars_intercalate (by simpa using hne)]
  intro piece hpiece
  obtain ⟨c, hc, rfl⟩ := List.mem_map.mp hpiece
  exact (h c hc).segment

/-- The pieces of joined labels are the labels. -/
theorem split_slashed (h : ∀ c ∈ cs, c.Plain) (hne : cs ≠ []) :
    Text.split '/' (slashed cs) = cs.map Component.label := by
  rw [Text.split, splitChars_slashed h hne, List.map_map]
  exact List.map_congr_left fun c _ => String.ofList_toList ..

theorem slashed_append (hcs : ∀ c ∈ cs, c.Plain) (hds : ∀ d ∈ ds, d.Plain) (hcs' : cs ≠ [])
    (hds' : ds ≠ []) : slashed (cs ++ ds) = slashed cs ++ "/" ++ slashed ds := by
  have hboth : ∀ c ∈ cs ++ ds, c.Plain := fun c hc => (List.mem_append.mp hc).elim (hcs c) (hds c)
  have hchars : (slashed cs ++ "/" ++ slashed ds).toList =
      (slashed cs).toList ++ '/' :: (slashed ds).toList := by
    rw [String.toList_append, String.toList_append, List.append_assoc]
    rfl
  apply String.toList_injective
  rw [toList_slashed hboth, hchars, ← Text.intercalate_splitChars '/' (_ ++ _ :: _),
    Text.splitChars_append_separator, splitChars_slashed hcs hcs', splitChars_slashed hds hds',
    List.map_append]

theorem slashed_ne_of_label_ne {text : String} (h : ∀ c ∈ cs, c.Plain) (hne : cs ≠ [])
    (htext : '/' ∉ text.toList) (hlabels : ∀ c ∈ cs, c.label.toList ≠ text.toList) :
    slashed cs ≠ text := by
  rintro rfl
  have hsplit := splitChars_slashed h hne
  rw [Text.splitChars_of_not_mem htext] at hsplit
  obtain ⟨c, rest, rfl⟩ := List.exists_cons_of_ne_nil hne
  exact hlabels c List.mem_cons_self (List.cons.inj hsplit).1.symm

theorem slashed_ne_empty (h : ∀ c ∈ cs, c.Plain) (hne : cs ≠ []) : slashed cs ≠ "" :=
  slashed_ne_of_label_ne h hne (by decide) fun c hc => (h c hc).label_ne_nil

theorem slashed_ne_dot (h : ∀ c ∈ cs, c.Plain) (hne : cs ≠ []) : slashed cs ≠ "." :=
  slashed_ne_of_label_ne h hne (by decide) fun c hc => (h c hc).label_ne_dot

/-- A leading `.` does not show in the label of a path. -/
theorem slashed_components {p : Path} (h : p.isAbsolute = false) :
    slashed p.components = slashed (segmentComponents p.text.toList) := by
  change slashed (leadingComponent _ ++ segmentComponents _) = _
  rw [leadingComponent, if_neg (by simpa [isAbsolute] using h)]
  split
  · simp [slashed]
  · rfl

/-- Components are read back from their labels joined by slashes. -/
theorem segmentComponents_slashed (h : ∀ c ∈ cs, c.Plain) (hne : cs ≠ []) :
    segmentComponents (slashed cs).toList = cs := by
  rw [segmentComponents, splitChars_slashed h hne, List.filterMap_map]
  have hlabels := filterMap_labels h
  rwa [List.filterMap_map] at hlabels

theorem isAbsolute_slashed (h : ∀ c ∈ cs, c.Plain) (hne : cs ≠ []) :
    (⟨slashed cs⟩ : Path).isAbsolute = false := by
  obtain ⟨c, rest, rfl⟩ := List.exists_cons_of_ne_nil hne
  have hsplit := splitChars_slashed h hne
  cases hchars : (slashed (c :: rest)).toList with
  | nil => simp [isAbsolute, hchars, startsAtRoot]
  | cons first others =>
    rw [isAbsolute, hchars, startsAtRoot_cons, decide_eq_false_iff_not]
    rintro rfl
    rw [hchars, Text.splitChars, if_pos rfl] at hsplit
    exact (h c List.mem_cons_self).label_ne_nil (List.cons.inj hsplit).1.symm

theorem componentsOf_cons_slash (rest : List Char) :
    componentsOf ('/' :: rest) = .root :: segmentComponents rest := by
  change [Component.root] ++ segmentComponents ([] ++ '/' :: rest) = _
  rw [segmentComponents_append_slash]
  rfl

theorem components_of_isAbsolute {p : Path} (h : p.isAbsolute = true) :
    p.components = .root :: segmentComponents p.text.toList := by
  have hleading : leadingComponent p.text.toList = [.root] := if_pos h
  change leadingComponent p.text.toList ++ segmentComponents p.text.toList = _
  rw [hleading]
  rfl

theorem join_of_isAbsolute {left right : Path} (h : right.isAbsolute = true) :
    left.join right = right := by
  rw [join, if_pos h]

/-- The label of the root and what follows it: the root is spelled by a slash, and the components
behind it are read back from the rest. -/
theorem toList_slashed_root (h : ∀ c ∈ cs, c.Plain) :
    ∃ rest, (slashed (.root :: cs)).toList = '/' :: rest ∧ segmentComponents rest = cs := by
  have hfilter : (Component.root :: cs).filter (· ≠ .current) = .root :: cs := by
    rw [List.filter_cons_of_pos (by decide),
      List.filter_eq_self.mpr fun c hc => decide_eq_true (h c hc).ne_current]
  have hchars : (slashed (.root :: cs)).toList =
      ['/'].intercalate (['/'] :: cs.map fun c => c.label.toList) := by
    rw [slashed, hfilter, String.toList_intercalate, List.map_map]
    rfl
  cases cs with
  | nil => exact ⟨[], hchars, rfl⟩
  | cons c others =>
    refine ⟨'/' :: (slashed (c :: others)).toList, ?_, ?_⟩
    · rw [hchars, List.map_cons, List.intercalate_cons_cons, toList_slashed h]
      rfl
    · rw [← List.nil_append ('/' :: _), segmentComponents_append_slash,
        segmentComponents_slashed h (List.cons_ne_nil c others)]
      rfl

/-- The label of an absolute path is never one that stands for nothing. -/
theorem label_of_isAbsolute {p : Path} (h : p.isAbsolute = true) :
    p.label = slashed (.root :: segmentComponents p.text.toList) ∧ p.label ≠ "" ∧
      p.label ≠ "." := by
  have hcomponents := components_of_isAbsolute h
  obtain ⟨rest, hrest, -⟩ := toList_slashed_root fun c hc => plain_of_mem_segmentComponents hc
  have hempty : slashed (.root :: segmentComponents p.text.toList) ≠ "" := by
    intro heq
    rw [heq] at hrest
    cases hrest
  have hdot : slashed (.root :: segmentComponents p.text.toList) ≠ "." := by
    intro heq
    rw [heq] at hrest
    simp at hrest
  have hlabel : p.label = slashed (.root :: segmentComponents p.text.toList) := by
    simp only [label, hcomponents, if_neg hempty]
  exact ⟨hlabel, hlabel ▸ hempty, hlabel ▸ hdot⟩

/-- A label behind that of an absolute path spells an absolute path. -/
theorem components_slashed_root_append (hcs : ∀ c ∈ cs, c.Plain) (hds : ∀ d ∈ ds, d.Plain)
    (hne : ds ≠ []) :
    (⟨slashed (.root :: cs) ++ "/" ++ slashed ds⟩ : Path).isAbsolute = true ∧
      (⟨slashed (.root :: cs) ++ "/" ++ slashed ds⟩ : Path).components = .root :: (cs ++ ds) := by
  obtain ⟨rest, hrest, hcomponents⟩ := toList_slashed_root hcs
  have hchars : (slashed (.root :: cs) ++ "/" ++ slashed ds).toList =
      '/' :: (rest ++ '/' :: (slashed ds).toList) := by
    rw [String.toList_append, String.toList_append, hrest, List.append_assoc]
    rfl
  constructor
  · rw [isAbsolute, hchars, startsAtRoot_cons]
    rfl
  · rw [components, hchars, componentsOf_cons_slash, segmentComponents_append_slash, hcomponents,
      segmentComponents_slashed hds hne]

end Labels

end ProjectOutline.Path
