import ProjectOutline.Proofs.FileTree.Walk

/-!
# What stands in a tree of files

`standing?` tells what stands at a location: a file with its content, a link with its target, or a
directory, of which the entries are not told. A walk along a path sees no more of a tree than that
(`walkSegments_cons`), and what it comes to stands there (`stands_of_walkSegments`).

A change of the entry of one name in one directory, with nothing below it before or behind, shows at
the location of that name only (`standing?_modify_ne`).
-/

namespace ProjectOutline

/-- What stands at a location, without the entries below it. -/
inductive Standing where
  | file (content : ByteArray)
  | directory
  | link (target : List UInt8)

/-- An entry without the entries below it. -/
def Item.standing : Item → Standing
  | .file _ content => .file content
  | .directory _ _ => .directory
  | .link _ target => .link target

namespace FileTree

variable {items inner : List Item} {location names : Location} {name : Name}

/-- What stands at a location. The root is a directory. -/
def standing? (items : List Item) : Location → Option Standing
  | [] => some .directory
  | name :: rest =>
    match find? items name with
    | some (.directory _ inner) => standing? inner rest
    | some item => if rest = [] then some item.standing else none
    | none => none

/-! ## What stands at a location -/

theorem name_of_find? {item : Item} (h : find? items name = some item) : item.name = name := by
  simpa using List.find?_some h

/-- The way down leads through a directory first. -/
theorem contents?_cons_eq_some {rest : Location} (h : contents? items (name :: rest) = some inner) :
    ∃ below, find? items name = some (.directory name below) ∧
      contents? below rest = some inner := by
  rw [contents?] at h
  split at h
  · rename_i n below hfind
    obtain rfl : n = name := name_of_find? hfind
    exact ⟨below, hfind, h⟩
  · cases h

theorem standing?_append (h : contents? items location = some inner) :
    standing? items (location ++ names) = standing? inner names := by
  induction location generalizing items with
  | nil =>
    obtain rfl : items = inner := Option.some.inj h
    rfl
  | cons first rest ih =>
    obtain ⟨below, hfind, hbelow⟩ := contents?_cons_eq_some h
    simp only [List.cons_append, standing?, hfind]
    exact ih hbelow

theorem standing?_eq_directory_iff :
    standing? items location = some .directory ↔
      ∃ inner, contents? items location = some inner := by
  induction location generalizing items with
  | nil => simp [standing?, contents?]
  | cons first rest ih =>
    rw [standing?, contents?]
    rcases find? items first with _ | ⟨_, _⟩ | ⟨_, inner⟩ | ⟨_, _⟩
    · simp
    · simp [Item.standing]
    · exact ih
    · simp [Item.standing]

theorem standing?_singleton (items : List Item) (name : Name) :
    standing? items [name] = (find? items name).map Item.standing := by
  rw [standing?]
  rcases find? items name with _ | ⟨_, _⟩ | ⟨_, _⟩ | ⟨_, _⟩ <;> rfl

theorem standing?_concat {entry : Option Item} (h : standing? items location = some .directory)
    (hentry : (contents? items location).bind (find? · name) = entry) :
    standing? items (location ++ [name]) = entry.map Item.standing := by
  obtain ⟨inner, hinner⟩ := standing?_eq_directory_iff.mp h
  rw [standing?_append hinner, standing?_singleton, ← hentry, hinner, Option.bind_some]

/-- Whatever stands somewhere stands in a directory. -/
theorem standing?_parent {standing : Standing}
    (h : standing? items (location ++ [name]) = some standing) :
    standing? items location = some .directory := by
  induction location generalizing items with
  | nil => rfl
  | cons first rest ih =>
    rw [List.cons_append, standing?] at h
    rw [standing?]
    split at h
    · exact ih h
    · simp at h
    · cases h

theorem standing?_dropLast (h : standing? items location = some .directory) :
    standing? items location.dropLast = some .directory := by
  rcases List.eq_nil_or_concat location with rfl | ⟨init, last, rfl⟩
  · exact h
  · rw [List.concat_eq_append] at h
    rw [List.concat_eq_append, List.dropLast_concat]
    exact standing?_parent h

/-- The files among what stands in a tree are those that are read. -/
theorem content?_eq_some_iff {content : ByteArray} :
    content? items location = some content ↔ standing? items location = some (.file content) := by
  induction location generalizing items with
  | nil => simp [content?, standing?]
  | cons first rest ih =>
    cases hfind : find? items first with
    | none =>
      have hempty : find? items first = find? [] first := hfind
      simp [content?_congr hempty, content?_nil, standing?, hfind]
    | some item =>
      obtain rfl := name_of_find? hfind
      rw [content?_congr (hfind.trans (find?_own item).symm), content?_own, standing?, hfind]
      rcases item with ⟨_, _⟩ | ⟨_, inner⟩ | ⟨_, _⟩
      · cases rest <;> simp [Item.standing]
      · exact ih
      · simp [Item.standing]

/-! ## Changes in one directory -/

theorem find?_map {f : Item → Item} (hf : ∀ item, (f item).name = item.name) (items : List Item)
    (name : Name) : find? (items.map f) name = (find? items name).map f := by
  simp only [find?, List.find?_map, Function.comp_def, hf]

/-- The entry of a name after a change further down. -/
theorem find?_modify (f : List Item → List Item) (first : Name) (rest : Location)
    (items : List Item) (name : Name) :
    find? (modify f (first :: rest) items) name =
      match find? items name with
      | some (.directory n inner) =>
        some (.directory n (if n = first then modify f rest inner else inner))
      | other => other := by
  rw [modify, find?_map]
  · rcases find? items name with _ | ⟨_, _⟩ | ⟨n, _⟩ | ⟨_, _⟩
    · rfl
    · rfl
    · simp only [Option.map_some]
      split <;> rfl
    · rfl
  · intro item
    rcases item with ⟨_, _⟩ | ⟨n, _⟩ | ⟨_, _⟩
    · rfl
    · simp only
      split <;> rfl
    · rfl

theorem contents?_modify (f : List Item → List Item) (h : contents? items location = some inner) :
    contents? (modify f location items) location = some (f inner) := by
  induction location generalizing items with
  | nil =>
    obtain rfl : items = inner := Option.some.inj h
    rfl
  | cons first rest ih =>
    obtain ⟨below, hfind, hbelow⟩ := contents?_cons_eq_some h
    rw [contents?, find?_modify, hfind]
    simp only [if_true]
    exact ih hbelow

/-- Whatever does not stand in the changed directory stays. -/
theorem standing?_modify_of_not_prefix (f : List Item → List Item) {other : Location}
    (h : ¬ location <+: other) :
    standing? (modify f location items) other = standing? items other := by
  induction location generalizing items other with
  | nil => exact absurd (List.nil_prefix) h
  | cons first rest ih =>
    cases other with
    | nil => rfl
    | cons name others =>
      rw [standing?, standing?, find?_modify]
      rcases hfind : find? items name with _ | ⟨_, _⟩ | ⟨n, below⟩ | ⟨_, _⟩
      · rfl
      · rfl
      · obtain rfl : n = name := name_of_find? hfind
        simp only
        split
        · rename_i hname
          subst hname
          exact ih fun hprefix => h ((List.prefix_cons_inj _).mpr hprefix)
        · rfl
      · rfl

theorem find?_append_ne {item : Item} (h : name ≠ item.name) :
    find? (items ++ [item]) name = find? items name := by
  simp [find?, List.find?_append, h.symm]

theorem find?_append_self (item : Item) (h : find? items item.name = none) :
    find? (items ++ [item]) item.name = some item := by
  rw [find?] at h
  simp [find?, List.find?_append, h]

theorem any_name_iff : items.any (·.name = name) = true ↔ find? items name ≠ none := by
  simp [find?, List.find?_eq_none]

/-- The entry of a name after a file was put in place of another. -/
theorem find?_replace (old : Name) (content : ByteArray) (items : List Item) (name : Name) :
    find? (items.map fun item => if item.name = old then .file old content else item) name =
      (find? items name).map fun item => if item.name = old then .file old content else item := by
  refine find?_map (fun item => ?_) items name
  split
  · exact (‹item.name = old›).symm
  · rfl

theorem find?_setContent_ne {content : ByteArray} {other : Name} (h : other ≠ name) :
    find? (setContent name content items) other = find? items other := by
  rw [setContent]
  split
  · rw [find?_replace]
    cases hfind : find? items other with
    | none => rfl
    | some item => rw [Option.map_some, if_neg (name_of_find? hfind ▸ h)]
  · exact find?_append_ne h

theorem find?_setContent_self {content : ByteArray} :
    find? (setContent name content items) name = some (.file name content) := by
  rw [setContent]
  split
  · rename_i hany
    obtain ⟨item, hfind⟩ := Option.ne_none_iff_exists'.mp (any_name_iff.mp hany)
    rw [find?_replace, hfind, Option.map_some, if_pos (name_of_find? hfind)]
  · rename_i hany
    have hnone : find? items name = none := not_not.mp fun hfind => hany (any_name_iff.mpr hfind)
    exact find?_append_self (.file name content) hnone

/-- Nothing stands below a name. -/
def Bare (items : List Item) (name : Name) : Prop :=
  ∀ n inner, find? items name = some (.directory n inner) → inner = []

theorem standing?_of_bare {rest : Location} (h : Bare items name) (hrest : rest ≠ []) :
    standing? items (name :: rest) = none := by
  obtain ⟨next, others, rfl⟩ := List.exists_cons_of_ne_nil hrest
  rw [standing?]
  split
  · rename_i hfind
    rw [h _ _ hfind]
    rfl
  · simp
  · rfl

/-- A change of one name, with nothing below it before or behind, shows at that name only. -/
theorem standing?_modify_ne {f : List Item → List Item} (h : contents? items location = some inner)
    (hothers : ∀ other, other ≠ name → find? (f inner) other = find? inner other)
    (hbefore : Bare inner name) (hafter : Bare (f inner) name) {place : Location}
    (hplace : place ≠ location ++ [name]) :
    standing? (modify f location items) place = standing? items place := by
  by_cases hprefix : location <+: place
  · obtain ⟨rest, rfl⟩ := hprefix
    rw [standing?_append (contents?_modify f h), standing?_append h]
    cases rest with
    | nil => rfl
    | cons first rest =>
      by_cases hfirst : first = name
      · subst hfirst
        have hrest : rest ≠ [] := fun hnil => hplace (by rw [hnil])
        rw [standing?_of_bare hafter hrest, standing?_of_bare hbefore hrest]
      · rw [standing?, standing?, hothers first hfirst]
  · exact standing?_modify_of_not_prefix f hprefix

theorem standing?_modify_self {f : List Item → List Item}
    (h : contents? items location = some inner) (name : Name) :
    standing? (modify f location items) (location ++ [name]) =
      (find? (f inner) name).map Item.standing := by
  rw [standing?_append (contents?_modify f h), standing?_singleton]

/-! ## Walks -/

section Walks

variable {follow : Bool} {links : Nat} {target : Target}

/-- One step of a walk, by what stands where it leads. -/
theorem walkSegments_cons {segment : Name} {rest : List Name}
    (h : standing? items location = some .directory) (hdot : ¬ segment = dot)
    (hdotDot : ¬ segment = dotDot) (hlength : ¬ 255 < segment.length) :
    walkSegments items follow links location (segment :: rest) =
      match standing? items (location ++ [segment]) with
      | none => if rest = [] then .ok (.absent location segment) else .error .notFound
      | some .directory => walkSegments items follow links (location ++ [segment]) rest
      | some (.file _) =>
        if rest = [] then .ok (.file (location ++ [segment])) else .error .notDirectory
      | some (.link target) =>
        if rest = [] ∧ ¬ follow then .ok (.link (location ++ [segment]))
        else
          match links with
          | 0 => .error .tooManyLinks
          | links + 1 =>
            if target = [] then .error .notFound
            else
              walkSegments items follow links (if isRooted target then [] else location)
                (segments target ++ (if endsInSlash target then [dot] else []) ++ rest) := by
  rw [walkSegments.eq_def, standing?_concat h rfl]
  simp only [if_neg hdot, if_neg hdotDot, if_neg hlength]
  rcases (contents? items location).bind (find? · segment) with _ | ⟨_, _⟩ | ⟨_, _⟩ | ⟨_, _⟩ <;> rfl

/-- What a target says about the tree. -/
def Target.Stands (items : List Item) : Target → Prop
  | .file location => ∃ content, standing? items location = some (.file content)
  | .directory location => standing? items location = some .directory
  | .link location => ∃ target, standing? items location = some (.link target)
  | .absent parent name =>
    standing? items parent = some .directory ∧ standing? items (parent ++ [name]) = none

theorem stands_of_walkSegments (hlocation : standing? items location = some .directory)
    (h : walkSegments items follow links location names = .ok target) : target.Stands items := by
  fun_induction walkSegments items follow links location names with
  | case1 =>
    cases h
    exact hlocation
  | case2 _ _ _ ih => exact ih hlocation h
  | case3 _ _ _ _ ih => exact ih (standing?_dropLast hlocation) h
  | case5 _ _ _ _ _ _ hfind =>
    cases h
    exact ⟨hlocation, standing?_concat hlocation hfind⟩
  | case7 _ _ _ _ _ _ _ _ _ hfind ih => exact ih (standing?_concat hlocation hfind) h
  | case8 _ _ _ _ _ _ _ content hfind =>
    cases h
    exact ⟨content, standing?_concat hlocation hfind⟩
  | case10 _ _ _ _ _ _ _ _ goal hfind =>
    cases h
    exact ⟨goal, standing?_concat hlocation hfind⟩
  | case13 =>
    rename_i ih
    refine ih ?_ h
    split
    · rfl
    · exact hlocation
  | case4 | case6 | case9 | case11 | case12 => cases h

/-- From the directory that a walk comes to it can go on, with what is left of the links. -/
theorem walkSegments_append {place : Location}
    (h : walkSegments items true links location names = .ok (.directory place))
    (more : List Name) :
    ∃ left, walkSegments items true links location (names ++ more) =
      walkSegments items true left place more := by
  fun_induction walkSegments items true links location names with
  | case1 links =>
    cases h
    exact ⟨links, rfl⟩
  | case2 _ _ _ ih =>
    obtain ⟨left, hleft⟩ := ih h
    exact ⟨left, by rw [List.cons_append, walkSegments, if_pos rfl, hleft]⟩
  | case3 _ _ _ hdot ih =>
    obtain ⟨left, hleft⟩ := ih h
    exact ⟨left, by rw [List.cons_append, walkSegments, if_neg hdot, if_pos rfl, hleft]⟩
  | case7 _ _ _ _ hdot hdotDot hlength _ _ hfind ih =>
    obtain ⟨left, hleft⟩ := ih h
    refine ⟨left, ?_⟩
    rw [List.cons_append, walkSegments]
    simp only [if_neg hdot, if_neg hdotDot, if_neg hlength, hfind, hleft]
  | case13 _ _ _ hdot hdotDot hlength _ _ hfind _ _ hgoal ih =>
    obtain ⟨left, hleft⟩ := ih h
    refine ⟨left, ?_⟩
    rw [List.cons_append, walkSegments]
    simp only [if_neg hdot, if_neg hdotDot, if_neg hlength, hfind, if_neg hgoal]
    simpa using hleft
  | case4 | case5 | case6 | case8 | case9 | case10 | case11 | case12 => cases h

end Walks

end FileTree

end ProjectOutline
