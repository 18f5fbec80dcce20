import ProjectOutline.Proofs.Report.Placement
import ProjectOutline.Proofs.Text.Occurrence

/-!
# The names in a rendered report

`Report.names` lists the texts that a report takes over from its input: package roots, segments of
paths, declared names. Everything else in its Markdown is fixed: indentation, bullets, headings and
line ends. So a text with pointed brackets at its two ends and no line end occurs in the Markdown
exactly if it occurs in one of these names (`infix_render_iff`). Which names a built report has is
settled by its packages and the files placed in them (`mem_names_build_iff`).
-/

namespace ProjectOutline

/-- The names of a declaration: its own and those of its methods. -/
def Declaration.names (d : Declaration) : List String :=
  d.name :: d.methods

mutual

/-- The names that an entry shows. -/
def Entry.names : Entry → List String
  | .file key declarations => key :: declarations.flatMap Declaration.names
  | .directory key entries => key :: Directory.names entries

/-- The names that the entries of a directory show. -/
def Directory.names : List Entry → List String
  | [] => []
  | e :: rest => e.names ++ Directory.names rest

end

/-- The names that a report shows. -/
def Report.names (r : Report) : List String :=
  r.packages.flatMap fun item => item.1.root :: Directory.names item.2

theorem Directory.mem_names_iff {name : String} (d : Directory) :
    name ∈ Directory.names d ↔ ∃ e ∈ d, name ∈ e.names := by
  induction d with
  | nil => simp [Directory.names]
  | cons e rest ih => simp [Directory.names, ih]

/-! ## Rendering -/

/-- Patterns that no fixed part of the Markdown can begin, end or cut. -/
structure Bracketed (pattern : List Char) : Prop where
  first : pattern.head? = some '<'
  last : pattern.getLast? = some '>'
  line : '\n' ∉ pattern

namespace Bracketed

variable {pattern : List Char}

theorem ne_nil (h : Bracketed pattern) : pattern ≠ [] := by
  rintro rfl
  cases h.first

theorem infix_behind_iff (h : Bracketed pattern) {front text : List Char} (hfront : '<' ∉ front) :
    pattern <:+: front ++ text ↔ pattern <:+: text := by
  obtain ⟨tail, rfl⟩ := List.head?_eq_some_iff.mp h.first
  exact Text.infix_append_right_iff hfront

theorem infix_before_iff (h : Bracketed pattern) {text back : List Char} (hback : '>' ∉ back) :
    pattern <:+: text ++ back ↔ pattern <:+: text := by
  obtain ⟨init, rfl⟩ := List.getLast?_eq_some_iff.mp h.last
  exact Text.infix_append_left_iff hback

theorem infix_lines_iff (h : Bracketed pattern) (lines : List String) :
    pattern <:+: (String.join (lines.map (· ++ "\n"))).toList ↔
      ∃ line ∈ lines, pattern <:+: line.toList := by
  have hne := h.ne_nil
  have hline : "\n".toList = ['\n'] := rfl
  rw [String.toList_join]
  induction lines with
  | nil => simp [hne]
  | cons line rest ih =>
    rw [List.map_cons, List.flatMap_cons, String.toList_append, hline, List.append_assoc,
      List.singleton_append, Text.infix_append_cons_iff hne h.line]
    simp only [List.mem_cons, exists_eq_or_imp]
    exact or_congr_right ih

end Bracketed

namespace Report

variable {pattern : List Char}

theorem infix_bullet_iff (h : Bracketed pattern) (depth : Nat) (text : String) :
    pattern <:+: (bullet depth text).toList ↔ pattern <:+: text.toList := by
  have hindent : '<' ∉ (String.join (List.replicate depth "  ")).toList ++ "- ".toList := by
    rw [String.toList_join, List.mem_append, List.mem_flatMap]
    rintro (⟨indent, hindent, hmem⟩ | hmem)
    · rw [List.eq_of_mem_replicate hindent] at hmem
      exact absurd hmem (by decide)
    · exact absurd hmem (by decide)
  rw [bullet, String.toList_append, String.toList_append, h.infix_behind_iff hindent]

theorem infix_directory_bullet_iff (h : Bracketed pattern) (depth : Nat) (key : String) :
    pattern <:+: (bullet depth (key ++ "/")).toList ↔ pattern <:+: key.toList := by
  have hback : '>' ∉ "/".toList := by decide
  rw [infix_bullet_iff h, String.toList_append, h.infix_before_iff hback]

theorem infix_heading_iff (h : Bracketed pattern) (p : Package) :
    pattern <:+: (heading p).toList ↔ pattern <:+: p.root.toList := by
  have hfront : '<' ∉ ("## Package (" ++ p.kind.name ++ "): `").toList := by
    cases p.kind <;> decide
  have hback : '>' ∉ "`".toList := by decide
  change _ <:+: ("## Package (" ++ p.kind.name ++ "): `" ++ p.root ++ "`").toList ↔ _
  rw [String.toList_append, h.infix_before_iff hback, String.toList_append,
    h.infix_behind_iff hfront]

theorem infix_declarationLines_iff (h : Bracketed pattern) (depth : Nat) (d : Declaration) :
    (∃ line ∈ declarationLines depth d, pattern <:+: line.toList) ↔
      ∃ name ∈ d.names, pattern <:+: name.toList := by
  simp [declarationLines, Declaration.names, infix_bullet_iff h]

mutual

theorem infix_entryLines_iff (h : Bracketed pattern) :
    ∀ (e : Entry) (depth : Nat), (∃ line ∈ entryLines depth e, pattern <:+: line.toList) ↔
      ∃ name ∈ e.names, pattern <:+: name.toList
  | .file key declarations, depth => by
    simp only [entryLines, Entry.names, List.mem_cons, exists_eq_or_imp, infix_bullet_iff h,
      List.mem_flatMap]
    refine or_congr_right ?_
    constructor
    · rintro ⟨line, ⟨d, hd, hline⟩, hinfix⟩
      obtain ⟨name, hname, hin⟩ := (infix_declarationLines_iff h _ d).mp ⟨line, hline, hinfix⟩
      exact ⟨name, ⟨d, hd, hname⟩, hin⟩
    · rintro ⟨name, ⟨d, hd, hname⟩, hinfix⟩
      obtain ⟨line, hline, hin⟩ :=
        (infix_declarationLines_iff h (depth + 1) d).mpr ⟨name, hname, hinfix⟩
      exact ⟨line, ⟨d, hd, hline⟩, hin⟩
  | .directory key entries, depth => by
    simp only [entryLines, Entry.names, List.mem_cons, exists_eq_or_imp,
      infix_directory_bullet_iff h, infix_directoryLines_iff h entries (depth + 1)]

theorem infix_directoryLines_iff (h : Bracketed pattern) :
    ∀ (d : List Entry) (depth : Nat),
      (∃ line ∈ directoryLines depth d, pattern <:+: line.toList) ↔
        ∃ name ∈ Directory.names d, pattern <:+: name.toList
  | [], _ => by simp [directoryLines, Directory.names]
  | e :: rest, depth => by
    simp only [directoryLines, Directory.names, List.mem_append, or_and_right, exists_or,
      infix_entryLines_iff h e depth, infix_directoryLines_iff h rest depth]

end

theorem infix_packageLines_iff (h : Bracketed pattern) (item : Package × Directory) :
    (∃ line ∈ packageLines item, pattern <:+: line.toList) ↔
      ∃ name ∈ item.1.root :: Directory.names item.2, pattern <:+: name.toList := by
  have hne := h.ne_nil
  simp only [packageLines, List.mem_cons, List.mem_append, or_and_right, exists_or,
    exists_eq_left, infix_heading_iff h, infix_directoryLines_iff h]
  simp [hne]

/-- A bracketed text occurs in the Markdown exactly if it occurs in a name of the report. -/
theorem infix_render_iff (h : Bracketed pattern) (r : Report) :
    pattern <:+: r.render.toList ↔ ∃ name ∈ r.names, pattern <:+: name.toList := by
  rw [render, h.infix_lines_iff]
  simp only [lines, names, List.mem_flatMap]
  constructor
  · rintro ⟨line, ⟨item, hitem, hline⟩, hinfix⟩
    obtain ⟨name, hname, hin⟩ := (infix_packageLines_iff h item).mp ⟨line, hline, hinfix⟩
    exact ⟨name, ⟨item, hitem, hname⟩, hin⟩
  · rintro ⟨name, ⟨item, hitem, hname⟩, hinfix⟩
    obtain ⟨line, hline, hin⟩ := (infix_packageLines_iff h item).mpr ⟨name, hname, hinfix⟩
    exact ⟨line, ⟨item, hitem, hline⟩, hin⟩

end Report

/-! ## The names of a built report -/

/-- The names on the way to a file and in it. -/
def Leaf.names (leaf : Leaf) : List String :=
  leaf.1 ++ leaf.2.flatMap Declaration.names

/-- A directory shows the names of its leaves, if its entries show those of theirs. -/
theorem Directory.Holds.mem_names_iff {d : Directory} {leaves : List Leaf} {name : String}
    (h : Directory.Holds d leaves)
    (hentries : ∀ e ∈ d, name ∈ e.names ↔
      name = e.key ∨ ∃ leaf ∈ Leaf.behind e.key leaves, name ∈ leaf.names) :
    name ∈ Directory.names d ↔ ∃ leaf ∈ leaves, name ∈ leaf.names := by
  rw [Directory.mem_names_iff]
  constructor
  · rintro ⟨e, he, hname⟩
    have hkey := h.mem_keys_iff.mp (List.mem_map_of_mem he)
    rcases (hentries e he).mp hname with rfl | ⟨⟨rest, declarations⟩, hleaf, hname⟩
    · obtain ⟨rest, declarations, hleaf⟩ := Leaf.mem_heads_iff.mp hkey
      exact ⟨_, hleaf, by simp [Leaf.names]⟩
    · exact ⟨_, Leaf.mem_behind_iff.mp hleaf, List.mem_cons_of_mem _ hname⟩
  · rintro ⟨⟨segments, declarations⟩, hleaf, hname⟩
    obtain ⟨key, rest, rfl⟩ := List.exists_cons_of_ne_nil (h.proper _ hleaf)
    have hkey := h.mem_keys_iff.mpr (Leaf.mem_heads_iff.mpr ⟨rest, declarations, hleaf⟩)
    obtain ⟨e, he, rfl⟩ := List.mem_map.mp hkey
    refine ⟨e, he, (hentries e he).mpr ?_⟩
    rcases List.mem_cons.mp hname with rfl | hname
    · exact Or.inl rfl
    · exact Or.inr ⟨_, Leaf.mem_behind_iff.mpr hleaf, hname⟩

mutual

theorem Entry.Holds.mem_names_iff {name : String} :
    ∀ (e : Entry) (leaves : List Leaf), e.Holds leaves →
      (name ∈ e.names ↔ name = e.key ∨ ∃ leaf ∈ leaves, name ∈ leaf.names)
  | .file key declarations, _, .file _ _ => by
    simp [Entry.names, Entry.key, Leaf.names]
  | .directory key entries, leaves, .directory _ _ _ hcontents => by
    rw [Entry.names, List.mem_cons]
    exact or_congr_right
      (hcontents.mem_names_iff fun e he => Entry.Holds.mem_names_iff_of_mem entries e he _
        (hcontents.entry he))

theorem Entry.Holds.mem_names_iff_of_mem {name : String} :
    ∀ (entries : List Entry), ∀ e ∈ entries, ∀ leaves : List Leaf, e.Holds leaves →
      (name ∈ e.names ↔ name = e.key ∨ ∃ leaf ∈ leaves, name ∈ leaf.names)
  | [], _, he, _, _ => by cases he
  | first :: rest, e, he, leaves, h => by
    rcases List.mem_cons.mp he with heq | he
    · rw [heq] at h ⊢
      exact Entry.Holds.mem_names_iff first leaves h
    · exact Entry.Holds.mem_names_iff_of_mem rest e he leaves h

end

namespace Report

/-- A built report shows the roots of its packages, and of every placed file the segments of its
path and the names it declares. -/
theorem mem_names_build_iff (entries : List SourceFile) (packages : List Package) (name : String) :
    name ∈ (build entries packages).names ↔
      (∃ p ∈ packagesOrWhole packages, name = p.root) ∨
        ∃ file ∈ placements (packagesOrWhole packages) entries,
          name ∈ file.segments ∨ ∃ d ∈ file.declarations, name ∈ d.names := by
  have hheld := held_draft entries (packagesOrWhole packages)
  have htree : ∀ i tree, (draft entries (packagesOrWhole packages)).trees[i]? = some tree →
      (name ∈ Directory.names tree ↔
        ∃ leaf ∈ leavesOf i (placements (packagesOrWhole packages) entries), name ∈ leaf.names) :=
    fun i tree hget => (hheld.holds i tree hget).mem_names_iff fun e he =>
      Entry.Holds.mem_names_iff e _ ((hheld.holds i tree hget).entry he)
  rw [names, List.mem_flatMap]
  constructor
  · rintro ⟨⟨p, tree⟩, hitem, hname⟩
    obtain ⟨i, hget⟩ := List.mem_iff_getElem?.mp hitem
    rw [build, List.getElem?_zip_eq_some] at hget
    rcases List.mem_cons.mp hname with rfl | hname
    · exact Or.inl ⟨p, List.mem_of_getElem? hget.1, rfl⟩
    · obtain ⟨⟨segments, declarations⟩, hleaf, hname⟩ := (htree i tree hget.2).mp hname
      refine Or.inr ⟨_, mem_leavesOf_iff.mp hleaf, ?_⟩
      simpa [Leaf.names] using hname
  · rintro (⟨p, hp, rfl⟩ | ⟨⟨i, segments, declarations⟩, hfile, hname⟩)
    · obtain ⟨i, hget⟩ := List.mem_iff_getElem?.mp hp
      have hlt : i < (draft entries (packagesOrWhole packages)).trees.length := by
        rw [hheld.length]
        exact (List.getElem?_eq_some_iff.mp hget).1
      refine ⟨(p, (draft entries (packagesOrWhole packages)).trees[i]),
        List.mem_iff_getElem?.mpr ⟨i, ?_⟩, List.mem_cons_self⟩
      rw [build, List.getElem?_zip_eq_some]
      exact ⟨hget, List.getElem?_eq_getElem hlt⟩
    · have hindex := hheld.inside _ hfile
      have hlt : i < (draft entries (packagesOrWhole packages)).trees.length := by
        rw [hheld.length]
        exact hindex
      have hget := List.getElem?_eq_getElem hlt
      refine ⟨((packagesOrWhole packages)[i], (draft entries (packagesOrWhole packages)).trees[i]),
        List.mem_iff_getElem?.mpr ⟨i, ?_⟩, List.mem_cons_of_mem _ ?_⟩
      · rw [build, List.getElem?_zip_eq_some]
        exact ⟨List.getElem?_eq_getElem hindex, hget⟩
      · refine (htree i _ hget).mpr ⟨_, mem_leavesOf_iff.mpr hfile, ?_⟩
        simpa [Leaf.names] using hname

end Report

end ProjectOutline
