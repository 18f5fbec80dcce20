import ProjectOutline.Outline
import ProjectOutline.Proofs.Report.Complete
import ProjectOutline.Proofs.Report.Names

/-!
# The lines of a rendered report

A package takes three lines beside its tree, and each directory, file, declaration and method of the
tree is one bullet (`Report.itemCount`). The Markdown has just as many lines, and one more for every
line end in a name that it shows (`breaks_render`). So each item takes one line exactly if no name
holds a line end. Where the paths and the roots hold none, that leaves the declared names
(`render_one_line_per_item_iff`), and these come from the source as they stand there: a computed
member name that goes on to a second line takes two (`render_breaks_long_member`).
-/

namespace ProjectOutline

namespace Text

/-- How many line ends a text holds. -/
def breaks (s : String) : Nat :=
  s.toList.count '\n'

@[simp]
theorem breaks_append (s t : String) : breaks (s ++ t) = breaks s + breaks t := by
  simp [breaks, List.count_append]

theorem breaks_eq_zero_iff {s : String} : breaks s = 0 ↔ '\n' ∉ s.toList := by
  rw [breaks, List.count_eq_zero]

end Text

open Text (breaks breaks_append breaks_eq_zero_iff)

/-! ## Items -/

mutual

/-- How many directories an entry holds, with itself. -/
def Entry.directoryCount : Entry → Nat
  | .file _ _ => 0
  | .directory _ entries => Directory.directoryCount entries + 1

/-- How many directories a directory holds. -/
def Directory.directoryCount : List Entry → Nat
  | [] => 0
  | e :: rest => e.directoryCount + Directory.directoryCount rest

end

mutual

/-- The declarations in an entry. -/
def Entry.declarations : Entry → List Declaration
  | .file _ declarations => declarations
  | .directory _ entries => Directory.declarations entries

/-- The declarations below a directory. -/
def Directory.declarations : List Entry → List Declaration
  | [] => []
  | e :: rest => e.declarations ++ Directory.declarations rest

end

namespace Report

/-- How many directories the report holds. -/
def directoryCount (r : Report) : Nat :=
  (r.packages.map fun item => Directory.directoryCount item.2).sum

/-- The declarations in the report. -/
def declarations (r : Report) : List Declaration :=
  r.packages.flatMap fun item => Directory.declarations item.2

/-- How many methods some declarations have. -/
def methodCount (declarations : List Declaration) : Nat :=
  (declarations.map (·.methods.length)).sum

/-- The items of a report: three for a package, and one for each directory, file, declaration and
method. -/
def itemCount (r : Report) : Nat :=
  3 * r.packages.length + r.directoryCount + r.fileCount + r.declarations.length +
    methodCount r.declarations

/-- The line ends that some names hold. -/
def breaksIn (names : List String) : Nat :=
  (names.map breaks).sum

/-! ## Line ends -/

@[simp]
theorem breaks_bullet (depth : Nat) (text : String) : breaks (bullet depth text) = breaks text := by
  have hindent : breaks (String.join (List.replicate depth "  ")) = 0 := by
    rw [breaks_eq_zero_iff, String.toList_join, List.mem_flatMap]
    intro ⟨indent, hindent, hmem⟩
    rw [List.eq_of_mem_replicate hindent] at hmem
    exact absurd hmem (by decide)
  have hdash : breaks "- " = 0 := by decide
  rw [bullet, breaks_append, breaks_append, hindent, hdash]
  omega

theorem breaks_heading (p : Package) : breaks (heading p) = breaks p.root := by
  have hfront : breaks ("## Package (" ++ p.kind.name ++ "): `") = 0 := by
    cases p.kind <;> decide
  have hback : breaks "`" = 0 := by decide
  change breaks ("## Package (" ++ p.kind.name ++ "): `" ++ p.root ++ "`") = _
  rw [breaks_append, breaks_append, hfront, hback]
  omega

@[simp]
theorem breaksIn_nil : breaksIn [] = 0 := rfl

@[simp]
theorem breaksIn_cons (name : String) (names : List String) :
    breaksIn (name :: names) = breaks name + breaksIn names := by
  simp [breaksIn]

@[simp]
theorem breaksIn_append (names others : List String) :
    breaksIn (names ++ others) = breaksIn names + breaksIn others := by
  simp [breaksIn]

theorem breaksIn_eq_zero_iff {names : List String} :
    breaksIn names = 0 ↔ ∀ name ∈ names, '\n' ∉ name.toList := by
  induction names with
  | nil => simp
  | cons name rest ih =>
    rw [breaksIn_cons, Nat.add_eq_zero_iff, breaks_eq_zero_iff, ih, List.forall_mem_cons]

@[simp]
theorem methodCount_append (declarations others : List Declaration) :
    methodCount (declarations ++ others) = methodCount declarations + methodCount others := by
  simp [methodCount]

theorem breaks_lines (lines : List String) :
    breaks (String.join (lines.map (· ++ "\n"))) = lines.length + breaksIn lines := by
  have hline : breaks "\n" = 1 := by decide
  induction lines with
  | nil => rfl
  | cons line rest ih =>
    rw [List.map_cons, String.join_cons, breaks_append, breaks_append, ih, hline, breaksIn_cons,
      List.length_cons]
    omega

/-! ## Bullets -/

theorem length_declarationLines (depth : Nat) (declarations : List Declaration) :
    (declarations.flatMap (declarationLines depth)).length =
      declarations.length + methodCount declarations := by
  induction declarations with
  | nil => rfl
  | cons d rest ih =>
    simp only [List.flatMap_cons, List.length_append, ih, declarationLines, List.length_cons,
      List.length_map, methodCount, List.map_cons, List.sum_cons]
    omega

theorem breaksIn_declarationLines (depth : Nat) (declarations : List Declaration) :
    breaksIn (declarations.flatMap (declarationLines depth)) =
      breaksIn (declarations.flatMap Declaration.names) := by
  have hbullets (d : Declaration) : breaksIn (declarationLines depth d) = breaksIn d.names := by
    simp [breaksIn, declarationLines, Declaration.names, Function.comp_def]
  induction declarations with
  | nil => rfl
  | cons d rest ih => simp only [List.flatMap_cons, breaksIn_append, hbullets, ih]

mutual

theorem length_entryLines : ∀ (e : Entry) (depth : Nat),
    (entryLines depth e).length =
      e.directoryCount + e.fileCount + e.declarations.length + methodCount e.declarations
  | .file key declarations, depth => by
    simp only [entryLines, Entry.directoryCount, Entry.fileCount, Entry.declarations,
      List.length_cons, length_declarationLines]
    omega
  | .directory key entries, depth => by
    simp only [entryLines, Entry.directoryCount, Entry.fileCount, Entry.declarations,
      List.length_cons, length_directoryLines entries (depth + 1)]
    omega

theorem length_directoryLines : ∀ (d : List Entry) (depth : Nat),
    (directoryLines depth d).length =
      Directory.directoryCount d + Directory.fileCount d + (Directory.declarations d).length +
        methodCount (Directory.declarations d)
  | [], _ => rfl
  | e :: rest, depth => by
    simp only [directoryLines, Directory.directoryCount, Directory.fileCount,
      Directory.declarations, List.length_append, methodCount_append,
      length_entryLines e depth, length_directoryLines rest depth]
    omega

end

mutual

theorem breaksIn_entryLines : ∀ (e : Entry) (depth : Nat),
    breaksIn (entryLines depth e) = breaksIn e.names
  | .file key declarations, depth => by
    simp only [entryLines, Entry.names, breaksIn_cons, breaks_bullet, breaksIn_declarationLines]
  | .directory key entries, depth => by
    have hslash : breaks "/" = 0 := by decide
    simp only [entryLines, Entry.names, breaksIn_cons, breaks_bullet, breaks_append, hslash,
      breaksIn_directoryLines entries (depth + 1), Nat.add_zero]

theorem breaksIn_directoryLines : ∀ (d : List Entry) (depth : Nat),
    breaksIn (directoryLines depth d) = breaksIn (Directory.names d)
  | [], _ => rfl
  | e :: rest, depth => by
    simp only [directoryLines, Directory.names, breaksIn_append, breaksIn_entryLines e depth,
      breaksIn_directoryLines rest depth]

end

/-! ## Reports -/

theorem length_lines (r : Report) : r.lines.length = r.itemCount := by
  obtain ⟨packages⟩ := r
  simp only [lines, itemCount, directoryCount, fileCount, declarations]
  induction packages with
  | nil => rfl
  | cons item rest ih =>
    simp only [List.flatMap_cons, List.length_append, ih, packageLines, List.length_cons,
      length_directoryLines, List.map_cons, List.sum_cons, List.foldr_cons, methodCount_append,
      List.length_nil]
    omega

theorem breaksIn_lines (r : Report) : breaksIn r.lines = breaksIn r.names := by
  have hempty : breaks "" = 0 := rfl
  obtain ⟨packages⟩ := r
  simp only [lines, names]
  induction packages with
  | nil => rfl
  | cons item rest ih =>
    simp only [List.flatMap_cons, breaksIn_append, ih, packageLines, breaksIn_cons, breaks_heading,
      breaksIn_directoryLines, hempty, breaksIn_nil]
    omega

/-- The Markdown has a line for every item, and one more for every line end in a name. -/
theorem breaks_render (r : Report) : breaks r.render = r.itemCount + breaksIn r.names := by
  rw [render, breaks_lines, length_lines, breaksIn_lines]

theorem breaks_render_eq_iff (r : Report) :
    breaks r.render = r.itemCount ↔ ∀ name ∈ r.names, '\n' ∉ name.toList := by
  rw [breaks_render, ← breaksIn_eq_zero_iff]
  omega

/-! ## Segments of a path -/

theorem mem_of_mem_dropDotSlash {cs : List Char} {c : Char} (h : c ∈ dropDotSlash cs) : c ∈ cs := by
  fun_induction dropDotSlash cs with
  | case1 rest ih => exact List.mem_cons_of_mem _ (List.mem_cons_of_mem _ (ih h))
  | case2 cs _ => exact h

/-- A placed file has its segments from the path of an entry. -/
theorem exists_mem_path_of_mem_segments {packages : List Package} {entries : List SourceFile}
    {file : Placement} {segment : String} {c : Char}
    (hfile : file ∈ placements packages entries) (hsegment : segment ∈ file.segments)
    (hc : c ∈ segment.toList) : ∃ entry ∈ entries, c ∈ entry.path.toList := by
  obtain ⟨entry, hentry, haddress⟩ := exists_entry_of_mem_placements hfile
  rw [address?] at haddress
  split at haddress
  · cases haddress
  obtain ⟨⟨index, relative⟩, howner, hplaced⟩ := Option.bind_eq_some_iff.mp haddress
  dsimp only at hplaced
  split at hplaced
  · cases hplaced
  cases hplaced
  obtain ⟨package, -, hrelative, -⟩ := owner?_eq_some howner
  have hsplit := package.split_of_relative? hrelative
  have hpiece : segment ∈ Text.split '/' (plainPath entry.path) := by
    rw [hsplit]
    exact List.mem_append_right _ (List.mem_of_mem_filter hsegment)
  have hplain := Text.mem_of_mem_split hpiece hc
  rw [plainPath, String.toList_ofList] at hplain
  exact ⟨entry, hentry, mem_of_mem_dropDotSlash hplain⟩

theorem newline_not_mem_roots {packages : List Package}
    (hroots : ∀ p ∈ packages, '\n' ∉ p.root.toList) :
    ∀ p ∈ packagesOrWhole packages, '\n' ∉ p.root.toList := by
  rw [packagesOrWhole]
  split
  · intro p hp
    rw [List.mem_singleton.mp hp]
    decide
  · exact hroots

/-- **Each item of a report takes one line exactly if no declared name holds a line end**, where
paths and roots hold none. -/
theorem render_one_line_per_item_iff (entries : List SourceFile) (packages : List Package)
    (hpaths : ∀ entry ∈ entries, '\n' ∉ entry.path.toList)
    (hroots : ∀ p ∈ packages, '\n' ∉ p.root.toList) :
    breaks (build entries packages).render = (build entries packages).itemCount ↔
      ∀ file ∈ placements (packagesOrWhole packages) entries,
        ∀ d ∈ file.declarations, ∀ name ∈ d.names, '\n' ∉ name.toList := by
  rw [breaks_render_eq_iff]
  constructor
  · intro hnames file hfile d hd name hname
    apply hnames
    exact (mem_names_build_iff ..).mpr (Or.inr ⟨file, hfile, Or.inr ⟨d, hd, hname⟩⟩)
  · intro hdeclared name hname
    rcases (mem_names_build_iff ..).mp hname with ⟨p, hp, heq⟩ | ⟨file, hfile, hsegment | hnamed⟩
    · rw [heq]
      exact newline_not_mem_roots hroots p hp
    · intro hline
      obtain ⟨entry, hentry, hpath⟩ := exists_mem_path_of_mem_segments hfile hsegment hline
      exact hpaths entry hentry hpath
    · obtain ⟨d, hd, hname⟩ := hnamed
      exact hdeclared file hfile d hd name hname

/-- A file with one class, whose only method has the text of an expression for its name. -/
def memberFile (text : String) : SourceFile where
  path := "src/a.js"
  language := .javascript
  declarations := Outline.extract .javascript <|
    .node "program" none true [] [
      .node "class_declaration" none true [("name", 0), ("body", 1)] [
        .node "type_identifier" (some "C") true [] [],
        .node "class_body" none true [] [
          .node "method_definition" none true [("name", 0)] [
            .node "computed_property_name" (some text) true [] []]]]]

theorem render_one_line_per_item_short :
    breaks (build [memberFile "['ab']"] [⟨".", .js⟩]).render = 7 := by
  have hitems : (build [memberFile "['ab']"] [⟨".", .js⟩]).itemCount = 7 := by decide +kernel
  rw [← hitems]
  exact (render_one_line_per_item_iff [memberFile "['ab']"] [⟨".", .js⟩]
    (by decide) (by decide)).mpr (by decide)

/-- A computed name on two lines makes its bullet two lines. -/
theorem render_breaks_long_member :
    breaks (build [memberFile "['a' +\n 'b']"] [⟨".", .js⟩]).render = 8 ∧
      (build [memberFile "['a' +\n 'b']"] [⟨".", .js⟩]).itemCount = 7 := by
  have hitems : (build [memberFile "['a' +\n 'b']"] [⟨".", .js⟩]).itemCount = 7 := by decide +kernel
  have hnames : breaksIn (build [memberFile "['a' +\n 'b']"] [⟨".", .js⟩]).names = 1 := by
    decide +kernel
  rw [breaks_render, hitems, hnames]
  exact ⟨rfl, rfl⟩

end Report

end ProjectOutline
