import ProjectOutline.Proofs.Report.Names
import ProjectOutline.Proofs.Text.Pieces

/-!
# Reading a rendered report

`Report.read?` recovers a report from its Markdown. A bullet is told by its indentation and its
text; the bullets behind one that are indented more belong to it, up to the first that is not. A
slash at the end of its text makes a bullet a directory. Below a file there are declarations, and
below these methods, so no further mark is needed.

The Markdown does not show whether a bullet without methods is a function or a class; `shown` makes
it a function. Up to that, reading undoes rendering (`read?_render`), provided that no name breaks a
line and no name of an entry has a slash.
-/

namespace ProjectOutline

/-! ## What is shown -/

/-- The declaration as it is shown: a class without methods looks like a function. -/
def Declaration.shown : Declaration → Declaration
  | .classDef name [] => .function name
  | d => d

mutual

/-- The entry as it is shown. -/
def Entry.shown : Entry → Entry
  | .file key declarations => .file key (declarations.map Declaration.shown)
  | .directory key entries => .directory key (Directory.shown entries)

/-- The entries of a directory as they are shown. -/
def Directory.shown : List Entry → List Entry
  | [] => []
  | e :: rest => e.shown :: Directory.shown rest

end

/-- The report as it is shown. -/
def Report.shown (r : Report) : Report :=
  ⟨r.packages.map fun item => (item.1, Directory.shown item.2)⟩

mutual

/-- The names of an entry and of all entries below it. -/
def Entry.keys : Entry → List String
  | .file key _ => [key]
  | .directory key entries => key :: Directory.keys entries

/-- The names of all entries in a directory and below it. -/
def Directory.keys : List Entry → List String
  | [] => []
  | e :: rest => e.keys ++ Directory.keys rest

end

/-- No name of the report breaks a line, and no name of an entry has a slash. -/
structure Report.Readable (r : Report) : Prop where
  line : ∀ name ∈ r.names, '\n' ∉ name.toList
  segment : ∀ item ∈ r.packages, ∀ key ∈ Directory.keys item.2, '/' ∉ key.toList

theorem Declaration.name_shown (d : Declaration) : d.shown.name = d.name := by
  unfold Declaration.shown
  split <;> rfl

theorem Declaration.methods_shown (d : Declaration) : d.shown.methods = d.methods := by
  unfold Declaration.shown
  split <;> rfl

/-! ## The reader -/

/-- A line of a nested list. -/
structure Bullet where
  depth : Nat
  text : String
deriving DecidableEq, Repr

namespace Bullet

/-- The bullet on a line: two blanks a level, then a dash and a blank. -/
def ofLine (line : String) : Bullet :=
  let blanks := (line.toList.takeWhile (· = ' ')).length
  ⟨blanks / 2, String.ofList (line.toList.drop (blanks + 2))⟩

/-- The bullets that belong to one, out of those behind it. -/
def inside (b : Bullet) (rest : List Bullet) : List Bullet :=
  rest.takeWhile (b.depth < ·.depth)

/-- The bullets behind those that belong to one. -/
def outside (b : Bullet) (rest : List Bullet) : List Bullet :=
  rest.dropWhile (b.depth < ·.depth)

theorem length_inside_le (b : Bullet) (rest : List Bullet) :
    (b.inside rest).length ≤ rest.length :=
  (List.takeWhile_prefix _).length_le

theorem length_outside_le (b : Bullet) (rest : List Bullet) :
    (b.outside rest).length ≤ rest.length :=
  (List.dropWhile_suffix _).length_le

/-- The declaration of a bullet and the bullets that belong to it. -/
def declaration (b : Bullet) : List Bullet → Declaration
  | [] => .function b.text
  | methods => .classDef b.text (methods.map Bullet.text)

/-- The declarations of a file. -/
def declarations : List Bullet → List Declaration
  | [] => []
  | b :: rest => b.declaration (b.inside rest) :: declarations (b.outside rest)
termination_by bullets => bullets.length
decreasing_by exact Nat.lt_succ_of_le (b.length_outside_le rest)

/-- The name of a directory, if the bullet stands for one. -/
def directoryKey? (b : Bullet) : Option String :=
  if b.text.toList.getLast? = some '/' then some (String.ofList b.text.toList.dropLast) else none

/-- The entries of a directory. -/
def entries : List Bullet → List Entry
  | [] => []
  | b :: rest =>
    (match b.directoryKey? with
      | some key => .directory key (entries (b.inside rest))
      | none => .file b.text (declarations (b.inside rest))) :: entries (b.outside rest)
termination_by bullets => bullets.length
decreasing_by
  · exact Nat.lt_succ_of_le (b.length_inside_le rest)
  · exact Nat.lt_succ_of_le (b.length_outside_le rest)

end Bullet

namespace Report

/-- The package that a heading names. -/
def package? (line : String) : Option Package :=
  [PackageKind.js, PackageKind.py].findSome? fun kind =>
    (Text.after? ("## Package (" ++ kind.name ++ "): `") line).map fun rest =>
      ⟨String.ofList rest.toList.dropLast, kind⟩

/-- The packages on some lines: a heading, an empty line, the bullets, and an empty line. -/
def packagesOf? : List String → Option (List (Package × Directory))
  | [] => some []
  | line :: rest => do
    let package ← package? line
    let body := rest.drop 1
    let others ← packagesOf? ((body.dropWhile (· ≠ "")).drop 1)
    return (package, Bullet.entries ((body.takeWhile (· ≠ "")).map Bullet.ofLine)) :: others
termination_by lines => lines.length
decreasing_by
  have hbody := (List.dropWhile_suffix (· ≠ "") (l := rest.drop 1)).length_le
  simp only [List.length_drop, List.length_cons] at hbody ⊢
  omega

/-- The report that a text shows. -/
def read? (text : String) : Option Report :=
  (packagesOf? (Text.split '\n' text).dropLast).map Report.mk

end Report

/-! ## Bullets -/

namespace Bullet

theorem toList_bullet (depth : Nat) (text : String) :
    (Report.bullet depth text).toList =
      List.replicate (2 * depth) ' ' ++ '-' :: ' ' :: text.toList := by
  have hindent :
      (String.join (List.replicate depth "  ")).toList = List.replicate (2 * depth) ' ' := by
    rw [String.toList_join]
    induction depth with
    | zero => rfl
    | succ depth ih =>
      have hlevel : "  ".toList = List.replicate 2 ' ' := rfl
      rw [List.replicate_succ, List.flatMap_cons, ih, hlevel, List.replicate_append_replicate,
        Nat.mul_succ, Nat.add_comm]
  rw [Report.bullet, String.toList_append, String.toList_append, hindent, List.append_assoc]
  rfl

/-- A bullet is read back, whatever its text begins with. -/
theorem ofLine_bullet (depth : Nat) (text : String) :
    ofLine (Report.bullet depth text) = ⟨depth, text⟩ := by
  have hblanks : ((Report.bullet depth text).toList.takeWhile (· = ' ')).length = 2 * depth := by
    rw [toList_bullet, List.takeWhile_append_of_pos (by simp), List.takeWhile_cons_of_neg (by simp)]
    simp
  have hrest : (Report.bullet depth text).toList.drop (2 * depth + 2) = text.toList := by
    rw [toList_bullet, List.drop_append, List.length_replicate, Nat.add_sub_cancel_left,
      List.drop_eq_nil_of_le (by simp)]
    rfl
  simp only [ofLine, hblanks, hrest, String.ofList_toList]
  rw [Nat.mul_div_cancel_left depth (by decide)]

variable {b : Bullet} {block others : List Bullet}

/-- The deeper bullets right behind one are those that belong to it. -/
theorem inside_append (hblock : ∀ c ∈ block, b.depth < c.depth)
    (hothers : ∀ c ∈ others.head?, c.depth ≤ b.depth) : b.inside (block ++ others) = block := by
  rw [inside, List.takeWhile_append_of_pos (by simpa using hblock)]
  cases others with
  | nil => simp
  | cons c rest =>
    have hstop := hothers c rfl
    rw [List.takeWhile_cons_of_neg (by simpa using hstop), List.append_nil]

theorem outside_append (hblock : ∀ c ∈ block, b.depth < c.depth)
    (hothers : ∀ c ∈ others.head?, c.depth ≤ b.depth) : b.outside (block ++ others) = others := by
  rw [outside, List.dropWhile_append_of_pos (by simpa using hblock)]
  cases others with
  | nil => rfl
  | cons c rest =>
    have hstop := hothers c rfl
    rw [List.dropWhile_cons_of_neg (by simpa using hstop)]

theorem directoryKey?_append_slash (depth : Nat) (key : String) :
    directoryKey? ⟨depth, key ++ "/"⟩ = some key := by
  have hslash : (key ++ "/").toList = key.toList ++ ['/'] := String.toList_append ..
  simp [directoryKey?, hslash]

theorem directoryKey?_eq_none {depth : Nat} {key : String} (h : '/' ∉ key.toList) :
    directoryKey? ⟨depth, key⟩ = none := by
  rw [directoryKey?, if_neg fun hlast => h (List.mem_of_getLast? hlast)]

end Bullet

/-! ## The lines of a report -/

namespace Report

mutual

/-- Each line of an entry is a bullet at least as deep as the entry, with a name of the entry or
with one and a slash. -/
theorem exists_bullet_of_mem_entryLines {line : String} :
    ∀ (e : Entry) (depth : Nat), line ∈ entryLines depth e →
      ∃ k ≥ depth, ∃ name ∈ e.names, line = bullet k name ∨ line = bullet k (name ++ "/")
  | .file key declarations, depth, h => by
    rw [entryLines, List.mem_cons, List.mem_flatMap] at h
    rcases h with rfl | ⟨d, hd, hline⟩
    · exact ⟨depth, le_rfl, key, List.mem_cons_self, Or.inl rfl⟩
    · have hnames : ∀ name ∈ d.names, name ∈ (Entry.file key declarations).names :=
        fun name hname => List.mem_cons_of_mem _ (List.mem_flatMap.mpr ⟨d, hd, hname⟩)
      rw [declarationLines, List.mem_cons, List.mem_map] at hline
      rcases hline with rfl | ⟨name, hname, rfl⟩
      · exact ⟨depth + 1, by omega, d.name, hnames _ List.mem_cons_self, Or.inl rfl⟩
      · exact ⟨depth + 2, by omega, name, hnames _ (List.mem_cons_of_mem _ hname), Or.inl rfl⟩
  | .directory key entries, depth, h => by
    rw [entryLines, List.mem_cons] at h
    rcases h with rfl | hline
    · exact ⟨depth, le_rfl, key, List.mem_cons_self, Or.inr rfl⟩
    · obtain ⟨k, hk, name, hname, hbullet⟩ :=
        exists_bullet_of_mem_directoryLines entries (depth + 1) hline
      exact ⟨k, by omega, name, List.mem_cons_of_mem _ hname, hbullet⟩

theorem exists_bullet_of_mem_directoryLines {line : String} :
    ∀ (d : List Entry) (depth : Nat), line ∈ directoryLines depth d →
      ∃ k ≥ depth, ∃ name ∈ Directory.names d,
        line = bullet k name ∨ line = bullet k (name ++ "/")
  | [], _, h => by cases h
  | e :: rest, depth, h => by
    rw [directoryLines, List.mem_append] at h
    rcases h with hline | hline
    · obtain ⟨k, hk, name, hname, hbullet⟩ := exists_bullet_of_mem_entryLines e depth hline
      exact ⟨k, hk, name, List.mem_append_left _ hname, hbullet⟩
    · obtain ⟨k, hk, name, hname, hbullet⟩ := exists_bullet_of_mem_directoryLines rest depth hline
      exact ⟨k, hk, name, List.mem_append_right _ hname, hbullet⟩

end

theorem le_depth_of_mem_directoryLines {d : Directory} {depth : Nat} {line : String}
    (h : line ∈ directoryLines depth d) : depth ≤ (Bullet.ofLine line).depth := by
  obtain ⟨k, hk, name, -, rfl | rfl⟩ := exists_bullet_of_mem_directoryLines d depth h
  · rwa [Bullet.ofLine_bullet]
  · rwa [Bullet.ofLine_bullet]

theorem bullet_ne_empty (depth : Nat) (text : String) : bullet depth text ≠ "" := by
  intro h
  have hchars := Bullet.toList_bullet depth text
  rw [h] at hchars
  simp at hchars

theorem ne_empty_of_mem_directoryLines {d : Directory} {depth : Nat} {line : String}
    (h : line ∈ directoryLines depth d) : line ≠ "" := by
  obtain ⟨k, -, name, -, rfl | rfl⟩ := exists_bullet_of_mem_directoryLines d depth h
  · exact bullet_ne_empty k name
  · exact bullet_ne_empty k (name ++ "/")

theorem newline_mem_bullet_iff (depth : Nat) (text : String) :
    '\n' ∈ (bullet depth text).toList ↔ '\n' ∈ text.toList := by
  simp [Bullet.toList_bullet]

theorem newline_not_mem_directoryLines {d : Directory} {depth : Nat}
    (hnames : ∀ name ∈ Directory.names d, '\n' ∉ name.toList) :
    ∀ line ∈ directoryLines depth d, '\n' ∉ line.toList := by
  intro line hline
  obtain ⟨k, -, name, hname, rfl | rfl⟩ := exists_bullet_of_mem_directoryLines d depth hline
  · rw [newline_mem_bullet_iff]
    exact hnames name hname
  · rw [newline_mem_bullet_iff, String.toList_append, List.mem_append, not_or]
    exact ⟨hnames name hname, by decide⟩

theorem newline_not_mem_heading {p : Package} (h : '\n' ∉ p.root.toList) :
    '\n' ∉ (heading p).toList := by
  have hfront : '\n' ∉ ("## Package (" ++ p.kind.name ++ "): `").toList := by
    cases p.kind <;> decide
  have hback : '\n' ∉ "`".toList := by decide
  change '\n' ∉ ("## Package (" ++ p.kind.name ++ "): `" ++ p.root ++ "`").toList
  rw [String.toList_append, String.toList_append, List.mem_append, List.mem_append]
  exact not_or.mpr ⟨not_or.mpr ⟨hfront, h⟩, hback⟩

theorem newline_not_mem_lines {r : Report} (h : r.Readable) :
    ∀ line ∈ r.lines, '\n' ∉ line.toList := by
  intro line hline
  obtain ⟨item, hitem, hline⟩ := List.mem_flatMap.mp hline
  have hnames : ∀ name ∈ item.1.root :: Directory.names item.2, '\n' ∉ name.toList :=
    fun name hname => h.line name (List.mem_flatMap.mpr ⟨item, hitem, hname⟩)
  have hempty : '\n' ∉ "".toList := by decide
  simp only [packageLines, List.mem_cons, List.mem_append, List.not_mem_nil, or_false] at hline
  rcases hline with rfl | rfl | hline | rfl
  · exact newline_not_mem_heading (hnames _ List.mem_cons_self)
  · exact hempty
  · exact newline_not_mem_directoryLines
      (fun name hname => hnames name (List.mem_cons_of_mem _ hname)) line hline
  · exact hempty

/-- The first line of a directory stands at its depth. -/
theorem depth_head?_directoryLines (depth : Nat) (d : Directory) :
    ∀ c ∈ ((directoryLines depth d).map Bullet.ofLine).head?, c.depth ≤ depth := by
  intro c hc
  cases d with
  | nil => cases hc
  | cons e rest =>
    cases e with
    | file key declarations =>
      obtain rfl : Bullet.ofLine (bullet depth key) = c := Option.some.inj hc
      rw [Bullet.ofLine_bullet]
    | directory key entries =>
      obtain rfl : Bullet.ofLine (bullet depth (key ++ "/")) = c := Option.some.inj hc
      rw [Bullet.ofLine_bullet]

end Report

/-! ## Reading undoes rendering -/

namespace Bullet

open Report

theorem lt_depth_of_mem_methods {depth : Nat} {methods : List String} :
    ∀ c ∈ (methods.map (bullet (depth + 1))).map ofLine, depth < c.depth := by
  intro c hc
  obtain ⟨line, hline, rfl⟩ := List.mem_map.mp hc
  obtain ⟨name, -, rfl⟩ := List.mem_map.mp hline
  rw [ofLine_bullet]
  exact Nat.lt_succ_self depth

theorem declaration_methods (depth : Nat) (d : Declaration) :
    declaration ⟨depth, d.name⟩ ((d.methods.map (bullet (depth + 1))).map ofLine) = d.shown := by
  cases d with
  | function name => rfl
  | classDef name methods =>
    cases methods with
    | nil => rfl
    | cons first rest =>
      have htexts : (((first :: rest).map (bullet (depth + 1))).map ofLine).map Bullet.text =
          first :: rest := by
        simp [ofLine_bullet, Function.comp_def]
      exact congrArg (Declaration.classDef name) htexts

theorem declarations_flatMap (depth : Nat) (ds : List Declaration) :
    declarations ((ds.flatMap (declarationLines depth)).map ofLine) =
      ds.map Declaration.shown := by
  induction ds with
  | nil => simp [declarations]
  | cons d rest ih =>
    have hhead : ∀ c ∈ ((rest.flatMap (declarationLines depth)).map ofLine).head?,
        c.depth ≤ depth := by
      intro c hc
      cases rest with
      | nil => cases hc
      | cons next others =>
        obtain rfl : ofLine (bullet depth next.name) = c := Option.some.inj hc
        rw [ofLine_bullet]
    rw [List.flatMap_cons, List.map_append, declarationLines, List.map_cons, ofLine_bullet,
      List.cons_append, declarations, inside_append lt_depth_of_mem_methods hhead,
      outside_append lt_depth_of_mem_methods hhead, declaration_methods, ih, List.map_cons]

theorem lt_depth_of_mem_declarationLines {depth : Nat} {ds : List Declaration} :
    ∀ c ∈ (ds.flatMap (declarationLines (depth + 1))).map ofLine, depth < c.depth := by
  intro c hc
  obtain ⟨line, hline, rfl⟩ := List.mem_map.mp hc
  obtain ⟨d, -, hline⟩ := List.mem_flatMap.mp hline
  rcases List.mem_cons.mp hline with rfl | hmethod
  · rw [ofLine_bullet]
    exact Nat.lt_succ_self depth
  · exact Nat.lt_of_succ_lt (lt_depth_of_mem_methods _ (List.mem_map_of_mem hmethod))

mutual

/-- The bullets of an entry are read as that entry, whatever follows them at its depth or above. -/
theorem entries_entryLines :
    ∀ (e : Entry) (depth : Nat) (others : List Bullet), (∀ key ∈ e.keys, '/' ∉ key.toList) →
      (∀ c ∈ others.head?, c.depth ≤ depth) →
      entries ((entryLines depth e).map ofLine ++ others) = e.shown :: entries others
  | .file key declarations, depth, others, hkeys, hothers => by
    have hkey : '/' ∉ key.toList := hkeys key List.mem_cons_self
    rw [entryLines, List.map_cons, ofLine_bullet, List.cons_append, entries,
      directoryKey?_eq_none hkey, inside_append lt_depth_of_mem_declarationLines hothers,
      outside_append lt_depth_of_mem_declarationLines hothers, declarations_flatMap, Entry.shown]
  | .directory key contents, depth, others, hkeys, hothers => by
    -- The contents stand deeper than the directory and the next entry does not, so the reader cuts
    -- the bullets between the two.
    have hdeeper : ∀ c ∈ (directoryLines (depth + 1) contents).map ofLine, depth < c.depth := by
      intro c hc
      obtain ⟨line, hline, rfl⟩ := List.mem_map.mp hc
      exact le_depth_of_mem_directoryLines hline
    rw [entryLines, List.map_cons, ofLine_bullet, List.cons_append, entries,
      directoryKey?_append_slash, inside_append hdeeper hothers, outside_append hdeeper hothers,
      Entry.shown]
    exact congrArg (Entry.directory key · :: entries others)
      (entries_directoryLines contents (depth + 1)
        fun k hk => hkeys k (List.mem_cons_of_mem _ hk))

theorem entries_directoryLines :
    ∀ (d : List Entry) (depth : Nat), (∀ key ∈ Directory.keys d, '/' ∉ key.toList) →
      entries ((directoryLines depth d).map ofLine) = Directory.shown d
  | [], depth, _ => by simp [directoryLines, entries, Directory.shown]
  | e :: rest, depth, hkeys => by
    rw [directoryLines, List.map_append,
      entries_entryLines e depth _ (fun k hk => hkeys k (List.mem_append_left _ hk))
        (depth_head?_directoryLines depth rest),
      entries_directoryLines rest depth fun k hk => hkeys k (List.mem_append_right _ hk),
      Directory.shown]

end

end Bullet

namespace Report

theorem package?_heading (p : Package) : package? (heading p) = some p := by
  obtain ⟨root, kind⟩ := p
  have hown : Text.after? ("## Package (" ++ kind.name ++ "): `") (heading ⟨root, kind⟩) =
      some (root ++ "`") :=
    Text.after?_eq_some_iff.mpr (String.append_assoc ..)
  cases kind with
  | js => simp [package?, hown]
  | py =>
    have hother : Text.after? ("## Package (" ++ PackageKind.js.name ++ "): `")
        (heading ⟨root, .py⟩) = none := by
      have hchars : (heading ⟨root, .py⟩).toList =
          "## Package (py): `".toList ++ (root ++ "`").toList :=
        (congrArg String.toList (String.append_assoc ..)).trans (String.toList_append ..)
      rw [Text.after?, hchars]
      rfl
    simp [package?, hown, hother]

/-- A package and its tree are read back, whatever follows them. -/
theorem packagesOf?_packageLines (item : Package × Directory) (others : List String) :
    packagesOf? (packageLines item ++ others) =
      (packagesOf? others).map
        ((item.1, Bullet.entries ((directoryLines 0 item.2).map Bullet.ofLine)) :: ·) := by
  have hbody : ∀ line ∈ directoryLines 0 item.2, decide (line ≠ "") = true :=
    fun line hline => decide_eq_true (ne_empty_of_mem_directoryLines hline)
  have htake : (directoryLines 0 item.2 ++ "" :: others).takeWhile (· ≠ "") =
      directoryLines 0 item.2 := by
    rw [List.takeWhile_append_of_pos hbody, List.takeWhile_cons_of_neg (by simp), List.append_nil]
  have hdrop : (directoryLines 0 item.2 ++ "" :: others).dropWhile (· ≠ "") = "" :: others := by
    rw [List.dropWhile_append_of_pos hbody, List.dropWhile_cons_of_neg (by simp)]
  have hlines : packageLines item ++ others =
      heading item.1 :: "" :: (directoryLines 0 item.2 ++ "" :: others) := by
    simp [packageLines]
  rw [hlines, packagesOf?, package?_heading]
  simp only [List.drop_succ_cons, List.drop_zero, htake, hdrop]
  cases packagesOf? others <;> rfl

theorem packagesOf?_lines {items : List (Package × Directory)}
    (hkeys : ∀ item ∈ items, ∀ key ∈ Directory.keys item.2, '/' ∉ key.toList) :
    packagesOf? (items.flatMap packageLines) =
      some (items.map fun item => (item.1, Directory.shown item.2)) := by
  induction items with
  | nil => simp [packagesOf?]
  | cons item rest ih =>
    rw [List.flatMap_cons, packagesOf?_packageLines,
      Bullet.entries_directoryLines item.2 0 (hkeys item List.mem_cons_self),
      ih fun other hother => hkeys other (List.mem_cons_of_mem _ hother), Option.map_some,
      List.map_cons]

/-- The lines of a text that ends each of them. -/
theorem split_join_lines {lines : List String} (h : ∀ line ∈ lines, '\n' ∉ line.toList) :
    Text.split '\n' (String.join (lines.map (· ++ "\n"))) = lines ++ [""] := by
  have hchars : (String.join (lines.map (· ++ "\n"))).toList =
      (lines.map String.toList).flatMap (· ++ ['\n']) := by
    rw [String.toList_join, List.flatMap_map, List.flatMap_map]
    refine List.flatMap_congr fun line _ => ?_
    exact String.toList_append ..
  have hlines : ∀ line ∈ lines.map String.toList, '\n' ∉ line := by
    simpa using h
  rw [Text.split, hchars, Text.splitChars_lines hlines, List.map_append, List.map_map]
  simp

/-- A readable report is read back from its Markdown as it is shown there. -/
theorem read?_render {r : Report} (h : r.Readable) : read? r.render = some r.shown := by
  rw [read?, render, split_join_lines (newline_not_mem_lines h), List.dropLast_concat, lines,
    packagesOf?_lines h.segment]
  rfl

/-! ## Which reports look alike -/

theorem declarationLines_shown (depth : Nat) (d : Declaration) :
    declarationLines depth d.shown = declarationLines depth d := by
  rw [declarationLines, declarationLines, d.name_shown, d.methods_shown]

mutual

theorem entryLines_shown :
    ∀ (e : Entry) (depth : Nat), entryLines depth e.shown = entryLines depth e
  | .file key declarations, depth => by
    simp only [Entry.shown, entryLines, List.flatMap_map, declarationLines_shown]
  | .directory key entries, depth => by
    rw [Entry.shown, entryLines, entryLines, directoryLines_shown entries (depth + 1)]

theorem directoryLines_shown :
    ∀ (d : List Entry) (depth : Nat),
      directoryLines depth (Directory.shown d) = directoryLines depth d
  | [], _ => rfl
  | e :: rest, depth => by
    rw [Directory.shown, directoryLines, directoryLines, entryLines_shown e depth,
      directoryLines_shown rest depth]

end

theorem packageLines_shown (item : Package × Directory) :
    packageLines (item.1, Directory.shown item.2) = packageLines item := by
  rw [packageLines, packageLines, directoryLines_shown]

theorem render_shown (r : Report) : r.shown.render = r.render := by
  simp only [render, lines, shown, List.flatMap_map, packageLines_shown]

/-- The Markdown tells a readable report up to the difference between a function and a class
without methods: the reader recovers what is shown, and two reports have the same Markdown exactly
if they show the same. -/
theorem render_eq_iff_shown_eq (a b : Report) (ha : a.Readable) (hb : b.Readable) :
    read? a.render = some a.shown ∧ (a.render = b.render ↔ a.shown = b.shown) := by
  refine ⟨read?_render ha, fun hrender => ?_, fun hshown => ?_⟩
  · have hread : some a.shown = some b.shown := by
      rw [← read?_render ha, ← read?_render hb, hrender]
    exact Option.some.inj hread
  · rw [← render_shown a, ← render_shown b, hshown]

/-- A report whose names look like lines of Markdown. -/
def likeMarkdown (d : Declaration) : Report :=
  ⟨[(⟨"## Package (py): `", .js⟩,
      [.directory "- a" [.file "  - b" [d, .classDef "- C" ["  - m", "    - n"]]],
        .directory "" [], .file "# c" [.function ""]]),
    (⟨"", .py⟩, [])]⟩

theorem render_eq_iff_shown_eq_likeMarkdown :
    (likeMarkdown (.function "f")).Readable ∧ (likeMarkdown (.classDef "f" [])).Readable ∧
      read? (likeMarkdown (.classDef "f" [])).render = some (likeMarkdown (.function "f")) ∧
      (likeMarkdown (.classDef "f" [])).render = (likeMarkdown (.function "f")).render := by
  have hfunction : (likeMarkdown (.function "f")).Readable := ⟨by decide, by decide⟩
  have hclass : (likeMarkdown (.classDef "f" [])).Readable := ⟨by decide, by decide⟩
  have hboth := render_eq_iff_shown_eq _ _ hclass hfunction
  exact ⟨hfunction, hclass, hboth.1, hboth.2.mpr rfl⟩

end Report

end ProjectOutline
