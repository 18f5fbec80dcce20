import ProjectOutline.Proofs.FileTree.Entries

/-!
# The files that a walk lists

A walk goes down the directories of a tree in the order of their names and leaves out what is
hidden, what it is told to skip and what has no name in text. `walk_lists_unpruned_files` says what
comes of it: a file is listed exactly if no name on the way to it is a reason to leave it out
(`Unpruned`), and the list ascends in the order of the names.

Both parts go by induction on the entries (`Item.induction`): an entry lists what is unpruned below
it (`covers_filesOf`), in ascending order (`pairwise_filesOf`).
-/

namespace ProjectOutline

/-- What holds of files and links, and of a directory if it holds of its entries, holds of every
entry. -/
@[elab_as_elim]
theorem Item.induction {motive : Item → Prop}
    (file : ∀ name content, motive (.file name content))
    (directory : ∀ name items, (∀ item ∈ items, motive item) → motive (.directory name items))
    (link : ∀ name target, motive (.link name target)) (item : Item) : motive item := by
  refine @Item.rec motive (fun items => ∀ item ∈ items, motive item) file directory link ?_ ?_ item
  · exact fun item hitem => absurd hitem List.not_mem_nil
  · exact fun first rest hfirst hrest => List.forall_mem_cons.mpr ⟨hfirst, hrest⟩

namespace FileTree

variable {items : List Item} {item : Item} {skip : List String} {base path : Path}
variable {name : Name} {names location : Location}

/-! ## The files that are not left out -/

/-- The names that lead from the directory at a location to a regular file, by entries that a walk
does not leave out. A name to skip only counts for the directories on the way. -/
structure Unpruned (items : List Item) (location : Location) (skip : List String)
    (names : Location) : Prop where
  below : names ≠ []
  regular : ∃ content, content? items (location ++ names) = some content
  visible : ∀ name ∈ names, ∃ text, textOf? name = some text ∧ isHidden text = false
  unskipped : ∀ name ∈ names.dropLast, ∀ text ∈ skip, textOf? name ≠ some text

theorem unpruned_iff_contents? :
    Unpruned items location skip names ↔
      Unpruned ((contents? items location).getD []) [] skip names := by
  constructor
  · intro h
    exact ⟨h.below, content?_append location h.below ▸ h.regular, h.visible, h.unskipped⟩
  · intro h
    exact ⟨h.below, (content?_append location h.below).symm ▸ h.regular, h.visible, h.unskipped⟩

/-- What is found on the way to a file depends on the first entry only. -/
theorem content?_congr {others : List Item} (h : find? items name = find? others name)
    (rest : Location) : content? items (name :: rest) = content? others (name :: rest) := by
  cases rest with
  | nil => rw [content?_singleton, content?_singleton, h]
  | cons next rest => rw [content?_cons, content?_cons, h]

theorem exists_find?_of_content? {rest : Location} {content : ByteArray}
    (h : content? items (name :: rest) = some content) :
    ∃ item, find? items name = some item := by
  cases hfind : find? items name with
  | none =>
    have hnil : find? items name = find? [] name := hfind
    rw [content?_congr hnil, content?_nil] at h
    cases h
  | some item => exact ⟨item, rfl⟩

theorem find?_own (item : Item) : find? [item] item.name = some item := by
  simp [find?]

theorem content?_own (item : Item) (rest : Location) :
    content? [item] (item.name :: rest) =
      match item, rest with
      | .file _ content, [] => some content
      | .directory _ inner, rest => content? inner rest
      | _, _ => none := by
  cases rest with
  | nil =>
    rw [content?_singleton, find?_own]
    cases item <;> rfl
  | cons next rest =>
    rw [content?_cons, find?_own]
    cases item <;> rfl

/-- The way to a file below one entry starts with the entry. -/
theorem Unpruned.starts (h : Unpruned [item] [] skip names) :
    ∃ rest, names = item.name :: rest := by
  obtain ⟨name, rest, rfl⟩ := List.exists_cons_of_ne_nil h.below
  obtain ⟨content, hcontent⟩ := h.regular
  obtain ⟨found, hfound⟩ := exists_find?_of_content? hcontent
  have hmem : found = item := List.mem_singleton.mp (List.mem_of_find?_eq_some hfound)
  have hname : found.name = name := by simpa using List.find?_some hfound
  exact ⟨rest, by rw [← hname, hmem]⟩

/-- A file below some entries is below one of them. -/
theorem unpruned_iff_exists (h : areProper items = true) :
    Unpruned items [] skip names ↔ ∃ item ∈ items, Unpruned [item] [] skip names := by
  constructor
  · intro hkept
    obtain ⟨name, rest, rfl⟩ := List.exists_cons_of_ne_nil hkept.below
    obtain ⟨content, hcontent⟩ := hkept.regular
    obtain ⟨item, hfind⟩ := exists_find?_of_content? hcontent
    obtain ⟨hitem, rfl⟩ := (find?_eq_some_iff h).mp hfind
    have hsame := content?_congr (hfind.trans (find?_own item).symm) rest
    exact ⟨item, hitem, hkept.below, ⟨content, hsame ▸ hcontent⟩, hkept.visible, hkept.unskipped⟩
  · intro ⟨item, hitem, hkept⟩
    obtain ⟨rest, rfl⟩ := hkept.starts
    have hfind := (find?_eq_some_iff h).mpr ⟨hitem, rfl⟩
    have hsame := content?_congr (hfind.trans (find?_own item).symm) rest
    exact ⟨hkept.below, hsame ▸ hkept.regular, hkept.visible, hkept.unskipped⟩

theorem unpruned_file_iff {content : ByteArray} :
    Unpruned [.file name content] [] skip names ↔
      names = [name] ∧ ∃ text, textOf? name = some text ∧ isHidden text = false := by
  constructor
  · intro h
    obtain ⟨rest, rfl⟩ := h.starts
    obtain ⟨found, hfound⟩ := h.regular
    rw [List.nil_append, content?_own] at hfound
    cases rest with
    | nil => exact ⟨rfl, h.visible _ List.mem_cons_self⟩
    | cons next rest => cases hfound
  · intro ⟨hnames, htext⟩
    subst hnames
    refine ⟨List.cons_ne_nil _ _, ⟨content, content?_own (.file name content) []⟩, ?_, ?_⟩
    · simpa using htext
    · simp

theorem unpruned_directory_iff {inner : List Item} :
    Unpruned [.directory name inner] [] skip names ↔
      ∃ text rest, names = name :: rest ∧ textOf? name = some text ∧ isHidden text = false ∧
        text ∉ skip ∧ Unpruned inner [] skip rest := by
  constructor
  · intro h
    obtain ⟨rest, rfl⟩ := h.starts
    obtain ⟨content, hcontent⟩ := h.regular
    obtain ⟨hname, hrest⟩ := List.forall_mem_cons.mp h.visible
    obtain ⟨text, htext, hshown⟩ := hname
    have hinner : content? inner rest = some content := by
      rw [← hcontent]
      exact (content?_own (.directory name inner) rest).symm
    -- A directory is no file, so the way goes on below it.
    cases rest with
    | nil => cases hinner
    | cons next rest =>
      have hunskipped := List.forall_mem_cons.mp h.unskipped
      exact ⟨text, next :: rest, rfl, htext, hshown, fun hmem => hunskipped.1 text hmem htext,
        List.cons_ne_nil _ _, ⟨content, hinner⟩, hrest, hunskipped.2⟩
  · intro ⟨text, rest, hnames, htext, hshown, hskip, h⟩
    subst hnames
    refine ⟨List.cons_ne_nil _ _, ?_, ?_, ?_⟩
    · obtain ⟨content, hcontent⟩ := h.regular
      exact ⟨content, (content?_own (.directory name inner) rest).trans hcontent⟩
    · exact List.forall_mem_cons.mpr ⟨⟨text, htext, hshown⟩, h.visible⟩
    · rw [List.dropLast_cons_of_ne_nil h.below, List.forall_mem_cons]
      refine ⟨?_, h.unskipped⟩
      intro other hother heq
      rw [htext, Option.some.injEq] at heq
      exact hskip (heq ▸ hother)

theorem not_unpruned_link {target : List UInt8} : ¬ Unpruned [.link name target] [] skip names := by
  intro h
  obtain ⟨rest, rfl⟩ := h.starts
  obtain ⟨content, hcontent⟩ := h.regular
  rw [List.nil_append, content?_own] at hcontent
  cases hcontent

theorem isProper_of_content? {content : ByteArray} (h : areProper items = true)
    (hcontent : content? items names = some content) :
    ∀ name ∈ names, Name.isProper name = true := by
  induction names generalizing items with
  | nil => exact fun name hname => absurd hname List.not_mem_nil
  | cons name rest ih =>
    obtain ⟨item, hfind⟩ := exists_find?_of_content? hcontent
    obtain ⟨hitem, rfl⟩ := (find?_eq_some_iff h).mp hfind
    have hproper := isProper_of_mem h hitem
    rw [content?_congr (hfind.trans (find?_own item).symm), content?_own] at hcontent
    refine List.forall_mem_cons.mpr ⟨Item.isProper_name hproper, ?_⟩
    split at hcontent
    · exact fun name hname => absurd hname List.not_mem_nil
    · exact ih (Bool.and_eq_true_iff.mp hproper).2 hcontent
    · cases hcontent

theorem Unpruned.proper (hkept : Unpruned items [] skip names) (h : areProper items = true) :
    ∀ name ∈ names, Name.isProper name = true := by
  obtain ⟨content, hcontent⟩ := hkept.regular
  exact isProper_of_content? h hcontent

/-- The way to a file that is not left out can be spelt. -/
theorem Unpruned.exists_descend? (h : Unpruned items location skip names) (base : Path) :
    ∃ path, base.descend? names = some path := by
  have hvisible := h.visible
  clear h
  induction names generalizing base with
  | nil => exact ⟨base, rfl⟩
  | cons name rest ih =>
    obtain ⟨⟨text, htext, -⟩, hrest⟩ := List.forall_mem_cons.mp hvisible
    rw [Path.descend?_cons htext]
    exact ih (base.join ⟨text⟩) hrest

/-! ## What a walk lists -/

theorem filesOfAll_eq :
    filesOfAll skip base items = items.map fun item => (item.name, filesOf skip base item) := by
  induction items with
  | nil => rfl
  | cons first rest ih => rw [filesOfAll, ih, List.map_cons]

/-- What is listed for each of some entries, in the order of their names. -/
def listings (skip : List String) (base : Path) (items : List Item) : List (Name × List Path) :=
  (filesOfAll skip base items).mergeSort fun a b => bytesLe a.1 b.1

theorem filesBelow_eq : filesBelow skip base items = (listings skip base items).flatMap (·.2) :=
  rfl

theorem mem_listings_iff {listing : Name × List Path} :
    listing ∈ listings skip base items ↔
      ∃ item ∈ items, (item.name, filesOf skip base item) = listing := by
  rw [listings, List.mem_mergeSort, filesOfAll_eq, List.mem_map]

theorem mem_filesBelow_iff :
    path ∈ filesBelow skip base items ↔ ∃ item ∈ items, path ∈ filesOf skip base item := by
  rw [filesBelow_eq, List.mem_flatMap]
  simp [mem_listings_iff]

theorem mem_filesOf_file_iff {content : ByteArray} :
    path ∈ filesOf skip base (.file name content) ↔
      ∃ text, textOf? name = some text ∧ isHidden text = false ∧ path = base.join ⟨text⟩ := by
  rw [filesOf]
  cases textOf? name with
  | none => simp
  | some text => cases hhidden : isHidden text <;> simp [hhidden]

theorem mem_filesOf_directory_iff {inner : List Item} :
    path ∈ filesOf skip base (.directory name inner) ↔
      ∃ text, textOf? name = some text ∧ isHidden text = false ∧ text ∉ skip ∧
        path ∈ filesBelow skip (base.join ⟨text⟩) inner := by
  rw [filesOf]
  cases textOf? name with
  | none => simp
  | some text =>
    by_cases hskip : text ∈ skip <;> cases hhidden : isHidden text <;>
      simp [hhidden, hskip, filesBelow]

/-- Paths that are those of the files below some entries that are not left out. -/
def Covers (base : Path) (skip : List String) (items : List Item) (files : List Path) : Prop :=
  ∀ path, path ∈ files ↔
    ∃ names, Unpruned items [] skip names ∧ base.descend? names = some path

theorem covers_filesBelow (h : areProper items = true)
    (hitems : ∀ item ∈ items, Covers base skip [item] (filesOf skip base item)) :
    Covers base skip items (filesBelow skip base items) := by
  intro path
  rw [mem_filesBelow_iff]
  constructor
  · intro ⟨item, hitem, hpath⟩
    obtain ⟨names, hkept, hspelt⟩ := (hitems item hitem path).mp hpath
    exact ⟨names, (unpruned_iff_exists h).mpr ⟨item, hitem, hkept⟩, hspelt⟩
  · intro ⟨names, hkept, hspelt⟩
    obtain ⟨item, hitem, hkept⟩ := (unpruned_iff_exists h).mp hkept
    exact ⟨item, hitem, (hitems item hitem path).mpr ⟨names, hkept, hspelt⟩⟩

theorem covers_filesOf (h : item.isProper = true) :
    Covers base skip [item] (filesOf skip base item) := by
  -- The path of a directory is the base of its entries.
  induction item using Item.induction generalizing base with
  | file name content =>
    intro path
    rw [mem_filesOf_file_iff]
    constructor
    · intro ⟨text, htext, hshown, hpath⟩
      refine ⟨[name], unpruned_file_iff.mpr ⟨rfl, text, htext, hshown⟩, ?_⟩
      rw [Path.descend?_cons htext, hpath]
      rfl
    · intro ⟨names, hkept, hspelt⟩
      obtain ⟨rfl, text, htext, hshown⟩ := unpruned_file_iff.mp hkept
      rw [Path.descend?_cons htext] at hspelt
      exact ⟨text, htext, hshown, (Option.some.inj hspelt).symm⟩
  | directory name inner ih =>
    intro path
    have hinner : areProper inner = true := (Bool.and_eq_true_iff.mp h).2
    have hbelow : ∀ text : String, Covers (base.join ⟨text⟩) skip inner
        (filesBelow skip (base.join ⟨text⟩) inner) := by
      intro text
      exact covers_filesBelow hinner fun item hitem => ih item hitem (isProper_of_mem hinner hitem)
    rw [mem_filesOf_directory_iff]
    constructor
    · intro ⟨text, htext, hshown, hskip, hpath⟩
      obtain ⟨rest, hkept, hspelt⟩ := (hbelow text path).mp hpath
      refine ⟨name :: rest, unpruned_directory_iff.mpr ?_, (Path.descend?_cons htext).trans hspelt⟩
      exact ⟨text, rest, rfl, htext, hshown, hskip, hkept⟩
    · intro ⟨names, hkept, hspelt⟩
      obtain ⟨text, rest, rfl, htext, hshown, hskip, hkept⟩ := unpruned_directory_iff.mp hkept
      rw [Path.descend?_cons htext] at hspelt
      exact ⟨text, htext, hshown, hskip, (hbelow text path).mpr ⟨rest, hkept, hspelt⟩⟩
  | link name target =>
    intro path
    simp [filesOf, not_unpruned_link]

/-! ## The order of the list -/

/-- A path stands before another in the lexicographic order of their components, as bytes. -/
def Before (path other : Path) : Prop := path.names < other.names

/-- What is listed for an entry has the name of the entry behind those of the directory. -/
theorem names_of_mem_filesOf (hbase : base.text ≠ "") (h : item.isProper = true)
    (hpath : path ∈ filesOf skip base item) :
    ∃ rest, path.names = base.names ++ item.name :: rest := by
  obtain ⟨names, hkept, hspelt⟩ := (covers_filesOf h path).mp hpath
  obtain ⟨rest, rfl⟩ := hkept.starts
  have hitems : areProper [item] = true := areProper_cons.mpr ⟨h, List.not_mem_nil, rfl⟩
  exact ⟨rest, Path.names_descend? hbase (hkept.proper hitems) hspelt⟩

theorem before_of_mem_filesOf {other : Item} {path' : Path} (hbase : base.text ≠ "")
    (h : item.isProper = true) (hother : other.isProper = true) (hlt : item.name < other.name)
    (hpath : path ∈ filesOf skip base item) (hpath' : path' ∈ filesOf skip base other) :
    Before path path' := by
  obtain ⟨rest, hnames⟩ := names_of_mem_filesOf hbase h hpath
  obtain ⟨rest', hnames'⟩ := names_of_mem_filesOf hbase hother hpath'
  rw [Before, hnames, hnames']
  exact List.Lex.append_left _ (List.Lex.rel hlt) _

theorem pairwise_listings (h : areProper items = true) :
    (listings skip base items).Pairwise fun a b => a.1 < b.1 := by
  have hnodup : ((filesOfAll skip base items).map Prod.fst).Nodup := by
    rw [filesOfAll_eq, List.map_map]
    exact nodup_names h
  have hperm := List.mergeSort_perm (filesOfAll skip base items) fun a b => bytesLe a.1 b.1
  have hne := List.pairwise_map.mp ((hperm.map Prod.fst).nodup_iff.mpr hnodup)
  have hle := List.pairwise_mergeSort (fun a b c => bytesLe_trans a.1 b.1 c.1)
    (fun a b => bytesLe_total a.1 b.1) (filesOfAll skip base items)
  refine hle.imp₂ ?_ hne
  intro a b hab hdistinct
  exact (bytesLe_iff.mp hab).resolve_right hdistinct

theorem pairwise_filesBelow (hbase : base.text ≠ "") (h : areProper items = true)
    (hitems : ∀ item ∈ items, (filesOf skip base item).Pairwise Before) :
    (filesBelow skip base items).Pairwise Before := by
  rw [filesBelow_eq, List.pairwise_flatMap]
  constructor
  · intro listing hlisting
    obtain ⟨item, hitem, rfl⟩ := mem_listings_iff.mp hlisting
    exact hitems item hitem
  · apply (pairwise_listings h).imp_of_mem
    intro a b ha hb hlt path hpath path' hpath'
    obtain ⟨item, hitem, rfl⟩ := mem_listings_iff.mp ha
    obtain ⟨other, hother, rfl⟩ := mem_listings_iff.mp hb
    exact before_of_mem_filesOf hbase (isProper_of_mem h hitem) (isProper_of_mem h hother) hlt
      hpath hpath'

theorem pairwise_filesOf (hbase : base.text ≠ "") (h : item.isProper = true) :
    (filesOf skip base item).Pairwise Before := by
  induction item using Item.induction generalizing base with
  | file name content =>
    rw [filesOf]
    split
    · split <;> simp
    · exact List.Pairwise.nil
  | directory name inner ih =>
    obtain ⟨hname, hinner⟩ := Bool.and_eq_true_iff.mp h
    rw [filesOf]
    split
    · rename_i text htext
      rw [textOf?_eq_some_iff.mp htext] at hname
      have hjoin := (Path.names_join hbase hname).2
      split
      · exact List.Pairwise.nil
      · exact pairwise_filesBelow hjoin hinner fun item hitem =>
          ih item hitem hjoin (isProper_of_mem hinner hitem)
    · exact List.Pairwise.nil
  | link name target => exact List.Pairwise.nil

/-! ## The walk -/

/-- What a walk from a directory lists. -/
structure ListsUnpruned (t : FileTree) (root : Path) (location : Location) (skip : List String)
    (files : List Path) : Prop where
  /-- A path is listed exactly if the names that it goes on by lead to a file that is not left
  out. -/
  mem_iff : ∀ names : Location, (∀ name ∈ names, Name.isProper name = true) →
    ((∃ path ∈ files, root.descend? names = some path) ↔ Unpruned t.items location skip names)
  /-- Every path that is listed goes on from the directory by some names. -/
  spelt : ∀ path ∈ files, ∃ names : Location, (∀ name ∈ names, Name.isProper name = true) ∧
    root.descend? names = some path
  once : files.Nodup
  ascending : files.Pairwise Before

/-- **A walk from a directory lists the regular files below it that are not left out, each once and
in the order of their components.** -/
theorem walk_lists_unpruned_files (t : FileTree) (root : Path) (location : Location)
    (skip : List String) (hproper : areProper t.items = true)
    (hroot : t.resolve root = .ok (.directory location)) :
    ∃ files, t.walk root skip = .ok files ∧ ListsUnpruned t root location skip files := by
  have hinner := areProper_contents? location hproper
  have htext : root.text ≠ "" := by
    intro hempty
    rw [resolve, hempty] at hroot
    cases hroot
  have hcovers : Covers root skip _ _ := covers_filesBelow hinner fun item hitem =>
    covers_filesOf (isProper_of_mem hinner hitem)
  have hascending : (filesBelow skip root _).Pairwise Before :=
    pairwise_filesBelow htext hinner fun item hitem =>
      pairwise_filesOf htext (isProper_of_mem hinner hitem)
  refine ⟨_, by rw [walk, hroot], ?_, ?_, ?_, hascending⟩
  · intro names hnames
    rw [unpruned_iff_contents?]
    constructor
    · intro ⟨path, hpath, hspelt⟩
      obtain ⟨kept, hkept, hsame⟩ := (hcovers path).mp hpath
      -- Both ways spell one path, and a path tells the names that it goes on by.
      have heq : root.names ++ kept = root.names ++ names := by
        rw [← Path.names_descend? htext (hkept.proper hinner) hsame,
          ← Path.names_descend? htext hnames hspelt]
      exact List.append_cancel_left heq ▸ hkept
    · intro hkept
      obtain ⟨path, hspelt⟩ := hkept.exists_descend? root
      exact ⟨path, (hcovers path).mpr ⟨names, hkept, hspelt⟩, hspelt⟩
  · intro path hpath
    obtain ⟨names, hkept, hspelt⟩ := (hcovers path).mp hpath
    exact ⟨names, hkept.proper hinner, hspelt⟩
  · apply hascending.imp
    intro path other hbefore heq
    subst heq
    exact List.lt_irrefl _ hbefore

/-- A directory with the name of a skipped one, and in it an entry for each reason to keep one or
to leave it out. -/
def crowded : FileTree where
  items :=
    [.directory (bytesOf "dist")
      [.file (bytesOf "a.txt") .empty,
        .directory (bytesOf "a") [.file (bytesOf "x.js") .empty],
        .file (bytesOf "dist") .empty,
        .directory (bytesOf "lib") [.file (bytesOf "y.js") .empty],
        .directory (bytesOf ".git") [.file (bytesOf "z.js") .empty],
        .link (bytesOf "up") (bytesOf "a.txt"),
        .file [255] .empty]]
  here := []

theorem walk_lists_unpruned_files_crowded :
    areProper crowded.items = true ∧
      crowded.resolve ⟨"dist"⟩ = .ok (.directory [bytesOf "dist"]) ∧
      ListsUnpruned crowded ⟨"dist"⟩ [bytesOf "dist"] ["dist", "lib"]
        [⟨"dist/a/x.js"⟩, ⟨"dist/a.txt"⟩, ⟨"dist/dist"⟩] := by
  have hproper : areProper crowded.items = true := by decide
  have hsegments : segments (bytesOf "dist") ++
      (if endsInSlash (bytesOf "dist") then [dot] else []) = [bytesOf "dist"] := by decide
  have hroot : crowded.resolve ⟨"dist"⟩ = .ok (.directory [bytesOf "dist"]) := by
    simp only [resolve, walkFrom, hsegments]
    rw [if_neg (by decide), if_neg (by decide), walkSegments]
    exact walkSegments.eq_1 ..
  obtain ⟨files, hwalk, hlists⟩ :=
    walk_lists_unpruned_files crowded ⟨"dist"⟩ [bytesOf "dist"] ["dist", "lib"] hproper hroot
  have hfiles : files = [⟨"dist/a/x.js"⟩, ⟨"dist/a.txt"⟩, ⟨"dist/dist"⟩] := by
    rw [walk, hroot] at hwalk
    simp +decide [filesBelow, crowded, contents?, find?, Item.name, filesOfAll, filesOf,
      List.mergeSort] at hwalk
    exact hwalk.symm
  exact ⟨hproper, hroot, hfiles ▸ hlists⟩

end FileTree

end ProjectOutline
