import ProjectOutline.Discovery
import ProjectOutline.Proofs.Path.Components
import ProjectOutline.Proofs.Report.Complete
import ProjectOutline.Proofs.Store.Exchange

/-!
# The files of a scan and their places in a report

A scan keeps each file once, by its components; a report keeps each place once, by the segments of
the path that is displayed. The two agree, whatever the directories to scan are and however they
overlap: the displayed path of a source spells the components by which it lies below the root of the
project (`Located`), so no source is in another's way (`apart_of_run_sources`), and a report of them
leaves none out.

Of the store this needs that its walks answer with files strictly below the directory, and that none
of these files lies below another (`ProperWalks`).
-/

namespace ProjectOutline.Discovery

open Report (Spelled Apart PlacesAll)

/-! ## Displayed paths -/

/-- A source lies below the root by some components, and its displayed path spells them. -/
structure Located (root : Path) (source : SourcePath) (rest : List Path.Component) : Prop where
  below : source.path.components = root.components ++ rest
  plain : ∀ c ∈ rest, c.Plain
  proper : rest ≠ []
  display : source.display = Path.slashed rest

section Display

variable {root : Path} {source other : SourcePath} {rest rest' : List Path.Component}

theorem Located.split_display (h : Located root source rest) :
    Text.split '/' source.display = rest.map Path.Component.label := by
  rw [h.display, Path.split_slashed h.plain h.proper]

theorem Located.spelled (h : Located root source rest) : Spelled source.display where
  segment := by
    rw [h.split_display]
    intro piece hpiece
    obtain ⟨c, hc, rfl⟩ := List.mem_map.mp hpiece
    exact fun hempty => (h.plain c hc).label_ne_nil (String.toList_eq_nil_iff.mpr hempty)
  first := by
    rw [h.split_display, List.head?_map]
    intro hhead
    obtain ⟨c, hc, hdot⟩ := Option.map_eq_some_iff.mp hhead
    exact (h.plain c (List.mem_of_head? hc)).label_ne_dot (congrArg String.toList hdot)

/-- Below one root, one displayed path begins another exactly if the components do. -/
theorem Located.prefix_display_iff (h : Located root source rest) (h' : Located root other rest') :
    Text.split '/' source.display <+: Text.split '/' other.display ↔
      source.path.components <+: other.path.components := by
  rw [h.split_display, h'.split_display, Path.prefix_labels_iff h.plain h'.plain, h.below, h'.below,
    List.prefix_append_right_inj]

end Display

/-- The scan of a directory displays the file, as one that lies below the root. -/
def Shown (root : Path) (scan : ScanRoot) (path : Path) : Prop :=
  ∃ display rest, display? scan path = some display ∧ Located root ⟨path, display⟩ rest

section Scan

variable {root : Path} {included : List Path} {scan : ScanRoot}

/-- A directory to scan lies below the root by the components that its label spells. -/
theorem exists_components_of_mem_scanRoots (hroot : root.text ≠ "")
    (hincluded : ∀ extra ∈ included, extra.isAbsolute = false)
    (hscan : scan ∈ scanRoots root included) :
    ∃ lead, (∀ c ∈ lead, Path.Component.Plain c) ∧
      scan.dir.components = root.components ++ lead ∧ scan.label = Path.slashed lead := by
  rcases List.mem_cons.mp hscan with rfl | hscan
  · exact ⟨[], by simp, (List.append_nil _).symm, rfl⟩
  · obtain ⟨extra, hextra, rfl⟩ := List.mem_map.mp hscan
    have hrelative := hincluded extra hextra
    have hplain : ∀ c ∈ Path.segmentComponents extra.text.toList, c.Plain :=
      fun c hc => Path.plain_of_mem_segmentComponents hc
    refine ⟨_, hplain, Path.components_join hroot hrelative, ?_⟩
    simp only [Path.label, Path.slashed_components hrelative]
    by_cases hnone : Path.segmentComponents extra.text.toList = []
    · rw [hnone]
      rfl
    · rw [if_neg (Path.slashed_ne_empty hplain hnone), if_neg (Path.slashed_ne_dot hplain hnone)]

/-- A file strictly below a directory to scan is displayed, by its components below the root. -/
theorem shown_of_below (hroot : root.text ≠ "")
    (hincluded : ∀ extra ∈ included, extra.isAbsolute = false)
    (hscan : scan ∈ scanRoots root included) {path : Path}
    (hbelow : scan.dir.components <+: path.components)
    (hne : scan.dir.components ≠ path.components) : Shown root scan path := by
  obtain ⟨lead, hlead, hdir, hlabel⟩ := exists_components_of_mem_scanRoots hroot hincluded hscan
  obtain ⟨tail, htail⟩ := hbelow
  have htail' : tail ≠ [] := by
    rintro rfl
    exact hne (by rw [← htail, List.append_nil])
  have hpath : path.components = root.components ++ (lead ++ tail) := by
    rw [← htail, hdir, List.append_assoc]
  have hplain := Path.plain_of_components_eq hpath (Path.components_ne_nil hroot)
  have hinner : path.below? scan.dir = some tail := by
    rw [Path.below?, Path.dropLead?, ← htail, if_pos (by simp), List.drop_left]
  refine ⟨Path.slashed (lead ++ tail), lead ++ tail, ?_, hpath, hplain, by simp [htail'], rfl⟩
  rw [display?, hinner, Option.map_some, hlabel]
  by_cases hnone : lead = []
  · rw [hnone]
    rfl
  · rw [if_neg (Path.slashed_ne_empty hlead hnone), Path.slashed_append hlead
      (fun c hc => hplain c (List.mem_append_right _ hc)) hnone htail']

end Scan

/-! ## Gathering -/

/-- The sources gathered so far: each lies below the root, comes from some files, and was seen; no
two have the same components. -/
structure Gathered.Sound (root : Path) (files : List Path) (g : Gathered) : Prop where
  located : ∀ source ∈ g.sources, ∃ rest, Located root source rest
  listed : ∀ source ∈ g.sources, source.path ∈ files
  seen : ∀ source ∈ g.sources, source.path.components ∈ g.seen
  distinct : g.sources.Pairwise fun p q => p.path.components ≠ q.path.components

/-- The sources gathered so far have grammars. -/
def Gathered.Supported (g : Gathered) : Prop :=
  ∀ source ∈ g.sources, ∃ grammar, Grammar.ofPath? source.path = some grammar

section Gather

variable {root : Path} {files : List Path} {g : Gathered}

/-- One file more keeps the sources sound. -/
theorem Gathered.Sound.add {scan : ScanRoot} {path : Path} (h : g.Sound root files)
    (hfile : path ∈ files) (hshown : Shown root scan path) :
    (g.add scan path).Sound root files := by
  obtain ⟨display, rest, hdisplay, hlocated⟩ := hshown
  rw [Gathered.add, hdisplay]
  split
  · exact h
  · next hnew =>
    have hunseen : path.components ∉ g.seen := by
      intro hseen
      simp [hseen] at hnew
    have hmem : ∀ source ∈ g.sources ++ [⟨path, display⟩],
        source ∈ g.sources ∨ source = ⟨path, display⟩ := by simp
    constructor
    case located =>
      intro source hsource
      rcases hmem source hsource with hold | rfl
      · exact h.located source hold
      · exact ⟨rest, hlocated⟩
    case listed =>
      intro source hsource
      rcases hmem source hsource with hold | rfl
      · exact h.listed source hold
      · exact hfile
    case seen =>
      intro source hsource
      rcases hmem source hsource with hold | rfl
      · exact List.mem_append_left _ (h.seen source hold)
      · exact List.mem_append_right _ List.mem_cons_self
    case distinct =>
      refine List.pairwise_append.mpr ⟨h.distinct, List.pairwise_singleton .., ?_⟩
      intro source hold source' hsource' hsame
      obtain rfl := List.mem_singleton.mp hsource'
      exact hunseen (hsame ▸ h.seen source hold)

/-- So do all files of one directory. -/
theorem Gathered.Sound.addAll {scan : ScanRoot} {paths : List Path} (h : g.Sound root files)
    (hpaths : ∀ path ∈ paths, path ∈ files ∧ Shown root scan path) :
    (paths.foldl (Gathered.add scan) g).Sound root files := by
  induction paths generalizing g with
  | nil => exact h
  | cons path rest ih =>
    obtain ⟨hfile, hshown⟩ := hpaths path List.mem_cons_self
    exact ih (h.add hfile hshown) fun other hother =>
      hpaths other (List.mem_cons_of_mem _ hother)

/-- And all files of all directories. -/
theorem Gathered.Sound.foldl {found : List (ScanRoot × List Path)} (h : g.Sound root files)
    (hfound : ∀ item ∈ found, ∀ path ∈ item.2, path ∈ files ∧ Shown root item.1 path) :
    (found.foldl (fun g item => item.2.foldl (Gathered.add item.1) g) g).Sound root files := by
  induction found generalizing g with
  | nil => exact h
  | cons item rest ih =>
    exact ih (h.addAll (hfound item List.mem_cons_self)) fun other hother =>
      hfound other (List.mem_cons_of_mem _ hother)

theorem sound_gather {found : List (ScanRoot × List Path)}
    (hfound : ∀ item ∈ found, ∀ path ∈ item.2, path ∈ files ∧ Shown root item.1 path) :
    ∃ seen, Gathered.Sound root files ⟨seen, gather found⟩ := by
  have hstart : Gathered.Sound root files ⟨[], []⟩ :=
    ⟨by simp, by simp, by simp, List.Pairwise.nil⟩
  exact ⟨_, hstart.foldl hfound⟩

theorem Gathered.Supported.add {scan : ScanRoot} {path : Path} (h : g.Supported) :
    (g.add scan path).Supported := by
  rw [Gathered.add]
  split
  · exact h
  · next hnew =>
    intro source hsource
    rcases List.mem_append.mp hsource with hold | hsource
    · exact h source hold
    · obtain ⟨display, -, rfl⟩ := Option.map_eq_some_iff.mp (Option.mem_toList.mp hsource)
      simp only [Bool.or_eq_true, Option.isNone_iff_eq_none, not_or] at hnew
      exact Option.ne_none_iff_exists'.mp hnew.1

/-- Only files with a grammar are gathered. -/
theorem exists_grammar_of_mem_gather {found : List (ScanRoot × List Path)} {source : SourcePath}
    (h : source ∈ gather found) : ∃ grammar, Grammar.ofPath? source.path = some grammar := by
  have hstart : Gathered.Supported ⟨[], []⟩ := fun source hsource => nomatch hsource
  have hfound : Gathered.Supported
      (found.foldl (fun g item => item.2.foldl (Gathered.add item.1) g) ⟨[], []⟩) := by
    refine List.foldlRecOn found _ hstart fun g hg item hitem => ?_
    exact List.foldlRecOn item.2 _ hg fun g' hg' path hpath => hg'.add
  exact hfound source h

end Gather

/-! ## Walks -/

/-- The files that walks were answered with, each behind the directory that was walked. -/
def walked (log : List Exchange) : List (Path × Path) :=
  log.flatMap fun
    | ⟨.walk dir _, .ok files⟩ => files.map (dir, ·)
    | _ => []

/-- Walks answer with files strictly below the directory. -/
def WalksBelow (log : List Exchange) : Prop :=
  ∀ w ∈ walked log, w.1.components <+: w.2.components ∧ w.1.components ≠ w.2.components

instance (log : List Exchange) : Decidable (WalksBelow log) :=
  inferInstanceAs (Decidable (∀ w ∈ walked log, _ ∧ _))

/-- Walks answer with files strictly below the directory, and no such file lies below another. -/
structure ProperWalks (log : List Exchange) : Prop where
  below : WalksBelow log
  apart : ∀ v ∈ walked log, ∀ w ∈ walked log,
    v.2.components <+: w.2.components → v.2.components = w.2.components

/-- What is found in a directory to scan: the files that a walk of it was answered with, or none if
the walk failed or there is no such directory. -/
inductive Searched (log : List Exchange) (skip : List String) (scan : ScanRoot) :
    ScanRoot × List Path → Prop where
  | files {files : List Path} (hwalk : ⟨.walk scan.dir skip, .ok files⟩ ∈ log) :
      Searched log skip scan (scan, files)
  | failed (reason : String) (hwalk : ⟨.walk scan.dir skip, .error reason⟩ ∈ log) :
      Searched log skip scan (scan, [])
  | missing (hisDir : ⟨.isDir scan.dir, false⟩ ∈ log) : Searched log skip scan (scan, [])

section Searched

variable {log : List Exchange} {skip : List String} {scan : ScanRoot}
  {item : ScanRoot × List Path}

theorem Searched.mem_walked {path : Path} (h : Searched log skip scan item)
    (hpath : path ∈ item.2) :
    item.1 = scan ∧ (scan.dir, path) ∈ walked log := by
  cases h with
  | files hwalk => exact ⟨rfl, List.mem_flatMap.mpr ⟨_, hwalk, List.mem_map_of_mem hpath⟩⟩
  | failed reason hwalk => cases hpath
  | missing hisDir => cases hpath

end Searched

section Run

variable {σ : Type} {store : Store σ} {s : σ} {root : Path} {included : List Path}
  {skip : List String} {log : List Exchange}

theorem searched_of_filesBelow {scan : ScanRoot} {item : ScanRoot × List Path}
    (h : ((filesBelow skip scan).run store s).result = .ok item)
    (hlog : (filesBelow skip scan).exchanges store s ⊆ log) : Searched log skip scan item := by
  rw [filesBelow] at h hlog
  obtain ⟨isDir, after, hisDir, h, hlog⟩ := Script.run_ask_within h hlog
  cases isDir with
  | false =>
    cases h
    exact .missing hisDir
  | true =>
    obtain ⟨answer, after', hwalk, h, -⟩ := Script.run_ask_within h hlog
    cases answer with
    | error reason =>
      cases h
      exact .failed reason hwalk
    | ok files =>
      cases h
      exact .files hwalk

/-- The sources of a scan are gathered from what the directories to scan hold. -/
theorem searched_of_run_sources {files : List SourcePath}
    (h : ((sources root included skip).run store s).result = .ok files)
    (hlog : (sources root included skip).exchanges store s ⊆ log) :
    ∃ found, files = gather found ∧
      List.Forall₂ (Searched log skip) (scanRoots root included) found := by
  rw [sources] at h hlog
  obtain ⟨found, after, hfound, hlog, h, -⟩ := Script.run_bind_within h hlog
  cases h
  exact ⟨found, rfl, Script.forall₂_of_run_forEach hfound hlog
    fun scan _ item before hrun hasked => searched_of_filesBelow hrun hasked⟩

/-- The sources of a scan lie below the root, come from its walks, and have different components. -/
theorem sound_of_run_sources {found : List SourcePath} (hroot : root.text ≠ "")
    (hincluded : ∀ extra ∈ included, extra.isAbsolute = false)
    (hwalks : WalksBelow ((sources root included skip).exchanges store s))
    (h : ((sources root included skip).run store s).result = .ok found) :
    ∃ seen, Gathered.Sound root
      ((walked ((sources root included skip).exchanges store s)).map Prod.snd) ⟨seen, found⟩ := by
  obtain ⟨items, rfl, hitems⟩ := searched_of_run_sources h (List.Subset.refl _)
  apply sound_gather
  intro item hitem path hpath
  obtain ⟨scan, hscan, hsearched⟩ := Script.exists_mem_of_forall₂ hitems hitem
  obtain ⟨rfl, hmem⟩ := hsearched.mem_walked hpath
  obtain ⟨hbelow, hne⟩ := hwalks _ hmem
  exact ⟨List.mem_map.mpr ⟨_, hmem, rfl⟩, shown_of_below hroot hincluded hscan hbelow hne⟩

/-- The displayed paths of a scan are proper, and none leads on from another. -/
theorem apart_of_run_sources {found : List SourcePath} (hroot : root.text ≠ "")
    (hincluded : ∀ extra ∈ included, extra.isAbsolute = false)
    (hwalks : ProperWalks ((sources root included skip).exchanges store s))
    (h : ((sources root included skip).run store s).result = .ok found) :
    (∀ source ∈ found, Spelled source.display) ∧
      found.Pairwise fun p q => Apart p.display q.display := by
  obtain ⟨seen, hsound⟩ := sound_of_run_sources hroot hincluded hwalks.below h
  constructor
  · intro source hsource
    obtain ⟨rest, hlocated⟩ := hsound.located source hsource
    exact hlocated.spelled
  · refine (List.Pairwise.and_mem.mp hsound.distinct).imp ?_
    rintro p q ⟨hp, hq, hdistinct⟩
    obtain ⟨rest, hlocated⟩ := hsound.located p hp
    obtain ⟨rest', hlocated'⟩ := hsound.located q hq
    obtain ⟨v, hv, hvp⟩ := List.mem_map.mp (hsound.listed p hp)
    obtain ⟨w, hw, hwq⟩ := List.mem_map.mp (hsound.listed q hq)
    rw [Apart, hlocated.prefix_display_iff hlocated', hlocated'.prefix_display_iff hlocated,
      ← hvp, ← hwq]
    rw [← hvp, ← hwq] at hdistinct
    exact ⟨fun hprefix => hdistinct (hwalks.apart v hv w hw hprefix),
      fun hprefix => hdistinct (hwalks.apart w hw v hv hprefix).symm⟩

end Run

/-- **No scanned file is lost in the report.** On a store that answers, with proper walks, the scan
comes to its sources; and however these are read, a report of them holds every one that declares
something and is owned by a package. -/
theorem report_places_scanned_files {σ : Type} (responder : Responder σ) (s : σ) (root : Path)
    (included : List Path) (skip : List String) (hroot : root.text ≠ "")
    (hincluded : ∀ extra ∈ included, extra.isAbsolute = false)
    (hwalks : ProperWalks ((sources root included skip).exchanges responder.store s)) :
    ∃ found, ((sources root included skip).run responder.store s).result = .ok found ∧
      ∀ (entries : List SourceFile) (packages : List Package),
        (entries.map SourceFile.path).Sublist (found.map SourcePath.display) →
          PlacesAll entries packages := by
  obtain ⟨found, hfound⟩ := Script.run_responder_ok responder (sources root included skip) s
  refine ⟨found, hfound, fun entries packages hentries => ?_⟩
  obtain ⟨hspelled, hapart⟩ := apart_of_run_sources hroot hincluded hwalks hfound
  apply Report.placesAll_of_apart
  · intro entry hentry
    obtain ⟨source, hsource, hdisplay⟩ :=
      List.mem_map.mp (hentries.subset (List.mem_map_of_mem hentry))
    exact hdisplay ▸ hspelled source hsource
  · exact List.pairwise_map.mp ((List.pairwise_map.mpr hapart).sublist hentries)

/-- A store with two files, of which one is reached by several spellings. -/
def overlapping : Responder Unit
  | .walk ⟨"p"⟩ _, s => (.ok [⟨"p/a/b.py"⟩, ⟨"p/c.js"⟩], s)
  | .walk ⟨"p/./a//"⟩ _, s => (.ok [⟨"p/./a//b.py"⟩], s)
  | .walk ⟨"p/a/.."⟩ _, s => (.ok [⟨"p/a/../a/b.py"⟩, ⟨"p/a/../c.js"⟩], s)
  | .walk _ _, s => (.ok [], s)
  | .read path, s => (.ok path.text, s)
  | .write _ _, s => (.ok (), s)
  | .present _, s => (true, s)
  | .isDir _, s => (true, s)
  | .list _, s => (.ok [], s)

/-- Sources of that store as entries: a file that is scanned from two directories by different
components is shown at both places. -/
def overlappingEntries : List SourceFile :=
  [⟨"a/b.py", .python, [.function "b"]⟩, ⟨"c.js", .javascript, []⟩,
    ⟨"a/../a/b.py", .python, [.function "b"]⟩, ⟨"a/../c.js", .javascript, [.classDef "C" []]⟩]

theorem report_places_scanned_files_overlapping :
    ProperWalks ((sources ⟨"p"⟩ [⟨"./a//"⟩, ⟨"a/.."⟩] ["node_modules"]).exchanges
        overlapping.store ()) ∧
      PlacesAll overlappingEntries [⟨"a", .py⟩, ⟨".", .js⟩] ∧
      (Report.build overlappingEntries [⟨"a", .py⟩, ⟨".", .js⟩]).fileCount = 3 := by
  have hwalks : ProperWalks ((sources ⟨"p"⟩ [⟨"./a//"⟩, ⟨"a/.."⟩] ["node_modules"]).exchanges
      overlapping.store ()) := ⟨by decide, by decide⟩
  obtain ⟨found, hrun, hplaces⟩ := report_places_scanned_files overlapping () ⟨"p"⟩
    [⟨"./a//"⟩, ⟨"a/.."⟩] ["node_modules"] (by decide) (by decide) hwalks
  have hfound : found.map SourcePath.display = overlappingEntries.map SourceFile.path := by
    cases hrun
    decide
  have hall := hplaces overlappingEntries [⟨"a", .py⟩, ⟨".", .js⟩] (hfound ▸ List.Sublist.refl _)
  exact ⟨hwalks, hall, hall.count⟩

end ProjectOutline.Discovery
