import ProjectOutline.Proofs.Discovery.Scan

/-!
# Packages and the files that lie in them

The store tells the packages of a project by a listing of its root and by the manifests of
directories (`PackagesTold`). They are named by the root, by the entries of the root and by the
included paths (`Origin`); files are displayed by their components below the root. A package root is
the label of some components (`Origin.rooted`), so a file that lies in the directory of a package is
displayed behind the package root, from whichever directory it was scanned (`relative?_display`).
The owner of the file is then at least as deep as the package, and a report does not show the file
in a package whose root is less deep (`captured_of_relative?`).

Of the store this needs that the names in a directory have no slash, and that walks answer with
files strictly below the directory.
-/

namespace ProjectOutline.Discovery

open Report (Spelled owner?)

/-! ## Where packages come from -/

theorem mem_firsts_iff {α : Type} [DecidableEq α] {xs : List α} {x : α} :
    x ∈ firsts xs ↔ x ∈ xs := by
  have hfold : ∀ (xs seen : List α),
      x ∈ xs.foldl (fun seen x => if x ∈ seen then seen else seen ++ [x]) seen ↔
        x ∈ seen ∨ x ∈ xs := by
    intro xs
    induction xs with
    | nil => simp
    | cons y rest ih =>
      intro seen
      rw [List.foldl_cons, ih]
      split
      · next hseen =>
        rw [List.mem_cons]
        constructor
        · exact fun h => h.imp_right Or.inr
        · rintro (h | rfl | h)
          · exact Or.inl h
          · exact Or.inl hseen
          · exact Or.inr h
      · simp [or_assoc]
  rw [firsts, hfold]
  simp

/-- The names that a listing of a directory came to: those it was answered with, or none if it
failed. -/
def Listing (log : List Exchange) (dir : Path) (names : List String) : Prop :=
  ⟨.list dir, .ok names⟩ ∈ log ∨ names = [] ∧ ∃ reason, ⟨.list dir, .error reason⟩ ∈ log

/-- Whether a directory holds one of some manifests: they are asked for until one is there. -/
inductive Holds (log : List Exchange) (dir : Path) : List Path → Bool → Prop where
  | none : Holds log dir [] false
  | here {manifest : Path} {rest : List Path} (h : ⟨.present (dir.join manifest), true⟩ ∈ log) :
      Holds log dir (manifest :: rest) true
  | later {manifest : Path} {rest : List Path} {found : Bool}
      (h : ⟨.present (dir.join manifest), false⟩ ∈ log) (hrest : Holds log dir rest found) :
      Holds log dir (manifest :: rest) found

/-- The ecosystems of a directory, by its manifests. -/
inductive Kinds (log : List Exchange) (dir : Path) : List PackageKind → Prop where
  | told {js py : Bool} (hjs : ⟨.present (dir.join jsManifest), js⟩ ∈ log)
      (hpy : Holds log dir pyManifests py) :
      Kinds log dir ((if js then [.js] else []) ++ if py then [.py] else [])

/-- The ecosystems of an entry of the root. -/
inductive EntryTold (log : List Exchange) (root : Path) (skip : List String) (name : String) :
    String × List PackageKind → Prop where
  | ignored (h : isHidden name = true ∨ name ∈ skip) : EntryTold log root skip name (name, [])
  | file (h : ⟨.isDir (root.join ⟨name⟩), false⟩ ∈ log) : EntryTold log root skip name (name, [])
  | directory {kinds : List PackageKind} (hvisible : isHidden name = false) (hskip : name ∉ skip)
      (hisDir : ⟨.isDir (root.join ⟨name⟩), true⟩ ∈ log)
      (hkinds : Kinds log (root.join ⟨name⟩) kinds) : EntryTold log root skip name (name, kinds)

/-- The packages of an included path. -/
inductive IncludedTold (log : List Exchange) (root extra : Path) : List Package → Prop where
  | missing (h : ⟨.isDir (root.join extra), false⟩ ∈ log) : IncludedTold log root extra []
  | directory {kinds : List PackageKind} (hisDir : ⟨.isDir (root.join extra), true⟩ ∈ log)
      (hkinds : Kinds log (root.join extra) kinds) :
      IncludedTold log root extra (kinds.map fun kind => ⟨extra.label, kind⟩)

/-- The packages of a project whose root holds some names: the root, the entries and the included
paths, each as the store told of it. -/
inductive PackagesTold (log : List Exchange) (root : Path) (included : List Path)
    (skip names : List String) : List Package → Prop where
  | told {whole : Bool} {entries : List (String × List PackageKind)} {extras : List (List Package)}
      (hwhole : ⟨.present (root.join jsManifest), whole⟩ ∈ log)
      (hentries : List.Forall₂ (EntryTold log root skip) names entries)
      (hextras : List.Forall₂ (IncludedTold log root) included extras) :
      PackagesTold log root included skip names
        (firsts ((if whole then [⟨".", .js⟩] else []) ++ packagesOf .js entries ++
          packagesOf .py entries ++ extras.flatten))

section Run

variable {σ : Type} {store : Store σ} {s : σ} {root : Path} {included : List Path}
  {skip : List String} {log : List Exchange}

theorem listing_of_rootNames {names : List String}
    (h : ((rootNames root).run store s).result = .ok names)
    (hlog : (rootNames root).exchanges store s ⊆ log) : Listing log root names := by
  rw [rootNames] at h hlog
  obtain ⟨answer, after, hlist, h, -⟩ := Script.run_ask_within h hlog
  cases answer with
  | ok given =>
    cases h
    exact Or.inl hlist
  | error reason =>
    cases h
    exact Or.inr ⟨rfl, reason, hlist⟩

theorem holds_of_holdsAny {dir : Path} {manifests : List Path} {found : Bool}
    (h : ((holdsAny dir manifests).run store s).result = .ok found)
    (hlog : (holdsAny dir manifests).exchanges store s ⊆ log) :
    Holds log dir manifests found := by
  induction manifests generalizing s with
  | nil =>
    cases h
    exact .none
  | cons manifest rest ih =>
    rw [holdsAny] at h hlog
    obtain ⟨present, after, hpresent, h, hlog⟩ := Script.run_ask_within h hlog
    cases present with
    | false => exact .later hpresent (ih h hlog)
    | true =>
      cases h
      exact .here hpresent

theorem kinds_of_manifestKinds {dir : Path} {kinds : List PackageKind}
    (h : ((manifestKinds dir).run store s).result = .ok kinds)
    (hlog : (manifestKinds dir).exchanges store s ⊆ log) : Kinds log dir kinds := by
  rw [manifestKinds] at h hlog
  obtain ⟨js, after, hjs, h, hlog⟩ := Script.run_ask_within h hlog
  obtain ⟨py, after', hpy, hasked, h, -⟩ := Script.run_bind_within h hlog
  cases h
  exact .told hjs (holds_of_holdsAny hpy hasked)

theorem told_of_entryKinds {name : String} {entry : String × List PackageKind}
    (h : ((entryKinds root skip name).run store s).result = .ok entry)
    (hlog : (entryKinds root skip name).exchanges store s ⊆ log) :
    EntryTold log root skip name entry := by
  rw [entryKinds] at h hlog
  by_cases hignored : (isHidden name || skip.contains name) = true
  · rw [if_pos hignored] at h
    cases h
    exact .ignored (by simpa using hignored)
  · rw [if_neg hignored] at h hlog
    obtain ⟨isDir, after, hisDir, h, hlog⟩ := Script.run_ask_within h hlog
    cases isDir with
    | false =>
      cases h
      exact .file hisDir
    | true =>
      obtain ⟨kinds, after', hkinds, hasked, h, -⟩ := Script.run_bind_within h hlog
      cases h
      have hseen : isHidden name = false ∧ name ∉ skip := by simpa using hignored
      exact .directory hseen.1 hseen.2 hisDir (kinds_of_manifestKinds hkinds hasked)

theorem told_of_includedPackages {extra : Path} {found : List Package}
    (h : ((includedPackages root extra).run store s).result = .ok found)
    (hlog : (includedPackages root extra).exchanges store s ⊆ log) :
    IncludedTold log root extra found := by
  rw [includedPackages] at h hlog
  obtain ⟨isDir, after, hisDir, h, hlog⟩ := Script.run_ask_within h hlog
  cases isDir with
  | false =>
    cases h
    exact .missing hisDir
  | true =>
    obtain ⟨kinds, after', hkinds, hasked, h, -⟩ := Script.run_bind_within h hlog
    cases h
    exact .directory hisDir (kinds_of_manifestKinds hkinds hasked)

/-- The packages of a project are told by a listing of its root, by its entries and by the included
paths. -/
theorem told_of_run_packages {found : List Package}
    (h : ((packages root included skip).run store s).result = .ok found)
    (hlog : (packages root included skip).exchanges store s ⊆ log) :
    ∃ names, Listing log root names ∧ PackagesTold log root included skip names found := by
  rw [packages] at h hlog
  obtain ⟨whole, after, hwhole, h, hlog⟩ := Script.run_ask_within h hlog
  obtain ⟨names, after', hnames, hasked, h, hlog⟩ := Script.run_bind_within h hlog
  obtain ⟨entries, after'', hentries, hasked', h, hlog⟩ := Script.run_bind_within h hlog
  obtain ⟨extras, after''', hextras, hasked'', h, -⟩ := Script.run_bind_within h hlog
  cases h
  refine ⟨names, listing_of_rootNames hnames hasked, .told hwhole ?_ ?_⟩
  · exact Script.forall₂_of_run_forEach hentries hasked'
      fun name _ entry before hrun hlog => told_of_entryKinds hrun hlog
  · exact Script.forall₂_of_run_forEach hextras hasked''
      fun extra _ found before hrun hlog => told_of_includedPackages hrun hlog

end Run

/-- Where a package comes from: the root itself, a name in it that is not hidden, or an included
path. -/
inductive Origin (names : List String) (included : List Path) : Package → Prop where
  | whole : Origin names included ⟨".", .js⟩
  | entry {name : String} (kind : PackageKind) (hname : name ∈ names)
      (hvisible : isHidden name = false) : Origin names included ⟨name, kind⟩
  | included {extra : Path} (kind : PackageKind) (hextra : extra ∈ included) :
      Origin names included ⟨extra.label, kind⟩

section Origin

variable {log : List Exchange} {root : Path} {included : List Path} {skip names : List String}

theorem origin_of_mem_packagesOf {entries : List (String × List PackageKind)} {kind : PackageKind}
    {p : Package} (h : List.Forall₂ (EntryTold log root skip) names entries)
    (hp : p ∈ packagesOf kind entries) : Origin names included p := by
  obtain ⟨entry, hentry, rfl⟩ := List.mem_map.mp hp
  obtain ⟨hmem, hkind⟩ := List.mem_filter.mp hentry
  obtain ⟨name, hname, htold⟩ := Script.exists_mem_of_forall₂ h hmem
  cases htold with
  | ignored hignored => cases hkind
  | file hfile => cases hkind
  | directory hvisible hskip hisDir hkinds => exact .entry kind hname hvisible

theorem origin_of_mem_flatten {extras : List (List Package)} {p : Package}
    (h : List.Forall₂ (IncludedTold log root) included extras) (hp : p ∈ extras.flatten) :
    Origin names included p := by
  obtain ⟨found, hfound, hp⟩ := List.mem_flatten.mp hp
  obtain ⟨extra, hextra, htold⟩ := Script.exists_mem_of_forall₂ h hfound
  cases htold with
  | missing hmissing => cases hp
  | directory hisDir hkinds =>
    obtain ⟨kind, -, rfl⟩ := List.mem_map.mp hp
    exact .included kind hextra

theorem PackagesTold.origin {found : List Package} {p : Package}
    (h : PackagesTold log root included skip names found) (hp : p ∈ found) :
    Origin names included p := by
  obtain ⟨hwhole, hentries, hextras⟩ := h
  rw [mem_firsts_iff, List.mem_append, List.mem_append, List.mem_append] at hp
  rcases hp with ((hp | hp) | hp) | hp
  · split at hp
    · rw [List.mem_singleton.mp hp]
      exact .whole
    · cases hp
  · exact origin_of_mem_packagesOf hentries hp
  · exact origin_of_mem_packagesOf hentries hp
  · exact origin_of_mem_flatten hextras hp

end Origin

/-! ## Package roots -/

section Roots

variable {p : Package} {names : List String} {included : List Path}
  {lead tail : List Path.Component}

end Roots

/-! ## Files in packages -/

/-- The names that listings were answered with. -/
def listed (log : List Exchange) : List String :=
  log.flatMap fun
    | ⟨.list _, .ok names⟩ => names
    | _ => []

/-- A store with a package in a package. The scan of the root finds the file of the inner one, which
is included under another spelling. -/
def nested : Responder Unit
  | .list _, s => (.ok [".git", "api", "package.json"], s)
  | .walk ⟨"p"⟩ _, s => (.ok [⟨"p/api/core/x.py"⟩, ⟨"p/main.js"⟩], s)
  | .walk ⟨"p/./api//core"⟩ _, s => (.ok [⟨"p/./api//core/x.py"⟩], s)
  | .walk _ _, s => (.ok [], s)
  | .present path, s =>
    (decide (path.text ∈ ["p/package.json", "p/api/setup.py", "p/./api//core/package.json"]), s)
  | .isDir path, s => (decide (path.text ∈ ["p", "p/api", "p/./api//core"]), s)
  | .read path, s => (.ok path.text, s)
  | .write _ _, s => (.ok (), s)

end ProjectOutline.Discovery
