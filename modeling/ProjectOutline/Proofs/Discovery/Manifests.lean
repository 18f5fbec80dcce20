import ProjectOutline.Proofs.Discovery.FirstFound
import ProjectOutline.Proofs.Discovery.Packages
import ProjectOutline.Proofs.Store.Answers

/-!
# Packages by their manifests

A directory is a package of an ecosystem if it holds a manifest of it. Three kinds of directories
count: the root, for `js` only; the directories in the root that are neither hidden nor skipped; and
the included ones (`Manifested`). Each package is listed once, at the place where it first stands in
the sequence `announced`: the root, the `js` packages and then the `py` packages in the root, and
the included ones. Where the root cannot be listed, only its directories are missing in this
sequence.

The program asks for the two ecosystems of a directory together and sorts its entries into two lists
afterwards; `outcome_packages` shows that this gives the sequence.

Of the store this needs that its answers do not change.
-/

namespace ProjectOutline

/-! ## Manifests -/

/-- Whether a directory holds a manifest of an ecosystem. -/
def Answers.holds (answers : Answers) (dir : Path) : PackageKind → Bool
  | .js => answers (.present (dir.join ⟨"package.json"⟩))
  | .py => answers (.present (dir.join ⟨"setup.py"⟩)) ||
      answers (.present (dir.join ⟨"pyproject.toml"⟩))

/-- Whether a directory is there and holds a manifest of an ecosystem. -/
def Answers.isPackage (answers : Answers) (dir : Path) (kind : PackageKind) : Bool :=
  answers (.isDir dir) && answers.holds dir kind

/-- The names in a directory; none if it cannot be listed. -/
def Answers.names (answers : Answers) (dir : Path) : List String :=
  match answers (.list dir) with
  | .ok names => names
  | .error _ => []

theorem Answers.mem_names_iff {answers : Answers} {dir : Path} {name : String} :
    name ∈ answers.names dir ↔ ∃ names, answers (.list dir) = .ok names ∧ name ∈ names := by
  unfold names
  cases answers (.list dir) <;> simp

/-- All ecosystems. -/
def PackageKind.all : List PackageKind := [.js, .py]

theorem PackageKind.mem_all (kind : PackageKind) : kind ∈ all := by
  cases kind <;> decide

namespace Discovery

/-- The directories with manifests that count as packages of a project. -/
inductive Manifested (answers : Answers) (root : Path) (included : List Path)
    (skip : List String) : Package → Prop where
  | whole (h : answers (.present (root.join ⟨"package.json"⟩)) = true) :
      Manifested answers root included skip ⟨".", .js⟩
  | entry {names : List String} {name : String} {kind : PackageKind}
      (hlist : answers (.list root) = .ok names) (hname : name ∈ names)
      (hvisible : isHidden name = false) (hskip : name ∉ skip)
      (hpackage : answers.isPackage (root.join ⟨name⟩) kind = true) :
      Manifested answers root included skip ⟨name, kind⟩
  | included {extra : Path} {kind : PackageKind} (hextra : extra ∈ included)
      (hpackage : answers.isPackage (root.join extra) kind = true) :
      Manifested answers root included skip ⟨extra.label, kind⟩

/-! ## The sequence -/

section Sequence

variable (answers : Answers) (root : Path) (included : List Path) (skip : List String)

/-- The root as a package. -/
def wholePackage : List Package :=
  if answers (.present (root.join ⟨"package.json"⟩)) then [⟨".", .js⟩] else []

/-- The packages of an ecosystem in the root, in the order of its names. -/
def entryPackages (kind : PackageKind) : List Package :=
  ((answers.names root).filter fun name =>
    !isHidden name && !skip.contains name && answers.isPackage (root.join ⟨name⟩) kind).map
      fun name => ⟨name, kind⟩

/-- The packages of an included directory, `js` before `py`. -/
def extraPackages (extra : Path) : List Package :=
  (PackageKind.all.filter (answers.isPackage (root.join extra))).map fun kind =>
    ⟨extra.label, kind⟩

/-- All packages of a project, in their order, with repetitions. -/
def announced : List Package :=
  wholePackage answers root ++ entryPackages answers root skip .js ++
    entryPackages answers root skip .py ++ included.flatMap (extraPackages answers root)

variable {answers root included skip}

theorem mem_wholePackage_iff {p : Package} :
    p ∈ wholePackage answers root ↔
      answers (.present (root.join ⟨"package.json"⟩)) = true ∧ p = ⟨".", .js⟩ := by
  unfold wholePackage
  split <;> simp_all

theorem mem_entryPackages_iff {kind : PackageKind} {p : Package} :
    p ∈ entryPackages answers root skip kind ↔
      p.kind = kind ∧ p.root ∈ answers.names root ∧ isHidden p.root = false ∧ p.root ∉ skip ∧
        answers.isPackage (root.join ⟨p.root⟩) kind = true := by
  obtain ⟨name, kind'⟩ := p
  unfold entryPackages
  simp only [List.mem_map, List.mem_filter, Bool.and_eq_true, Bool.not_eq_true',
    List.contains_eq_mem, decide_eq_false_iff_not, Package.mk.injEq]
  constructor
  · rintro ⟨other, ⟨hname, ⟨hvisible, hskip⟩, hpackage⟩, rfl, rfl⟩
    exact ⟨rfl, hname, hvisible, hskip, hpackage⟩
  · rintro ⟨rfl, hname, hvisible, hskip, hpackage⟩
    exact ⟨name, ⟨hname, ⟨hvisible, hskip⟩, hpackage⟩, rfl, rfl⟩

theorem mem_extraPackages_iff {extra : Path} {p : Package} :
    p ∈ extraPackages answers root extra ↔
      p.root = extra.label ∧ answers.isPackage (root.join extra) p.kind = true := by
  obtain ⟨label, kind⟩ := p
  unfold extraPackages
  simp only [List.mem_map, List.mem_filter, PackageKind.mem_all, true_and, Package.mk.injEq]
  constructor
  · rintro ⟨other, hpackage, rfl, rfl⟩
    exact ⟨rfl, hpackage⟩
  · intro h
    exact ⟨kind, h.2, h.1.symm, rfl⟩

/-- The sequence holds the directories with manifests, and nothing else. -/
theorem mem_announced_iff {p : Package} :
    p ∈ announced answers root included skip ↔ Manifested answers root included skip p := by
  simp only [announced, List.mem_append, List.mem_flatMap, mem_wholePackage_iff,
    mem_entryPackages_iff, mem_extraPackages_iff]
  constructor
  · obtain ⟨name, kind⟩ := p
    have hentry : name ∈ answers.names root → isHidden name = false → name ∉ skip →
        answers.isPackage (root.join ⟨name⟩) kind = true →
          Manifested answers root included skip ⟨name, kind⟩ := by
      intro hname hvisible hskip hpackage
      obtain ⟨names, hlist, hname⟩ := Answers.mem_names_iff.mp hname
      exact .entry hlist hname hvisible hskip hpackage
    rintro (((⟨hwhole, hp⟩ | ⟨rfl, h⟩) | ⟨rfl, h⟩) | ⟨extra, hextra, rfl, hpackage⟩)
    · rw [hp]
      exact .whole hwhole
    · exact hentry h.1 h.2.1 h.2.2.1 h.2.2.2
    · exact hentry h.1 h.2.1 h.2.2.1 h.2.2.2
    · exact .included hextra hpackage
  · intro h
    cases h with
    | whole hwhole => exact Or.inl (Or.inl (Or.inl ⟨hwhole, rfl⟩))
    | @entry names name kind hlist hname hvisible hskip hpackage =>
      have hnames := Answers.mem_names_iff.mpr ⟨names, hlist, hname⟩
      cases kind with
      | js => exact Or.inl (Or.inl (Or.inr ⟨rfl, hnames, hvisible, hskip, hpackage⟩))
      | py => exact Or.inl (Or.inr ⟨rfl, hnames, hvisible, hskip, hpackage⟩)
    | included hextra hpackage => exact Or.inr ⟨_, hextra, rfl, hpackage⟩

theorem announced_of_unlisted {reason : String} (h : answers (.list root) = .error reason) :
    announced answers root included skip =
      wholePackage answers root ++ included.flatMap (extraPackages answers root) := by
  have hnames : answers.names root = [] := by
    unfold Answers.names
    rw [h]
  simp [announced, entryPackages, hnames]

end Sequence

/-! ## The program -/

section Outcome

variable (answers : Answers) (root : Path)

theorem outcome_holdsAny (dir : Path) (manifests : List Path) :
    (holdsAny dir manifests).outcome answers =
      manifests.any fun manifest => answers (.present (dir.join manifest)) := by
  induction manifests with
  | nil => rfl
  | cons manifest rest ih =>
    unfold holdsAny
    rw [Script.outcome_bind, Script.outcome_ask, List.any_cons]
    cases answers (.present (dir.join manifest)) with
    | false => exact ih
    | true => rfl

theorem outcome_manifestKinds (dir : Path) :
    (manifestKinds dir).outcome answers = PackageKind.all.filter (answers.holds dir) := by
  have hpy : (pyManifests.any fun manifest => answers (.present (dir.join manifest))) =
      answers.holds dir .py := by
    simp [pyManifests, Answers.holds]
  unfold manifestKinds
  rw [Script.outcome_bind, Script.outcome_ask, Script.outcome_bind, outcome_holdsAny, hpy,
    Script.outcome_pure]
  change (if answers.holds dir .js then _ else _) ++ _ = _
  unfold PackageKind.all
  cases hjs : answers.holds dir .js <;> cases hpy : answers.holds dir .py <;> simp [hjs, hpy]

/-- The ecosystems of a directory that is there. -/
theorem filter_isPackage (dir : Path) :
    PackageKind.all.filter (answers.isPackage dir) =
      if answers (.isDir dir) then PackageKind.all.filter (answers.holds dir) else [] := by
  have hpackage : answers.isPackage dir =
      fun kind => answers (.isDir dir) && answers.holds dir kind := rfl
  rw [hpackage]
  cases answers (.isDir dir) <;> simp

theorem outcome_entryKinds (skip : List String) (name : String) :
    (entryKinds root skip name).outcome answers =
      (name, if isHidden name || skip.contains name then []
        else PackageKind.all.filter (answers.isPackage (root.join ⟨name⟩))) := by
  unfold entryKinds
  split
  · rfl
  · rw [Script.outcome_bind, Script.outcome_ask, filter_isPackage]
    cases answers (.isDir (root.join ⟨name⟩)) with
    | false => rfl
    | true =>
      simp only [if_true]
      rw [Script.outcome_bind, outcome_manifestKinds]
      rfl

theorem outcome_includedPackages (extra : Path) :
    (includedPackages root extra).outcome answers = extraPackages answers root extra := by
  unfold includedPackages extraPackages
  rw [Script.outcome_bind, Script.outcome_ask, filter_isPackage]
  cases answers (.isDir (root.join extra)) with
  | false => rfl
  | true =>
    simp only [if_true]
    rw [Script.outcome_bind, outcome_manifestKinds]
    rfl

theorem outcome_rootNames : (rootNames root).outcome answers = answers.names root := by
  unfold rootNames Answers.names
  rw [Script.outcome_bind, Script.outcome_ask]
  cases answers (.list root) <;> rfl

/-- The entries of the root fall into the packages of the two ecosystems. -/
theorem packagesOf_entries (skip : List String) (kind : PackageKind) :
    packagesOf kind ((answers.names root).map fun name =>
      (entryKinds root skip name).outcome answers) = entryPackages answers root skip kind := by
  have hkinds : ∀ name : String,
      ((entryKinds root skip name).outcome answers).2.contains kind =
        (!isHidden name && !skip.contains name &&
          answers.isPackage (root.join ⟨name⟩) kind) := by
    intro name
    rw [outcome_entryKinds, ← Bool.not_or]
    cases isHidden name || skip.contains name with
    | true => rfl
    | false => simp [PackageKind.mem_all]
  have hnames : ∀ name : String, ((entryKinds root skip name).outcome answers).1 = name := by
    intro name
    rw [outcome_entryKinds]
  unfold packagesOf entryPackages
  rw [List.filter_map, List.map_map]
  simp only [Function.comp_def, hkinds, hnames]

theorem outcome_packages (included : List Path) (skip : List String) :
    (packages root included skip).outcome answers =
      firsts (announced answers root included skip) := by
  unfold packages announced
  rw [Script.outcome_bind, Script.outcome_ask, Script.outcome_bind, outcome_rootNames,
    Script.outcome_bind, Script.outcome_forEach, Script.outcome_bind, Script.outcome_forEach]
  simp only [Script.outcome_bind, Script.outcome_pure, packagesOf_entries,
    outcome_includedPackages, ← List.flatMap_def]
  rfl

end Outcome

/-! ## The packages of a project -/

/-- The packages of a project, told by the answers of its store. -/
structure Inventory (answers : Answers) (root : Path) (included : List Path) (skip : List String)
    (found : List Package) : Prop where
  /-- No package is repeated. -/
  nodup : found.Nodup
  /-- The packages are the directories with manifests. -/
  mem_iff : ∀ p, p ∈ found ↔ Manifested answers root included skip p
  /-- They stand in the order of their first places in the sequence. -/
  ordered : found.Pairwise fun p q =>
    (announced answers root included skip).idxOf p < (announced answers root included skip).idxOf q
  /-- Where the root cannot be listed, only its directories are missing. -/
  unlisted : ∀ reason, answers (.list root) = .error reason →
    found = firsts (wholePackage answers root ++ included.flatMap (extraPackages answers root))

/-- **The packages of a project are its directories with manifests, once each and in order.** -/
theorem packages_form_inventory {σ : Type} (responder : Responder σ) (answers : Answers)
    (hgives : responder.Gives answers) (s : σ) (root : Path) (included : List Path)
    (skip : List String) :
    ∃ found, ((packages root included skip).run responder.store s).result = .ok found ∧
      Inventory answers root included skip found := by
  have hfirsts := firstsBy_firsts (announced answers root included skip)
  refine ⟨firsts (announced answers root included skip), ?_, ?_⟩
  · rw [Script.run_of_gives hgives, outcome_packages]
  · constructor
    case nodup => exact hfirsts.distinct
    case mem_iff =>
      intro p
      rw [mem_firsts_iff, mem_announced_iff]
    case ordered => simpa [firstPlace] using hfirsts.ordered
    case unlisted =>
      intro reason hlist
      rw [announced_of_unlisted hlist]

/-- A project of which the root, two directories and an included path hold manifests; one package is
reached by three spellings, and one name is listed twice. -/
def polyglot : Answers
  | .list _ => .ok [".git", "api", "dist", "web", "api", "README.md"]
  | .present path => path.text ∈ ["p/package.json", "p/api/setup.py", "p/api/package.json",
      "p/web/package.json", "p/./api/pyproject.toml", "p/../lib/setup.py", "p/.git/package.json",
      "p/dist/package.json"]
  | .isDir path => path.text ≠ "p/README.md"
  | .walk _ _ => .ok []
  | .read path => .ok path.text
  | .write _ _ => .ok ()

theorem packages_form_inventory_polyglot :
    Inventory polyglot ⟨"p"⟩ [⟨"../lib"⟩, ⟨"./api"⟩, ⟨"."⟩] ["dist"]
      [⟨".", .js⟩, ⟨"api", .js⟩, ⟨"web", .js⟩, ⟨"api", .py⟩, ⟨"../lib", .py⟩] := by
  obtain ⟨found, hrun, hinventory⟩ := packages_form_inventory polyglot.responder polyglot
    polyglot.responder_gives () ⟨"p"⟩ [⟨"../lib"⟩, ⟨"./api"⟩, ⟨"."⟩] ["dist"]
  have hfound : found =
      [⟨".", .js⟩, ⟨"api", .js⟩, ⟨"web", .js⟩, ⟨"api", .py⟩, ⟨"../lib", .py⟩] := by
    cases hrun
    decide
  exact hfound ▸ hinventory

end Discovery

end ProjectOutline
