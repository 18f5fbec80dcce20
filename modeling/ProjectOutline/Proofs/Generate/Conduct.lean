import ProjectOutline.Generate
import ProjectOutline.Proofs.Discovery.Packages

/-!
# How a run treats the store

A run asks its store in two parts. The first finds the root, the configuration, the sources and the
packages; it writes nothing, whatever it is answered (`Script.ReadOnly`), and a failed answer leaves
out what it would have told, as does a text that the parser gives up (`Survey.Told`). The second
part publishes the report, and its exchanges with what comes of them are one of five (`Published`):
nothing is asked in a dry run, and a write can only be the last exchange.

So a run writes at most once, and at its end, and only the configuration can make it fail
(`generate_writes_once_and_survives`).
-/

namespace ProjectOutline

/-- Whether a question changes what is stored. -/
def Call.isWrite : Call → Bool
  | .write _ _ => true
  | _ => false

/-- No exchange is a write. -/
def NoWrite (log : List Exchange) : Prop :=
  ∀ x ∈ log, x.call.isWrite = false

theorem NoWrite.append {log log' : List Exchange} (h : NoWrite log) (h' : NoWrite log') :
    NoWrite (log ++ log') := by
  intro x hx
  rcases List.mem_append.mp hx with hx | hx
  · exact h x hx
  · exact h' x hx

theorem NoWrite.filter_eq_nil {log : List Exchange} (h : NoWrite log) :
    log.filter (·.call.isWrite) = [] :=
  List.filter_eq_nil_iff.mpr fun x hx => Bool.eq_false_iff.mp (h x hx)

/-- A script writes nothing, whatever it is answered. -/
def Script.ReadOnly {α : Type} (script : Script α) : Prop :=
  script.Asks fun c => c.isWrite = false

theorem Script.ReadOnly.exchanges {σ α : Type} {store : Store σ} {script : Script α} {s : σ}
    (h : script.ReadOnly) : NoWrite (script.exchanges store s) :=
  fun _ hx => h.of_mem_exchanges hx

theorem Script.readOnly_ask_bind {α : Type} {c : Call} {f : c.Answer → Script α}
    (hc : c.isWrite = false) (hf : ∀ answer, (f answer).ReadOnly) : (ask c >>= f).ReadOnly := by
  have hask : (ask c).ReadOnly := asks_ask hc
  exact hask.bind hf

/-! ## Parsers -/

namespace Parser

variable {parser : Parser}

theorem allow_of_load (loads : parser.load = .ok ()) (grammar : Grammar) :
    parser.allow grammar = .ok () := by
  rw [load] at loads
  cases hpython : parser.allow .python with
  | error failure =>
    rw [hpython] at loads
    cases loads
  | ok _ =>
    cases htypescript : parser.allow .typescript with
    | error failure =>
      rw [hpython, htypescript] at loads
      cases loads
    | ok _ =>
      rw [hpython, htypescript] at loads
      cases grammar with
      | python => exact hpython
      | typescript => exact htypescript
      | tsx => exact loads

/-- If the grammars load, a text is read with the grammar of its path unless it is given up. -/
theorem parse_of_load (loads : parser.load = .ok ()) {path : Path} {grammar : Grammar}
    (hgrammar : Grammar.ofPath? path = some grammar) (text : String) :
    parser.parse path text =
      match parser.tree? grammar (withLineEnd text) with
      | none => .error (.parse path)
      | some parsed => .ok (grammar.language, parsed) := by
  rw [parse, hgrammar]
  dsimp only
  rw [allow_of_load loads grammar]
  rfl

end Parser

/-! ## What is asked before the report -/

section ReadOnly

open Script (readOnly_ask_bind asks_forEach)

theorem Discovery.firstWithManifest_readOnly (dirs : List Path) :
    (firstWithManifest dirs).ReadOnly := by
  induction dirs with
  | nil => trivial
  | cons dir rest ih =>
    refine readOnly_ask_bind rfl fun found => ?_
    cases found with
    | false => exact ih
    | true => trivial

theorem Discovery.projectRoot_readOnly (start : Path) : (projectRoot start).ReadOnly := by
  refine (firstWithManifest_readOnly _).bind fun found => ?_
  cases found with
  | none => trivial
  | some dir => trivial

theorem Config.load_readOnly (root : Path) : (Config.load root).ReadOnly := by
  refine readOnly_ask_bind rfl fun found => ?_
  cases found with
  | false => trivial
  | true =>
    refine readOnly_ask_bind rfl fun answer => ?_
    cases answer with
    | error reason => trivial
    | ok text =>
      dsimp only
      split
      · trivial
      · trivial

theorem Discovery.sources_readOnly (root : Path) (included : List Path) (skip : List String) :
    (sources root included skip).ReadOnly := by
  refine (asks_forEach (fun scan => ?_) _).bind fun found => trivial
  refine readOnly_ask_bind rfl fun isDir => ?_
  cases isDir with
  | false => trivial
  | true =>
    refine readOnly_ask_bind rfl fun answer => ?_
    cases answer with
    | error reason => trivial
    | ok files => trivial

theorem SourceOutline.load_readOnly (parser : Parser) (path : Path) :
    (load parser path).ReadOnly := by
  rw [load]
  split
  · trivial
  · refine readOnly_ask_bind rfl fun answer => ?_
    cases answer with
    | error reason => trivial
    | ok text =>
      dsimp only
      split
      · trivial
      · split
        · trivial
        · trivial

theorem Generate.outline_readOnly (parser : Parser) (source : Discovery.SourcePath) :
    (outline parser source).ReadOnly := by
  refine (SourceOutline.load_readOnly _ _).bind fun found => ?_
  cases found with
  | error failure => trivial
  | ok found => trivial

theorem Discovery.holdsAny_readOnly (dir : Path) (manifests : List Path) :
    (holdsAny dir manifests).ReadOnly := by
  induction manifests with
  | nil => trivial
  | cons manifest rest ih =>
    refine readOnly_ask_bind rfl fun found => ?_
    cases found with
    | false => exact ih
    | true => trivial

theorem Discovery.manifestKinds_readOnly (dir : Path) : (manifestKinds dir).ReadOnly :=
  readOnly_ask_bind rfl fun _ => (holdsAny_readOnly _ _).bind fun _ => trivial

theorem Discovery.entryKinds_readOnly (root : Path) (skip : List String) (name : String) :
    (entryKinds root skip name).ReadOnly := by
  rw [entryKinds]
  split
  · trivial
  · refine readOnly_ask_bind rfl fun isDir => ?_
    cases isDir with
    | false => trivial
    | true => exact (manifestKinds_readOnly _).bind fun _ => trivial

theorem Discovery.includedPackages_readOnly (root extra : Path) :
    (includedPackages root extra).ReadOnly := by
  refine readOnly_ask_bind rfl fun isDir => ?_
  cases isDir with
  | false => trivial
  | true => exact (manifestKinds_readOnly _).bind fun _ => trivial

theorem Discovery.rootNames_readOnly (root : Path) : (rootNames root).ReadOnly := by
  refine readOnly_ask_bind rfl fun answer => ?_
  cases answer with
  | error reason => trivial
  | ok names => trivial

theorem Discovery.packages_readOnly (root : Path) (included : List Path) (skip : List String) :
    (packages root included skip).ReadOnly := by
  refine readOnly_ask_bind rfl fun whole => (rootNames_readOnly root).bind fun names => ?_
  refine (asks_forEach (entryKinds_readOnly root skip) names).bind fun entries => ?_
  exact (asks_forEach (includedPackages_readOnly root) included).bind fun extras => trivial

end ReadOnly

namespace Generate

open Discovery (ScanRoot SourcePath scanRoots gather Searched Listing PackagesTold)

/-! ## What a run knows before the report -/

/-- What becomes of a source: the declarations that its text parses to, or no entry if it cannot be
read or the parser gives its text up. -/
inductive Outlined (parser : Parser) (log : List Exchange) (source : SourcePath) :
    Option SourceFile → Prop where
  | parsed {grammar : Grammar} {text : String} {found : Parsed}
      (hgrammar : Grammar.ofPath? source.path = some grammar)
      (hread : ⟨.read source.path, .ok text⟩ ∈ log)
      (htree : parser.tree? grammar (Parser.withLineEnd text) = some found) :
      Outlined parser log source (some ⟨source.display, grammar.language,
        Outline.extract grammar.language found.root⟩)
  | unparsed {grammar : Grammar} {text : String}
      (hgrammar : Grammar.ofPath? source.path = some grammar)
      (hread : ⟨.read source.path, .ok text⟩ ∈ log)
      (htree : parser.tree? grammar (Parser.withLineEnd text) = none) :
      Outlined parser log source none
  | unreadable (reason : String) (hread : ⟨.read source.path, .error reason⟩ ∈ log) :
      Outlined parser log source none

/-- What a run gathers for its report. -/
structure Survey where
  /-- The files in the directories to scan. -/
  found : List (ScanRoot × List Path)
  /-- What becomes of the sources among them. -/
  outlined : List (Option SourceFile)
  /-- The names in the root. -/
  names : List String
  packages : List Package

/-- A survey is what the store told and the parser made of it: each failed answer leaves out what it
would have told, each text that is given up its own entry, and nothing else is left out. -/
structure Survey.Told (parser : Parser) (log : List Exchange) (root : Path) (config : Config)
    (survey : Survey) : Prop where
  searched : List.Forall₂ (Searched log config.skip) (scanRoots root config.included) survey.found
  outlined : List.Forall₂ (Outlined parser log) (gather survey.found) survey.outlined
  listed : Listing log root survey.names
  packages : PackagesTold log root config.included config.skip survey.names survey.packages

/-- The report of a survey. -/
def Survey.report (survey : Survey) : Report :=
  Report.build (survey.outlined.filterMap id) survey.packages

/-- The summary of a run with a survey, once the document has its status. -/
def Survey.summary (survey : Survey) (root : Path) (config : Config) (status : DocumentStatus) :
    Summary where
  projectRoot := root
  document := root.join config.output
  packages := survey.report.packages.length
  filesScanned := (gather survey.found).length
  filesReported := survey.report.fileCount
  generated := survey.report.render
  status := status

section Survey

variable {σ : Type} {store : Store σ} {s : σ} {log : List Exchange} {parser : Parser}

theorem outlined_of_run_outline (loads : parser.load = .ok ()) {source : SourcePath}
    {grammar : Grammar} {found : Option SourceFile}
    (hgrammar : Grammar.ofPath? source.path = some grammar)
    (h : ((outline parser source).run store s).result = .ok found)
    (hlog : (outline parser source).exchanges store s ⊆ log) :
    Outlined parser log source found := by
  rw [outline, SourceOutline.load, hgrammar] at h hlog
  obtain ⟨loaded, after, hloaded, hlog, h, -⟩ := Script.run_bind_within h hlog
  obtain ⟨answer, after', hread, hloaded, -⟩ := Script.run_ask_within hloaded hlog
  cases answer with
  | error reason =>
    cases hloaded
    cases h
    exact .unreadable reason hread
  | ok text =>
    simp only [Parser.parse_of_load loads hgrammar] at hloaded
    cases htree : parser.tree? grammar (Parser.withLineEnd text) with
    | none =>
      rw [htree] at hloaded
      cases hloaded
      cases h
      exact .unparsed hgrammar hread htree
    | some parsed =>
      -- A file with syntax errors is noted, and its outline is what was parsed.
      rw [htree] at hloaded
      dsimp only at hloaded
      split at hloaded
      · cases hloaded
        cases h
        exact .parsed hgrammar hread htree
      · cases hloaded
        cases h
        exact .parsed hgrammar hread htree

theorem outlined_of_run_forEach (loads : parser.load = .ok ())
    {found : List (ScanRoot × List Path)} {outlined : List (Option SourceFile)}
    (h : ((Script.forEach (outline parser) (gather found)).run store s).result = .ok outlined)
    (hlog : (Script.forEach (outline parser) (gather found)).exchanges store s ⊆ log) :
    List.Forall₂ (Outlined parser log) (gather found) outlined := by
  refine Script.forall₂_of_run_forEach h hlog fun source hsource file before hrun hasked => ?_
  obtain ⟨grammar, hgrammar⟩ := Discovery.exists_grammar_of_mem_gather hsource
  exact outlined_of_run_outline loads hgrammar hrun hasked

/-- The three parts of a survey, put together. -/
theorem exists_survey {root : Path} {config : Config} {s₁ s₂ : σ} {sources : List SourcePath}
    {outlined : List (Option SourceFile)} {packages : List Package} (log : List Exchange)
    (hsources : ((Discovery.sources root config.included config.skip).run store s).result =
      .ok sources)
    (loads : parser.load = .ok ())
    (houtlined : ((Script.forEach (outline parser) sources).run store s₁).result = .ok outlined)
    (hpackages : ((Discovery.packages root config.included config.skip).run store s₂).result =
      .ok packages)
    (hscanned : (Discovery.sources root config.included config.skip).exchanges store s ⊆ log)
    (hread : (Script.forEach (outline parser) sources).exchanges store s₁ ⊆ log)
    (hlisted : (Discovery.packages root config.included config.skip).exchanges store s₂ ⊆ log) :
    ∃ survey, Survey.Told parser log root config survey ∧ gather survey.found = sources ∧
      survey.outlined = outlined ∧ survey.packages = packages := by
  obtain ⟨found, rfl, hfound⟩ := Discovery.searched_of_run_sources hsources hscanned
  obtain ⟨names, hnames, htold⟩ := Discovery.told_of_run_packages hpackages hlisted
  exact ⟨⟨found, outlined, names, packages⟩,
    ⟨hfound, outlined_of_run_forEach loads houtlined hread, hnames, htold⟩, rfl, rfl, rfl⟩

end Survey

/-! ## How the report is published -/

/-- The exchanges that tell the stored text of a document. -/
def loading (document : Path) : Option String → List Exchange
  | none => [⟨.present document, false⟩]
  | some text => [⟨.present document, true⟩, ⟨.read document, .ok text⟩]

/-- The exchanges that tell of a document that it is there and cannot be read. -/
def refusing (document : Path) (reason : String) : List Exchange :=
  [⟨.present document, true⟩, ⟨.read document, .error reason⟩]

/-- The exchange that stores a text in a document. -/
def storing (document : Path) (text : String) (answer : Except String Unit) : Exchange :=
  ⟨.write document text, answer⟩

/-- What publishing asks, and what becomes of the document: it is not touched in a dry run, nor if
it cannot be read or has the region already; else it is written, and that may fail. -/
inductive Published (document : Path) (generated : String) (config : Config) :
    Bool → List Exchange → DocumentStatus → Prop where
  | printed : Published document generated config true [] .dryRun
  | unreadable (reason : String) : Published document generated config false
      (refusing document reason) (.failed (Failure.read document reason).message)
  | kept (existing : Option String)
      (hchanged : (Document.patch existing generated config.markers config.scaffold).changed =
        false) :
      Published document generated config false (loading document existing) .unchanged
  | written (existing : Option String)
      (hchanged : (Document.patch existing generated config.markers config.scaffold).changed =
        true) :
      Published document generated config false
        (loading document existing ++ [storing document
          (Document.patch existing generated config.markers config.scaffold).text (.ok ())])
        .updated
  | unwritable (existing : Option String) (reason : String)
      (hchanged : (Document.patch existing generated config.markers config.scaffold).changed =
        true) :
      Published document generated config false
        (loading document existing ++ [storing document
          (Document.patch existing generated config.markers config.scaffold).text (.error reason)])
        (.failed (Failure.write document reason).message)

section Publish

variable {σ : Type} {store : Store σ} {s : σ} {document : Path} {generated : String}
  {config : Config}

theorem run_load_document {loaded : Except Failure (Option String)}
    (h : ((DocumentFile.load document).run store s).result = .ok loaded) :
    (∃ existing, loaded = .ok existing ∧
      (DocumentFile.load document).exchanges store s = loading document existing) ∨
    ∃ reason, loaded = .error (.read document reason) ∧
      (DocumentFile.load document).exchanges store s = refusing document reason := by
  rw [DocumentFile.load] at h ⊢
  obtain ⟨found, hfound, h, hlog⟩ := Script.run_bind_ok _ _ h
  rw [hlog, Script.exchanges_ask hfound]
  cases found with
  | false =>
    cases h
    exact Or.inl ⟨none, rfl, rfl⟩
  | true =>
    obtain ⟨answer, hanswer, h, hlog'⟩ := Script.run_bind_ok _ _ h
    rw [if_pos rfl, hlog', Script.exchanges_ask hanswer]
    cases answer with
    | error reason =>
      cases h
      exact Or.inr ⟨reason, rfl, rfl⟩
    | ok text =>
      cases h
      exact Or.inl ⟨some text, rfl, rfl⟩

theorem run_save_document {outcome : Document.Outcome} {saved : Except Failure Document.Outcome}
    (h : ((DocumentFile.save document outcome).run store s).result = .ok saved) :
    (outcome.changed = false ∧ saved = .ok outcome ∧
      (DocumentFile.save document outcome).exchanges store s = []) ∨
    (outcome.changed = true ∧ saved = .ok outcome ∧
      (DocumentFile.save document outcome).exchanges store s =
        [storing document outcome.text (.ok ())]) ∨
    ∃ reason, outcome.changed = true ∧ saved = .error (.write document reason) ∧
      (DocumentFile.save document outcome).exchanges store s =
        [storing document outcome.text (.error reason)] := by
  rw [DocumentFile.save] at h ⊢
  by_cases hchanged : outcome.changed = true
  · rw [if_pos hchanged] at h ⊢
    obtain ⟨answer, hanswer, h, hlog⟩ := Script.run_bind_ok _ _ h
    rw [hlog, Script.exchanges_ask hanswer]
    cases answer with
    | error reason =>
      cases h
      exact Or.inr (Or.inr ⟨reason, hchanged, rfl, rfl⟩)
    | ok _ =>
      cases h
      exact Or.inr (Or.inl ⟨hchanged, rfl, rfl⟩)
  · rw [if_neg hchanged] at h ⊢
    cases h
    exact Or.inl ⟨Bool.eq_false_iff.mpr hchanged, rfl, rfl⟩

theorem run_update_document {updated : Except Failure Document.Outcome}
    (h : ((DocumentFile.update document generated config).run store s).result = .ok updated) :
    (∃ reason, updated = .error (.read document reason) ∧
      (DocumentFile.update document generated config).exchanges store s =
        refusing document reason) ∨
    ∃ existing before, ((DocumentFile.save document
        (Document.patch existing generated config.markers config.scaffold)).run store before).result
          = .ok updated ∧
      (DocumentFile.update document generated config).exchanges store s =
        loading document existing ++ (DocumentFile.save document
          (Document.patch existing generated config.markers config.scaffold)).exchanges store
            before := by
  rw [DocumentFile.update] at h ⊢
  obtain ⟨loaded, hloaded, h, hlog⟩ := Script.run_bind_ok _ _ h
  rw [hlog]
  rcases run_load_document hloaded with ⟨existing, rfl, hloading⟩ | ⟨reason, rfl, hrefusing⟩
  · rw [hloading]
    refine Or.inr ⟨existing, ((DocumentFile.load document).run store s).state, ?_⟩
    dsimp only at h ⊢
    -- The region may be told to be missing, which asks nothing.
    by_cases hmissing :
        (config.markers.locate (existing.getD config.scaffold).toList).isNone = true
    · rw [if_pos hmissing] at h ⊢
      exact ⟨h, rfl⟩
    · rw [if_neg hmissing] at h ⊢
      exact ⟨h, rfl⟩
  · cases h
    rw [hrefusing]
    exact Or.inl ⟨reason, rfl, List.append_nil _⟩

theorem published_of_run_publish {dryRun : Bool} {status : DocumentStatus}
    (h : ((publish document generated config dryRun).run store s).result = .ok status) :
    Published document generated config dryRun
      ((publish document generated config dryRun).exchanges store s) status := by
  rw [publish] at h
  cases dryRun with
  | true =>
    cases h
    exact .printed
  | false =>
    rw [if_neg Bool.false_ne_true] at h
    obtain ⟨updated, hupdated, h, hlog⟩ := Script.run_bind_ok _ _ h
    have hasked : (publish document generated config false).exchanges store s =
        (DocumentFile.update document generated config).exchanges store s := by
      rw [publish, if_neg Bool.false_ne_true, hlog]
      cases updated with
      | error failure => exact List.append_nil _
      | ok outcome => exact List.append_nil _
    rw [hasked]
    rcases run_update_document hupdated with
      ⟨reason, rfl, hrefusing⟩ | ⟨existing, before, hsave, hlog'⟩
    · cases h
      rw [hrefusing]
      exact .unreadable reason
    · rw [hlog']
      rcases run_save_document hsave with
        ⟨hchanged, rfl, hsaved⟩ | ⟨hchanged, rfl, hsaved⟩ | ⟨reason, hchanged, rfl, hsaved⟩
      · cases h
        rw [hsaved, List.append_nil, hchanged]
        exact .kept existing hchanged
      · cases h
        rw [hsaved, hchanged]
        exact .written existing hchanged
      · cases h
        rw [hsaved]
        exact .unwritable existing reason hchanged

end Publish

/-! ## A whole run -/

/-- No exchange is a write, but perhaps the last one, which is a write to a document. -/
inductive WritesAtEnd (document : Path) : List Exchange → Prop where
  | none {log : List Exchange} (h : NoWrite log) : WritesAtEnd document log
  | one {log : List Exchange} (text : String) (answer : Except String Unit) (h : NoWrite log) :
      WritesAtEnd document (log ++ [storing document text answer])

section Write

variable {document : Path} {log : List Exchange}

theorem noWrite_loading (document : Path) (existing : Option String) :
    NoWrite (loading document existing) := by
  cases existing with
  | none => simp [loading, NoWrite, Call.isWrite]
  | some text => simp [loading, NoWrite, Call.isWrite]

theorem noWrite_refusing (document : Path) (reason : String) :
    NoWrite (refusing document reason) := by
  simp [refusing, NoWrite, Call.isWrite]

theorem not_refusing_prefix_loading {existing : Option String} {reason : String}
    (rest : List Exchange) :
    ¬ refusing document reason <+: loading document existing ++ rest := by
  rintro ⟨tail, htail⟩
  cases existing with
  | none => simp [refusing, loading] at htail
  | some text => simp [refusing, loading] at htail

theorem Published.writesAtEnd {generated : String} {config : Config} {dryRun : Bool}
    {status : DocumentStatus} (h : Published document generated config dryRun log status) :
    WritesAtEnd document log := by
  cases h with
  | printed => exact .none fun x hx => nomatch hx
  | unreadable reason => exact .none (noWrite_refusing _ _)
  | kept existing hchanged => exact .none (noWrite_loading _ _)
  | written existing hchanged => exact .one _ _ (noWrite_loading _ _)
  | unwritable existing reason hchanged => exact .one _ _ (noWrite_loading _ _)

theorem Published.noWrite_of_dryRun {generated : String} {config : Config}
    {status : DocumentStatus} (h : Published document generated config true log status) :
    NoWrite log := by
  cases h with
  | printed => exact fun x hx => nomatch hx

/-- A document that is there and cannot be read is not written. -/
theorem Published.noWrite_of_refusing {generated : String} {config : Config} {dryRun : Bool}
    {status : DocumentStatus} {reason : String}
    (h : Published document generated config dryRun log status)
    (hrefusing : refusing document reason <+: log) : NoWrite log := by
  cases h with
  | printed => exact fun x hx => nomatch hx
  | unreadable reason' => exact noWrite_refusing _ _
  | kept existing hchanged => exact noWrite_loading _ _
  | written existing hchanged => exact absurd hrefusing (not_refusing_prefix_loading _)
  | unwritable existing reason' hchanged => exact absurd hrefusing (not_refusing_prefix_loading _)

theorem WritesAtEnd.append {early : List Exchange} (h : WritesAtEnd document log)
    (hearly : NoWrite early) : WritesAtEnd document (early ++ log) := by
  cases h with
  | none h => exact .none (hearly.append h)
  | one text answer h =>
    rw [← List.append_assoc]
    exact .one text answer (hearly.append h)

theorem WritesAtEnd.once (h : WritesAtEnd document log) :
    (log.filter (·.call.isWrite)).length ≤ 1 := by
  cases h with
  | none h =>
    rw [h.filter_eq_nil]
    exact Nat.zero_le 1
  | one text answer h =>
    rw [List.filter_append, h.filter_eq_nil]
    exact Nat.le_refl 1

theorem WritesAtEnd.last {x : Exchange} (h : WritesAtEnd document log) (hx : x ∈ log)
    (hwrite : x.call.isWrite = true) :
    log.getLast? = some x ∧ ∃ text, x.call = .write document text := by
  cases h with
  | none h =>
    rw [h x hx] at hwrite
    cases hwrite
  | one text answer h =>
    rcases List.mem_append.mp hx with hx | hx
    · rw [h x hx] at hwrite
      cases hwrite
    · obtain rfl := List.mem_singleton.mp hx
      exact ⟨List.getLast?_concat, text, rfl⟩

end Write

@[simp]
theorem exchanges_logOmissions {σ : Type} (store : Store σ) (omissions : List Report.Omission)
    (s : σ) : (logOmissions omissions).exchanges store s = [] := by
  induction omissions with
  | nil => rfl
  | cons o rest ih => exact ih

/-- A scan surveys the project without writing, and then publishes the report of the survey. -/
theorem told_of_run_scan {σ : Type} {store : Store σ} {s : σ} {parser : Parser} {root : Path}
    {config : Config} {dryRun : Bool} {summary : Summary} (loads : parser.load = .ok ())
    (front : List Exchange)
    (h : ((scan parser root config dryRun).run store s).result = .ok summary) :
    ∃ early late survey status,
      (scan parser root config dryRun).exchanges store s = early ++ late ∧
      NoWrite early ∧ Survey.Told parser (front ++ early) root config survey ∧
      Published (root.join config.output) survey.report.render config dryRun late status ∧
      summary = survey.summary root config status := by
  rw [scan] at h ⊢
  obtain ⟨sources, hsources, h, hscanned⟩ := Script.run_bind_ok _ _ h
  generalize ((Discovery.sources root config.included config.skip).run store s).state = s₁
    at h hscanned
  obtain ⟨outlined, houtlined, h, hread⟩ := Script.run_bind_ok _ _ h
  generalize ((Script.forEach (outline parser) sources).run store s₁).state = s₂ at h hread
  obtain ⟨packages, hpackages, h, hlisted⟩ := Script.run_bind_ok _ _ h
  obtain ⟨_, -, h, homitted⟩ := Script.run_bind_ok _ _ h
  obtain ⟨status, hstatus, h, hpublished⟩ := Script.run_bind_ok _ _ h
  cases h
  rw [hscanned, hread, hlisted, homitted, hpublished]
  -- The survey may rest on all that was asked before the report, in front of the scan as well.
  obtain ⟨survey, htold, rfl, rfl, rfl⟩ := exists_survey
    (front ++ ((Discovery.sources root config.included config.skip).exchanges store s ++
      ((Script.forEach (outline parser) sources).exchanges store s₁ ++
        (Discovery.packages root config.included config.skip).exchanges store s₂)))
    hsources loads houtlined hpackages (fun x hx => by simp [hx]) (fun x hx => by simp [hx])
    (fun x hx => by simp [hx])
  refine ⟨_, _, survey, status, ?_, ?_, htold, published_of_run_publish hstatus, rfl⟩
  · simp only [exchanges_logOmissions, Script.exchanges_pure, List.nil_append, List.append_nil,
      List.append_assoc]
    rfl
  · exact (Discovery.sources_readOnly _ _ _).exchanges.append
      ((Script.ReadOnly.exchanges (Script.asks_forEach (outline_readOnly parser) _)).append
        (Discovery.packages_readOnly _ _ _).exchanges)

/-- How a run treats the store: `early` are its exchanges before the report, `late` those about the
document. -/
structure Conducted (parser : Parser) (options : Options) (root : Path)
    (loaded : Except Failure Config) (early late : List Exchange)
    (outcome : Except Failure Summary) : Prop where
  /-- The run fails exactly as the configuration does. -/
  fails_iff : ∀ failure, outcome = .error failure ↔ loaded = .error failure
  /-- There is at most one write. -/
  once : ((early ++ late).filter (·.call.isWrite)).length ≤ 1
  /-- A write is the last exchange, and goes to the document. -/
  last : ∀ x ∈ early ++ late, x.call.isWrite = true →
    (early ++ late).getLast? = some x ∧ ∃ config text, loaded = .ok config ∧
      x.call = .write (root.join (options.output.getD config.output)) text
  /-- A dry run does not write. -/
  dry : options.dryRun = true → NoWrite (early ++ late)
  /-- Nor does a run that fails. -/
  unconfigured : ∀ failure, loaded = .error failure → NoWrite (early ++ late)
  /-- Nor does a run that finds its document and cannot read it. -/
  unreadable : ∀ config reason, loaded = .ok config →
    refusing (root.join (options.output.getD config.output)) reason <+: late →
      NoWrite (early ++ late)
  /-- With a configuration the run comes to a summary. What other answers failed and what could not
  be parsed is left out of its report, or is the status of the document. -/
  survives : ∀ config, loaded = .ok config → ∃ survey status,
    Survey.Told parser early root (configured config options) survey ∧
    Published (root.join (options.output.getD config.output)) survey.report.render
      (configured config options) options.dryRun late status ∧
    outcome = .ok (survey.summary root (configured config options) status)

section Conducted

variable {parser : Parser} {options : Options} {root : Path} {early late : List Exchange}

theorem conducted_of_failed {failure : Failure} (hearly : NoWrite early) :
    Conducted parser options root (.error failure) early [] (.error failure) := by
  have hnone : NoWrite (early ++ []) := by rwa [List.append_nil]
  constructor
  case fails_iff =>
    intro other
    rw [Except.error.injEq, Except.error.injEq]
  case once =>
    rw [hnone.filter_eq_nil]
    exact Nat.zero_le 1
  case last =>
    intro x hx hwrite
    rw [hnone x hx] at hwrite
    cases hwrite
  case dry => exact fun _ => hnone
  case unconfigured => exact fun _ _ => hnone
  case unreadable => exact fun _ _ hloaded => nomatch hloaded
  case survives => exact fun _ hloaded => nomatch hloaded

theorem conducted_of_published {config : Config} {survey : Survey} {status : DocumentStatus}
    (hearly : NoWrite early) (htold : survey.Told parser early root (configured config options))
    (hpublished : Published (root.join (options.output.getD config.output)) survey.report.render
      (configured config options) options.dryRun late status) :
    Conducted parser options root (.ok config) early late
      (.ok (survey.summary root (configured config options) status)) := by
  have hend := hpublished.writesAtEnd.append hearly
  constructor
  case fails_iff =>
    intro failure
    simp
  case once => exact hend.once
  case last =>
    intro x hx hwrite
    obtain ⟨hlast, text, hcall⟩ := hend.last hx hwrite
    exact ⟨hlast, config, text, rfl, hcall⟩
  case dry =>
    intro hdry
    rw [hdry] at hpublished
    exact hearly.append hpublished.noWrite_of_dryRun
  case unconfigured => exact fun _ hloaded => nomatch hloaded
  case unreadable =>
    rintro _ reason ⟨⟩ hrefusing
    exact hearly.append (hpublished.noWrite_of_refusing hrefusing)
  case survives =>
    rintro _ ⟨⟩
    exact ⟨survey, status, htold, hpublished, rfl⟩

end Conducted

/-- A run finds its root and its configuration without writing. It ends there if the configuration
fails, and else goes on with a scan. -/
theorem run_generate_ok {σ : Type} {store : Store σ} {s : σ} {parser : Parser} {start : Path}
    {options : Options} {outcome : Except Failure Summary} (loads : parser.load = .ok ())
    (h : ((generate parser start options).run store s).result = .ok outcome) :
    ∃ root loaded front,
      ((Discovery.projectRoot start).run store s).result = .ok root ∧
      ((Config.load root).run store ((Discovery.projectRoot start).run store s).state).result =
        .ok loaded ∧
      NoWrite front ∧
      ((∃ failure, loaded = .error failure ∧ outcome = .error failure ∧
          (generate parser start options).exchanges store s = front) ∨
        ∃ config summary before, loaded = .ok config ∧ outcome = .ok summary ∧
          ((scan parser root (configured config options) options.dryRun).run store
            before).result = .ok summary ∧
          (generate parser start options).exchanges store s =
            front ++ (scan parser root (configured config options) options.dryRun).exchanges
              store before) := by
  rw [generate, loads] at h ⊢
  obtain ⟨_, -, h, hgrammars⟩ := Script.run_bind_ok _ _ h
  obtain ⟨root, hroot, h, hsearched⟩ := Script.run_bind_ok _ _ h
  obtain ⟨_, -, h, hnoted⟩ := Script.run_bind_ok _ _ h
  obtain ⟨loaded, hloaded, h, hconfigured⟩ := Script.run_bind_ok _ _ h
  rw [hgrammars, hsearched, hnoted, hconfigured]
  refine ⟨root, loaded, (Discovery.projectRoot start).exchanges store s ++
    (Config.load root).exchanges store ((Discovery.projectRoot start).run store s).state, hroot,
    hloaded, (Discovery.projectRoot_readOnly start).exchanges.append
      (Config.load_readOnly root).exchanges, ?_⟩
  cases loaded with
  | error failure =>
    cases h
    refine Or.inl ⟨failure, rfl, rfl, ?_⟩
    simp only [Script.exchanges_log, Script.exchanges_pure, List.nil_append, List.append_nil]
    rfl
  | ok config =>
    obtain ⟨summary, hsummary, h, hscan⟩ := Script.run_bind_ok _ _ h
    cases h
    refine Or.inr ⟨config, summary, _, rfl, rfl, hsummary, ?_⟩
    dsimp only
    rw [hscan]
    simp only [Script.exchanges_log, Script.exchanges_pure, List.nil_append, List.append_nil,
      List.append_assoc]
    rfl

/-- **A run writes once at most, and survives what fails.** On every store that answers, and with
every parser whose grammars load, a run comes to an outcome. It fails exactly as its configuration
does; else it reports what the store told and the parser did not give up, and what became of the
document. It writes at most once, at its end and to the document, and not in a dry run, nor without
a configuration, nor over a document that it cannot read. -/
theorem generate_writes_once_and_survives {σ : Type} (responder : Responder σ) (s : σ)
    (parser : Parser) (loads : parser.load = .ok ()) (start : Path) (options : Options) :
    ∃ root loaded outcome early late,
      ((Discovery.projectRoot start).run responder.store s).result = .ok root ∧
      ((Config.load root).run responder.store
        ((Discovery.projectRoot start).run responder.store s).state).result = .ok loaded ∧
      ((generate parser start options).run responder.store s).result = .ok outcome ∧
      (generate parser start options).exchanges responder.store s = early ++ late ∧
      Conducted parser options root loaded early late outcome := by
  obtain ⟨outcome, houtcome⟩ :=
    Script.run_responder_ok responder (generate parser start options) s
  obtain ⟨root, loaded, front, hroot, hloaded, hfront, hrest⟩ := run_generate_ok loads houtcome
  rcases hrest with ⟨failure, rfl, rfl, hlog⟩ | ⟨config, summary, before, rfl, rfl, hscan, hlog⟩
  · exact ⟨root, _, _, front, [], hroot, hloaded, houtcome, hlog.trans (List.append_nil _).symm,
      conducted_of_failed hfront⟩
  · obtain ⟨early, late, survey, status, hscanned, hearly, htold, hpublished, rfl⟩ :=
      told_of_run_scan loads front hscan
    refine ⟨root, _, _, front ++ early, late, hroot, hloaded, houtcome, ?_,
      conducted_of_published (hfront.append hearly) htold hpublished⟩
    rw [hlog, hscanned, List.append_assoc]

/-- A parser that gives up an open quote, and reads every other text as a function of that name. -/
def picky : Parser where
  refusal? _ := none
  tree? _ text :=
    if text = "'\n" then none
    else
      let name := SyntaxTree.node "identifier" (some text) true [] []
      some ⟨.node "module" none true []
        [.node "function_definition" none true [("name", 0)] [name]], false⟩

/-- A store with three sources, of which one cannot be read. Nothing can be listed or written. -/
def frail : Responder Unit
  | .read ⟨"p/b.py"⟩, s => (.error "denied", s)
  | .read ⟨"p/c.py"⟩, s => (.ok "'", s)
  | .read _, s => (.ok "f", s)
  | .write _ _, s => (.error "full", s)
  | .present path, s => (path.text ∈ ["p/package.json", "p/MAP.md"], s)
  | .isDir path, s => (path.text = "p", s)
  | .list _, s => (.error "denied", s)
  | .walk _ _, s => (.ok [⟨"p/a.py"⟩, ⟨"p/b.py"⟩, ⟨"p/c.py"⟩], s)

def frailOptions : Options := ⟨[], some ⟨"MAP.md"⟩, false⟩

def frailSummary : Summary where
  projectRoot := ⟨"p"⟩
  document := ⟨"p/MAP.md"⟩
  packages := 1
  filesScanned := 3
  filesReported := 1
  generated := "## Package (js): `.`\n\n- a.py\n  - f\n\n"
  status := .failed "failed to write p/MAP.md: full"

/-- Of the three sources the one that is read and parsed is reported. The write is the last
question, and that it fails is told in the summary. -/
theorem generate_writes_once_and_survives_frail :
    picky.load = .ok () ∧
      ((generate picky ⟨"p"⟩ frailOptions).run frail.store ()).result = .ok (.ok frailSummary) ∧
      ∃ root loaded early late,
        (generate picky ⟨"p"⟩ frailOptions).exchanges frail.store () = early ++ late ∧
        Conducted picky frailOptions root loaded early late (.ok frailSummary) ∧
        (early ++ late).getLast?.map Exchange.call = some (.write ⟨"p/MAP.md"⟩
          ("f\n\n<!-- BEGIN GENERATED CONTENT -->\n## Package (js): `.`\n\n- a.py\n  - f\n\n" ++
            "<!-- END GENERATED CONTENT -->\n")) := by
  have hloads : picky.load = .ok () := rfl
  have hresult : ((generate picky ⟨"p"⟩ frailOptions).run frail.store ()).result =
      .ok (.ok frailSummary) := by decide +kernel
  obtain ⟨root, loaded, outcome, early, late, -, -, houtcome, hlog, hconducted⟩ :=
    generate_writes_once_and_survives frail () picky hloads ⟨"p"⟩ frailOptions
  obtain rfl : outcome = .ok frailSummary := Except.ok.inj (houtcome.symm.trans hresult)
  refine ⟨hloads, hresult, root, loaded, early, late, hlog, hconducted, ?_⟩
  rw [← hlog]
  decide +kernel

end Generate

end ProjectOutline
