import ProjectOutline.Proofs.FileTree.Standing

/-!
# What a write changes in a tree of files

A path that leads somewhere leads there as long as the directories and links stay (`Keeps`,
`resolve_of_keeps`). A change is described by the locations at which something else stands after it;
elsewhere nothing is taken away, and what is new are directories, each of which one of some paths
leads to (`Grows`). Making a directory puts one where nothing stood, and the path leads to it
(`makeDirectory_grows`); storing bytes puts a file where a file or nothing stood
(`storeBytes_puts`).

A write is made of such steps: one that comes to its end changes one file (`writeBytes_written`),
and one that is refused on its way leaves no more than new directories (`writeBytes_refused`). In
both cases these are directories that a path above the written one leads to.
-/

namespace ProjectOutline

namespace FileTree

variable {items inner : List Item} {location names : Location} {name : Name} {t t' : FileTree}

/-! ## Walks in a tree that keeps what is there -/

/-- Every directory and every link of the first tree stands in the second, and where there is a file
there is still one. No link is new. -/
structure Keeps (before after : FileTree) : Prop where
  here : after.here = before.here
  directory : ∀ location, standing? before.items location = some .directory →
    standing? after.items location = some .directory
  link : ∀ location goal, standing? before.items location = some (.link goal) →
    standing? after.items location = some (.link goal)
  file : ∀ location old, standing? before.items location = some (.file old) →
    ∃ new, standing? after.items location = some (.file new)
  linked : ∀ location goal, standing? after.items location = some (.link goal) →
    standing? before.items location = some (.link goal)

/-- Where a walk leads in a tree that may have got a directory or a file where it found nothing. -/
def Target.revisited (items : List Item) : Target → Target
  | .absent parent name =>
    match standing? items (parent ++ [name]) with
    | some .directory => .directory (parent ++ [name])
    | some (.file _) => .file (parent ++ [name])
    | _ => .absent parent name
  | target => target

section Walks

variable {follow : Bool} {links : Nat} {target : Target}

theorem walkSegments_of_keeps (hkeeps : Keeps t t')
    (hlocation : standing? t.items location = some .directory)
    (h : walkSegments t.items follow links location names = .ok target) :
    walkSegments t'.items follow links location names = .ok (target.revisited t'.items) := by
  -- On its way a walk depends on directories and links, and these are kept.
  fun_induction walkSegments t.items follow links location names with
  | case1 =>
    cases h
    rw [walkSegments]
    rfl
  | case2 _ _ _ ih =>
    rw [walkSegments, if_pos rfl]
    exact ih hlocation h
  | case3 _ _ _ hdot ih =>
    rw [walkSegments, if_neg hdot, if_pos rfl]
    exact ih (standing?_dropLast hlocation) h
  | case5 _ location name hdot hdotDot hlength hfind =>
    cases h
    have hnone : standing? t.items (location ++ [name]) = none :=
      standing?_concat hlocation hfind
    rw [walkSegments_cons (hkeeps.directory _ hlocation) hdot hdotDot hlength, Target.revisited]
    rcases hafter : standing? t'.items (location ++ [name]) with _ | _ | _ | goal
    · rfl
    · rfl
    · exact walkSegments.eq_1 ..
    · rw [hkeeps.linked _ _ hafter] at hnone
      cases hnone
  | case7 _ location name _ hdot hdotDot hlength _ _ hfind ih =>
    have hstands : standing? t.items (location ++ [name]) = some .directory :=
      standing?_concat hlocation hfind
    rw [walkSegments_cons (hkeeps.directory _ hlocation) hdot hdotDot hlength,
      hkeeps.directory _ hstands]
    exact ih hstands h
  | case8 _ location name hdot hdotDot hlength _ old hfind =>
    cases h
    have hstands : standing? t.items (location ++ [name]) = some (.file old) :=
      standing?_concat hlocation hfind
    obtain ⟨new, hnew⟩ := hkeeps.file _ _ hstands
    rw [walkSegments_cons (hkeeps.directory _ hlocation) hdot hdotDot hlength, hnew]
    rfl
  | case10 _ location name names hdot hdotDot hlength _ goal hfind hend =>
    cases h
    have hstands : standing? t.items (location ++ [name]) = some (.link goal) :=
      standing?_concat hlocation hfind
    rw [walkSegments_cons (hkeeps.directory _ hlocation) hdot hdotDot hlength,
      hkeeps.link _ _ hstands]
    simp only [if_pos hend]
    rfl
  | case13 location name names hdot hdotDot hlength _ goal hfind hend links hgoal ih =>
    have hstands : standing? t.items (location ++ [name]) = some (.link goal) :=
      standing?_concat hlocation hfind
    rw [walkSegments_cons (hkeeps.directory _ hlocation) hdot hdotDot hlength,
      hkeeps.link _ _ hstands]
    simp only [if_neg hend, if_neg hgoal]
    refine ih ?_ h
    split
    · rfl
    · exact hlocation
  | case4 | case6 | case9 | case11 | case12 => cases h

variable {p : Path}

/-- The directory that relative paths start from stands in the tree. -/
def HereStands (t : FileTree) : Prop := standing? t.items t.here = some .directory

theorem standing?_start (ht : t.HereStands) (path : List UInt8) :
    standing? t.items (if isRooted path then [] else t.here) = some .directory := by
  split
  · rfl
  · exact ht

theorem stands_of_walkFrom {path : List UInt8} (ht : t.HereStands)
    (h : walkFrom t path follow names = .ok target) : target.Stands t.items :=
  stands_of_walkSegments (standing?_start ht path) h

theorem walkFrom_of_keeps {path : List UInt8} (ht : t.HereStands) (hkeeps : Keeps t t')
    (h : walkFrom t path follow names = .ok target) :
    walkFrom t' path follow names = .ok (target.revisited t'.items) := by
  rw [walkFrom, hkeeps.here]
  exact walkSegments_of_keeps hkeeps (standing?_start ht path) h

theorem resolve_of_keeps (ht : t.HereStands) (hkeeps : Keeps t t')
    (h : t.resolve p = .ok target) :
    t'.resolve p = .ok (target.revisited t'.items) := by
  rw [resolve] at h ⊢
  split at h
  · cases h
  rename_i hpath
  split at h
  · cases h
  rename_i hnull
  rw [if_neg hpath, if_neg hnull]
  exact walkFrom_of_keeps ht hkeeps h

end Walks

/-! ## Growing trees -/

/-- Outside some locations, what stands in the first tree stands in the second, and beside it there
are only new directories that one of the paths leads to. -/
structure Grows (changed : Location → Prop) (paths : List Path) (before after : FileTree) :
    Prop where
  here : after.here = before.here
  kept : ∀ location standing, ¬ changed location →
    standing? before.items location = some standing →
      standing? after.items location = some standing
  new : ∀ location, ¬ changed location → standing? before.items location = none →
    standing? after.items location = none ∨
      standing? after.items location = some .directory ∧
        ∃ p ∈ paths, after.resolve p = .ok (.directory location)

namespace Grows

variable {changed : Location → Prop} {paths : List Path} {t'' : FileTree}

theorem refl (changed : Location → Prop) (paths : List Path) (t : FileTree) :
    Grows changed paths t t :=
  ⟨rfl, fun _ _ _ h => h, fun _ _ h => Or.inl h⟩

/-- The directories of the first step are still led to if the second one keeps them. -/
theorem trans (h : Grows changed paths t t') (ht' : t'.HereStands) (hkeeps : Keeps t' t'')
    (h' : Grows changed paths t' t'') : Grows changed paths t t'' := by
  refine ⟨h'.here.trans h.here, ?_, ?_⟩
  · intro location standing hout hstands
    exact h'.kept location standing hout (h.kept location standing hout hstands)
  · intro location hout hnone
    rcases h.new location hout hnone with hnone' | ⟨hdirectory, p, hp, hleads⟩
    · exact h'.new location hout hnone'
    · exact Or.inr ⟨h'.kept location .directory hout hdirectory, p, hp,
        resolve_of_keeps ht' hkeeps hleads⟩

theorem weaken (h : Grows (fun _ => False) paths t t') (changed : Location → Prop) :
    Grows changed paths t t' :=
  ⟨h.here, fun location standing _ => h.kept location standing id,
    fun location _ => h.new location id⟩

theorem keeps (h : Grows (fun _ => False) paths t t') : Keeps t t' where
  here := h.here
  directory location hstands := h.kept location _ id hstands
  link location goal hstands := h.kept location _ id hstands
  file location old hstands := ⟨old, h.kept location _ id hstands⟩
  linked location goal hstands := by
    rcases hbefore : standing? t.items location with _ | standing
    · rcases h.new location id hbefore with hnone | ⟨hdirectory, -⟩
      · rw [hnone] at hstands
        cases hstands
      · rw [hdirectory] at hstands
        cases hstands
    · rw [← h.kept location standing id hbefore, hstands]

theorem hereStands (h : Grows (fun _ => False) paths t t') (ht : t.HereStands) :
    t'.HereStands := by
  rw [HereStands, h.here]
  exact h.kept _ _ id ht

end Grows

/-! ## One thing put into a tree -/

/-- The second tree has a directory or a file where the first has nothing, or a file in place of a
file, and is the same elsewhere. -/
structure Puts (place : Location) (standing : Standing) (before after : FileTree) : Prop where
  here : after.here = before.here
  others : ∀ location, location ≠ place →
    standing? after.items location = standing? before.items location
  before : standing? before.items place = none ∨
    ∃ old new, standing? before.items place = some (.file old) ∧ standing = .file new
  after : standing? after.items place = some standing
  unlinked : ∀ goal, standing ≠ .link goal

namespace Puts

variable {place : Location} {standing : Standing}

/-- Nothing but a file gives way, and only to a file. -/
theorem kept (h : Puts place standing t t') {other : Standing}
    (hother : standing? t.items location = some other) :
    standing? t'.items location = some other ∨
      ∃ old new, other = .file old ∧ standing = .file new ∧
        standing? t'.items location = some (.file new) := by
  by_cases heq : location = place
  · subst heq
    rcases h.before with hnone | ⟨old, new, hold, rfl⟩
    · rw [hnone] at hother
      cases hother
    · rw [hold] at hother
      cases hother
      exact Or.inr ⟨old, new, rfl, rfl, h.after⟩
  · exact Or.inl ((h.others location heq).trans hother)

theorem keeps (h : Puts place standing t t') : Keeps t t' where
  here := h.here
  directory location hstands := by
    obtain hkept | ⟨_, _, hfile, _⟩ := h.kept hstands
    · exact hkept
    · cases hfile
  link location goal hstands := by
    obtain hkept | ⟨_, _, hfile, _⟩ := h.kept hstands
    · exact hkept
    · cases hfile
  file location old hstands := by
    obtain hkept | ⟨_, new, _, _, hnew⟩ := h.kept hstands
    · exact ⟨old, hkept⟩
    · exact ⟨new, hnew⟩
  linked location goal hstands := by
    have hne : location ≠ place := by
      rintro rfl
      exact h.unlinked goal (Option.some.inj (h.after.symm.trans hstands))
    rw [← h.others location hne, hstands]

theorem grows_elsewhere (h : Puts place standing t t') (paths : List Path) :
    Grows (· = place) paths t t' := by
  refine ⟨h.here, ?_, ?_⟩
  · intro location standing hout hstands
    rw [h.others location hout, hstands]
  · intro location hout hnone
    rw [h.others location hout]
    exact Or.inl hnone

/-- A new directory that a path leads to. -/
theorem grows (h : Puts place .directory t t') {paths : List Path} {p : Path} (hp : p ∈ paths)
    (hleads : t'.resolve p = .ok (.directory place)) : Grows (fun _ => False) paths t t' := by
  refine ⟨h.here, ?_, ?_⟩
  · intro location other _ hother
    obtain hkept | ⟨_, _, _, hfile, _⟩ := h.kept hother
    · exact hkept
    · cases hfile
  · intro location _ hnone
    by_cases heq : location = place
    · subst heq
      exact Or.inr ⟨h.after, p, hp, hleads⟩
    · exact Or.inl ((h.others location heq).trans hnone)

end Puts

/-! ## Steps of a write -/

section Steps

variable {p : Path} {content : ByteArray}

/-- A file can be put where a file or nothing stands in a directory. -/
theorem puts_setContent (content : ByteArray)
    (hlocation : standing? t.items location = some .directory)
    (h : standing? t.items (location ++ [name]) = none ∨
      ∃ old, standing? t.items (location ++ [name]) = some (.file old)) :
    Puts (location ++ [name]) (.file content) t
      { t with items := modify (setContent name content) location t.items } := by
  obtain ⟨inner, hinner⟩ := standing?_eq_directory_iff.mp hlocation
  have hbefore : Bare inner name := by
    intro n below hfind
    rw [standing?_concat hlocation (by rw [hinner, Option.bind_some, hfind])] at h
    simp [Item.standing] at h
  have hafter : Bare (setContent name content inner) name := by
    intro n below hfind
    rw [find?_setContent_self] at hfind
    cases hfind
  refine ⟨rfl, fun place hplace => ?_, ?_, ?_, fun goal h => by cases h⟩
  · exact standing?_modify_ne hinner (fun other hother => find?_setContent_ne hother) hbefore hafter
      hplace
  · rcases h with hnone | ⟨old, hold⟩
    · exact Or.inl hnone
    · exact Or.inr ⟨old, content, hold, rfl⟩
  · rw [standing?_modify_self hinner, find?_setContent_self]
    rfl

/-- A directory can be put where nothing stands in a directory. -/
theorem puts_add_directory (hlocation : standing? t.items location = some .directory)
    (h : standing? t.items (location ++ [name]) = none) :
    Puts (location ++ [name]) .directory t (t.add location (.directory name [])) := by
  obtain ⟨inner, hinner⟩ := standing?_eq_directory_iff.mp hlocation
  have hfind : find? inner name = none := by
    rw [standing?_append hinner, standing?_singleton] at h
    exact Option.map_eq_none_iff.mp h
  have hself : find? (inner ++ [.directory name []]) name = some (.directory name []) :=
    find?_append_self (.directory name []) hfind
  have hbefore : Bare inner name := by
    intro n below hbelow
    rw [hfind] at hbelow
    cases hbelow
  have hafter : Bare (inner ++ [.directory name []]) name := by
    intro n below hbelow
    rw [hself] at hbelow
    cases hbelow
    rfl
  refine ⟨rfl, fun place hplace => ?_, Or.inl h, ?_, fun goal h => by cases h⟩
  · exact standing?_modify_ne hinner
      (fun other (hother : other ≠ name) => find?_append_ne hother) hbefore hafter hplace
  · rw [add, standing?_modify_self hinner, hself]
    rfl

/-- A request that is granted in the end is granted at its first step. -/
theorem exists_of_bind_ok {α β : Type} {x : Except Refusal α} {f : α → Except Refusal β} {b : β}
    (h : (x >>= f) = .ok b) : ∃ a, x = .ok a ∧ f a = .ok b := by
  cases x with
  | error refusal => cases h
  | ok a => exact ⟨a, rfl, h⟩

theorem walkFrom_of_parentOf {path : List UInt8} (h : parentOf t path names = .ok location) :
    walkFrom t path true names.dropLast = .ok (.directory location) := by
  obtain ⟨target, hwalk, h⟩ := exists_of_bind_ok h
  cases target with
  | directory place =>
    cases h
    exact hwalk
  | file place => cases h
  | link place => cases h
  | absent parent name => cases h

/-- A path leads to the directory of its last name in the directory that the names before it lead
to. -/
theorem resolve_of_parent (hpath : ¬ bytesOf p.text = [])
    (hnull : ¬ (bytesOf p.text).contains 0)
    (hlast : (segments (bytesOf p.text)).getLast? = some name)
    (hparent : walkFrom t (bytesOf p.text) true (segments (bytesOf p.text)).dropLast =
      .ok (.directory location))
    (hdots : ¬ (name = dot ∨ name = dotDot)) (hlength : ¬ 255 < name.length)
    (hstands : standing? t.items (location ++ [name]) = some .directory) :
    t.resolve p = .ok (.directory (location ++ [name])) := by
  have hsegments : segments (bytesOf p.text) = (segments (bytesOf p.text)).dropLast ++ [name] :=
    List.dropLast_append_getLast? name hlast |>.symm
  obtain ⟨left, hleft⟩ := walkSegments_append hparent
    ([name] ++ if endsInSlash (bytesOf p.text) then [dot] else [])
  obtain ⟨hdot, hdotDot⟩ := not_or.mp hdots
  rw [resolve, if_neg hpath, if_neg hnull, hsegments, List.append_assoc, walkFrom, hleft,
    List.singleton_append, walkSegments_cons (standing?_parent hstands) hdot hdotDot hlength,
    hstands]
  dsimp only
  split
  · rw [walkSegments, if_pos rfl, walkSegments]
  · rw [walkSegments]

/-- What making a directory does, where it is not refused: the last name of the path is new in the
directory that the names before it lead to. -/
theorem makeDirectory_cases (ht : t.HereStands) (h : t.makeDirectory p = .ok t') :
    ∃ location name, ¬ bytesOf p.text = [] ∧ ¬ (bytesOf p.text).contains 0 ∧
      (segments (bytesOf p.text)).getLast? = some name ∧
      walkFrom t (bytesOf p.text) true (segments (bytesOf p.text)).dropLast =
        .ok (.directory location) ∧
      ¬ (name = dot ∨ name = dotDot) ∧ ¬ 255 < name.length ∧
      standing? t.items location = some .directory ∧
      standing? t.items (location ++ [name]) = none ∧
      t' = t.add location (.directory name []) := by
  rw [makeDirectory] at h
  dsimp only at h
  split at h
  · cases h
  rename_i hpath
  split at h
  · cases h
  rename_i hnull
  split at h
  · cases h
  rename_i name hlast
  obtain ⟨location, hparent, h⟩ := exists_of_bind_ok h
  have hwalk := walkFrom_of_parentOf hparent
  have hlocation : standing? t.items location = some .directory := stands_of_walkFrom ht hwalk
  obtain ⟨inner, hinner⟩ := standing?_eq_directory_iff.mp hlocation
  rw [hinner, Option.getD_some] at h
  split at h
  · cases h
  rename_i hdots
  split at h
  · cases h
  rename_i hlength
  split at h
  · cases h
  rename_i hany
  have hnone : standing? t.items (location ++ [name]) = none := by
    rw [standing?_append hinner, standing?_singleton, Option.map_eq_none_iff]
    exact not_not.mp fun hfind => hany (any_name_iff.mpr hfind)
  cases h
  exact ⟨location, name, hpath, hnull, hlast, hwalk, hdots, hlength, hlocation, hnone, rfl⟩

/-- A directory is made where nothing stood, and the path leads to it. -/
theorem makeDirectory_grows {paths : List Path} (ht : t.HereStands) (hp : p ∈ paths)
    (h : t.makeDirectory p = .ok t') : Grows (fun _ => False) paths t t' := by
  obtain ⟨location, name, hpath, hnull, hlast, hwalk, hdots, hlength, hlocation, hnone, rfl⟩ :=
    makeDirectory_cases ht h
  have hputs := puts_add_directory hlocation hnone
  have hparent := walkFrom_of_keeps ht hputs.keeps hwalk
  exact hputs.grows hp (resolve_of_parent hpath hnull hlast hparent hdots hlength hputs.after)

/-- What storing bytes does, where it is not refused: the path leads to a file or to nothing, and
that becomes the file. -/
theorem storeBytes_cases (ht : t.HereStands) (h : t.storeBytes p content = .ok t') :
    ∃ location name target, t.resolve p = .ok target ∧
      (target = .file (location ++ [name]) ∨ target = .absent location name) ∧
      standing? t.items location = some .directory ∧
      (standing? t.items (location ++ [name]) = none ∨
        ∃ old, standing? t.items (location ++ [name]) = some (.file old)) ∧
      t' = { t with items := modify (setContent name content) location t.items } := by
  rw [storeBytes] at h
  dsimp only at h
  split at h
  · cases h
  rename_i hpath
  split at h
  · cases h
  rename_i hnull
  split at h
  · obtain ⟨location, -, h⟩ := exists_of_bind_ok h
    cases h
  rename_i hend
  obtain ⟨target, hwalk, h⟩ := exists_of_bind_ok h
  have hstands := stands_of_walkFrom ht hwalk
  have hresolve : t.resolve p = .ok target := by
    rw [resolve, if_neg hpath, if_neg hnull, if_neg (not_or.mp hend).1, List.append_nil, hwalk]
  cases target with
  | file place =>
    rcases List.eq_nil_or_concat place with rfl | ⟨location, name, rfl⟩
    · cases h
    · simp only [List.concat_eq_append] at h hstands hresolve
      obtain ⟨old, hold⟩ := hstands
      simp only [List.getLast?_append, List.getLast?_singleton, Option.some_or,
        List.dropLast_concat] at h
      cases h
      exact ⟨location, name, _, hresolve, Or.inl rfl, standing?_parent hold, Or.inr ⟨old, hold⟩,
        rfl⟩
  | absent location name =>
    cases h
    exact ⟨location, name, _, hresolve, Or.inr rfl, hstands.1, Or.inl hstands.2, rfl⟩
  | directory place => cases h
  | link place => cases h

/-- Bytes are stored where a file or nothing stood, and the path leads there. -/
theorem storeBytes_puts (ht : t.HereStands) (h : t.storeBytes p content = .ok t') :
    ∃ place, Puts place (.file content) t t' ∧ t'.resolve p = .ok (.file place) := by
  obtain ⟨location, name, target, hresolve, htarget, hlocation, hbefore, rfl⟩ :=
    storeBytes_cases ht h
  have hputs := puts_setContent content hlocation hbefore
  refine ⟨location ++ [name], hputs, ?_⟩
  rw [resolve_of_keeps ht hputs.keeps hresolve]
  rcases htarget with rfl | rfl
  · rfl
  · rw [Target.revisited, hputs.after]

/-! ## Writes -/

theorem makeDirectories_grows {paths made : List Path} (ht : t.HereStands) (h : made ⊆ paths) :
    Grows (fun _ => False) paths t (t.makeDirectories made).2 := by
  induction made generalizing t with
  | nil => exact Grows.refl _ _ t
  | cons p above ih =>
    obtain ⟨hp, habove⟩ := List.cons_subset.mp h
    rw [makeDirectories]
    split
    · exact Grows.refl _ _ t
    cases hmade : t.makeDirectory p with
    | ok after => exact makeDirectory_grows ht hp hmade
    | error refusal =>
      cases refusal with
      | notFound =>
        have hgrows := ih ht habove
        dsimp only
        rcases hdirectories : t.makeDirectories above with ⟨refusal | _, after⟩
        · rw [hdirectories] at hgrows
          exact hgrows
        · rw [hdirectories] at hgrows
          have hafter := hgrows.hereStands ht
          dsimp only
          cases hagain : after.makeDirectory p with
          | ok last =>
            have hlast := makeDirectory_grows hafter hp hagain
            exact hgrows.trans hafter hlast.keeps hlast
          | error refusal => exact hgrows
      | _ => exact Grows.refl _ _ t

/-- The paths above a path, nearest first. -/
def above (p : Path) : List Path := (p.parent?.map Path.ancestors).getD []

/-- What stands in a tree after some bytes were written. -/
structure Written (p : Path) (content : ByteArray) (place : Location) (before after : FileTree) :
    Prop where
  leads : after.resolve p = .ok (.file place)
  stored : standing? after.items place = some (.file content)
  replaced : standing? before.items place = none ∨
    ∃ old, standing? before.items place = some (.file old)
  others : Grows (· = place) (above p) before after

theorem finish_puts (ht : t.HereStands) (h : writeBytes.finish p content t = (.ok (), t')) :
    ∃ place, Puts place (.file content) t t' ∧ t'.resolve p = .ok (.file place) := by
  rw [writeBytes.finish] at h
  cases hstore : t.storeBytes p content with
  | error refusal =>
    rw [hstore] at h
    cases h
  | ok after =>
    rw [hstore] at h
    cases h
    exact storeBytes_puts ht hstore

theorem finish_refused {refusal : Refusal}
    (h : writeBytes.finish p content t = (.error refusal, t')) : t' = t := by
  rw [writeBytes.finish] at h
  cases hstore : t.storeBytes p content with
  | error refusal =>
    rw [hstore] at h
    cases h
    rfl
  | ok after =>
    rw [hstore] at h
    cases h

/-- A write makes directories above the path, and then puts the bytes in their place or is
refused. -/
theorem writeBytes_cases (ht : t.HereStands) {result : Except Refusal Unit}
    (h : t.writeBytes p content = (result, t')) :
    ∃ between, Grows (fun _ => False) (above p) t between ∧
      (writeBytes.finish p content between = (result, t') ∨
        ∃ refusal, result = .error refusal ∧ t' = between) := by
  rw [writeBytes] at h
  split at h
  · rename_i parent hparent
    have hgrows := makeDirectories_grows ht (List.Subset.refl parent.ancestors)
    have habove : above p = parent.ancestors := by
      rw [above, hparent]
      rfl
    rw [← habove] at hgrows
    rw [ensureDirectory, ← habove] at h
    rcases hmade : t.makeDirectories (above p) with ⟨refusal | _, between⟩
    · rw [hmade] at h hgrows
      cases h
      exact ⟨t', hgrows, Or.inr ⟨refusal, rfl, rfl⟩⟩
    · rw [hmade] at h hgrows
      exact ⟨between, hgrows, Or.inl h⟩
  · exact ⟨t, Grows.refl _ _ t, Or.inl h⟩

theorem writeBytes_written (ht : t.HereStands) (h : t.writeBytes p content = (.ok (), t')) :
    ∃ place, Written p content place t t' := by
  obtain ⟨between, hgrows, hfinish | ⟨refusal, hrefused, _⟩⟩ := writeBytes_cases ht h
  · have hbetween := hgrows.hereStands ht
    obtain ⟨place, hputs, hleads⟩ := finish_puts hbetween hfinish
    refine ⟨place, hleads, hputs.after, ?_, ?_⟩
    · rcases hplace : standing? t.items place with _ | standing
      · exact Or.inl rfl
      · rw [← hgrows.kept place standing id hplace]
        rcases hputs.before with hnone | ⟨old, _, hold, _⟩
        · exact Or.inl hnone
        · exact Or.inr ⟨old, hold⟩
    · exact (hgrows.weaken _).trans hbetween hputs.keeps (hputs.grows_elsewhere _)
  · cases hrefused

theorem writeBytes_refused (ht : t.HereStands) {refusal : Refusal}
    (h : t.writeBytes p content = (.error refusal, t')) :
    Grows (fun _ => False) (above p) t t' := by
  obtain ⟨between, hgrows, hfinish | ⟨_, _, hend⟩⟩ := writeBytes_cases ht h
  · rw [finish_refused hfinish]
    exact hgrows
  · rw [hend]
    exact hgrows

/-- What was written is read back. -/
theorem Written.readText_eq {place : Location} {text : String}
    (h : Written p text.toUTF8 place t t') : t'.readText p = .ok text := by
  have hcontent := content?_eq_some_iff.mpr h.stored
  have htext : String.fromUTF8? text.toUTF8 = some text := textOf?_bytesOf text
  simp only [readText, readBytes, h.leads, bind, Except.bind, hcontent, htext]

end Steps

end FileTree

end ProjectOutline
