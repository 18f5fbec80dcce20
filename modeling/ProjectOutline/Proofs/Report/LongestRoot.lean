import Mathlib.Order.Bounds.Basic
import ProjectOutline.Proofs.Report.Owner
import ProjectOutline.Proofs.Text.Pieces

/-!
# The longest root wins

Packages are ranked by how many segments their roots have. The owner of a path can be told without
segments: it is the package with the longest root among those that contain the path, then one that
serves the language, then the first. The two orders agree because all roots that contain one path
are beginnings of it that end before a slash; of two such roots the longer one goes on from the
shorter one with a slash (`exists_trimmedRoot_eq`), which adds a segment (`depth_lt_of_reach_lt`).
Roots of different paths need not compare in this way: `a/b` is shorter than `long` and deeper.
-/

namespace ProjectOutline

namespace Package

variable {p q : Package} {path rest behind : String}

/-- The package contains the path, and the last argument is the path seen from it. Slashes at the
end of a root do not count. -/
inductive Contains (p : Package) (path : String) : String → Prop where
  /-- The whole project contains every path as it is. -/
  | whole (hroot : p.trimmedRoot = "." ∨ p.trimmedRoot = "") : Contains p path path
  /-- Any other package contains what follows its root and a slash. -/
  | below (rest : String) (hdot : p.trimmedRoot ≠ ".") (hempty : p.trimmedRoot ≠ "")
      (hpath : path = p.trimmedRoot ++ "/" ++ rest) : Contains p path rest

/-- How many characters the root has; the project root has none. -/
def reach (p : Package) : Nat :=
  if p.trimmedRoot = "." then 0 else p.trimmedRoot.length

/-- How well a package fits a language, by the length of its root. -/
def fit (p : Package) (language : Language) : Nat ×ₗ Bool :=
  toLex (p.reach, p.kind.serves language)

theorem isWhole_iff : p.isWhole = true ↔ p.trimmedRoot = "." ∨ p.trimmedRoot = "" := by
  simp [isWhole]

theorem relative?_eq_some_iff : p.relative? path = some rest ↔ p.Contains path rest := by
  rw [relative?]
  constructor
  · intro h
    split at h
    · next hwhole =>
      cases h
      exact .whole (isWhole_iff.mp hwhole)
    · next hinner =>
      obtain ⟨hdot, hempty⟩ := not_or.mp fun hroot => hinner (isWhole_iff.mpr hroot)
      obtain ⟨slashed, hslashed, hrest⟩ := Option.bind_eq_some_iff.mp h
      refine .below rest hdot hempty ?_
      rw [Text.after?_eq_some_iff.mp hslashed, Text.after?_eq_some_iff.mp hrest,
        String.append_assoc]
  · intro h
    cases h with
    | whole hroot => rw [if_pos (isWhole_iff.mpr hroot)]
    | below _ hdot hempty hpath =>
      rw [if_neg fun hwhole => (isWhole_iff.mp hwhole).elim hdot hempty, Option.bind_eq_some_iff]
      refine ⟨"/" ++ rest, Text.after?_eq_some_iff.mpr ?_, Text.after?_eq_some_iff.mpr rfl⟩
      rw [hpath, String.append_assoc]

theorem Contains.unique (h : p.Contains path rest) (h' : p.Contains path behind) :
    rest = behind := by
  rw [← relative?_eq_some_iff] at h h'
  exact Option.some.inj (h.symm.trans h')

/-! ## Depth and length -/

theorem depth_of_isWhole (h : p.isWhole = true) : p.depth = 0 := by
  rw [depth, if_pos h]

theorem reach_of_isWhole (h : p.isWhole = true) : p.reach = 0 := by
  rcases isWhole_iff.mp h with hdot | hempty
  · rw [reach, if_pos hdot]
  · rw [reach, hempty]
    rfl

theorem depth_of_not_isWhole (h : p.isWhole ≠ true) :
    p.depth = (Text.split '/' p.trimmedRoot).length := by
  rw [depth, if_neg h]

theorem reach_of_not_isWhole (h : p.isWhole ≠ true) :
    p.reach = p.trimmedRoot.toList.length := by
  rw [reach, if_neg fun hdot => h (isWhole_iff.mpr (Or.inl hdot)), String.length_toList]

theorem length_split_pos (s : String) : 0 < (Text.split '/' s).length := by
  rw [Text.split, List.length_map, List.length_pos_iff]
  exact Text.splitChars_ne_nil '/' s.toList

/-- A path below a root begins with the root and a slash. -/
theorem Contains.begins (hp : p.isWhole ≠ true) (h : p.Contains path rest) :
    p.trimmedRoot.toList ++ ['/'] <+: path.toList := by
  cases h with
  | whole hroot => exact absurd (isWhole_iff.mpr hroot) hp
  | below _ _ _ hpath =>
    rw [hpath, String.toList_append, String.toList_append]
    exact List.prefix_append _ _

/-- Of two roots of one path the longer one goes on behind the shorter one and a slash. -/
theorem exists_trimmedRoot_eq (hp : p.isWhole ≠ true) (hq : q.isWhole ≠ true)
    (hpath : p.Contains path rest) (hpath' : q.Contains path behind) (h : p.reach < q.reach) :
    ∃ tail, q.trimmedRoot = p.trimmedRoot ++ ("/" ++ tail) := by
  have hroot : q.trimmedRoot.toList <+: path.toList :=
    (List.prefix_append _ ['/']).trans (hpath'.begins hq)
  rw [reach_of_not_isWhole hp, reach_of_not_isWhole hq] at h
  have hlength : (p.trimmedRoot.toList ++ ['/']).length ≤ q.trimmedRoot.toList.length := by
    rw [List.length_append, List.length_singleton]
    omega
  obtain ⟨tail, htail⟩ := List.prefix_of_prefix_length_le (hpath.begins hp) hroot hlength
  have hslash : "/".toList = ['/'] := rfl
  refine ⟨String.ofList tail, String.toList_injective ?_⟩
  rw [← htail, String.toList_append, String.toList_append, hslash, String.toList_ofList,
    List.append_assoc]

/-- Among the packages that contain a path a longer root is a deeper one. -/
theorem depth_lt_of_reach_lt (hpath : p.Contains path rest) (hpath' : q.Contains path behind)
    (h : p.reach < q.reach) : p.depth < q.depth := by
  have hq : q.isWhole ≠ true := by
    intro hwhole
    rw [reach_of_isWhole hwhole] at h
    omega
  rw [depth_of_not_isWhole hq]
  by_cases hp : p.isWhole = true
  · rw [depth_of_isWhole hp]
    exact length_split_pos q.trimmedRoot
  · obtain ⟨tail, htail⟩ := exists_trimmedRoot_eq hp hq hpath hpath' h
    have hpos := length_split_pos tail
    rw [depth_of_not_isWhole hp, htail, Text.split_append_slash, List.length_append]
    omega

/-- Roots of one path that are equally long are equal, and so equally deep. -/
theorem depth_eq_of_reach_eq (hpath : p.Contains path rest) (hpath' : q.Contains path behind)
    (h : p.reach = q.reach) : p.depth = q.depth := by
  have hpos : ∀ r : Package, r.isWhole ≠ true → 0 < r.reach := by
    intro r hr
    rw [reach_of_not_isWhole hr, List.length_pos_iff]
    exact fun hnil => hr (isWhole_iff.mpr (Or.inr (String.toList_eq_nil_iff.mp hnil)))
  by_cases hp : p.isWhole = true <;> by_cases hq : q.isWhole = true
  · rw [depth_of_isWhole hp, depth_of_isWhole hq]
  · have hreach := hpos q hq
    rw [← h, reach_of_isWhole hp] at hreach
    omega
  · have hreach := hpos p hp
    rw [h, reach_of_isWhole hq] at hreach
    omega
  · have hroots : p.trimmedRoot.toList = q.trimmedRoot.toList := by
      have hleft := (List.prefix_append _ ['/']).trans (hpath.begins hp)
      have hright := (List.prefix_append _ ['/']).trans (hpath'.begins hq)
      rw [reach_of_not_isWhole hp, reach_of_not_isWhole hq] at h
      rw [List.prefix_iff_eq_take.mp hleft, List.prefix_iff_eq_take.mp hright, h]
    rw [depth_of_not_isWhole hp, depth_of_not_isWhole hq, String.toList_injective hroots]

/-- Among the packages that contain a path the ranks are ordered as the lengths of the roots are. -/
theorem fit_le_iff (language : Language) (hpath : p.Contains path rest)
    (hpath' : q.Contains path behind) :
    p.fit language ≤ q.fit language ↔ (p.rank language).key ≤ (q.rank language).key := by
  rw [fit, fit, Report.Rank.key, Report.Rank.key, Prod.Lex.toLex_le_toLex,
    Prod.Lex.toLex_le_toLex, depth_rank, depth_rank, serves_rank, serves_rank]
  dsimp only
  rcases Nat.lt_trichotomy p.reach q.reach with hlt | heq | hgt
  · have hdepth := depth_lt_of_reach_lt hpath hpath' hlt
    simp only [hlt, hdepth, true_or]
  · have hdepth := depth_eq_of_reach_eq hpath hpath' heq
    simp only [heq, hdepth, Nat.lt_irrefl, false_or, true_and]
  · have hdepth := depth_lt_of_reach_lt hpath' hpath hgt
    simp only [Nat.lt_asymm hgt, Nat.lt_asymm hdepth, hgt.ne', hdepth.ne', false_and, or_self]

end Package

namespace Report

/-- The package at a position contains the path, and no package that does has a longer root, or one
as long and a better ecosystem. -/
def Longest (packages : List Package) (path : String) (language : Language) (i : Nat) : Prop :=
  ∃ p, packages[i]? = some p ∧ (∃ rest, p.Contains path rest) ∧
    ∀ q ∈ packages, ∀ rest, q.Contains path rest → q.fit language ≤ p.fit language

variable {packages : List Package} {path rest : String} {language : Language} {i : Nat}

/-- What the search returns is the first of the longest. -/
theorem isLeast_of_owner? (h : owner? packages path language = some (i, rest)) :
    ∃ p, packages[i]? = some p ∧ p.Contains path rest ∧
      IsLeast {j | Longest packages path language j} i := by
  obtain ⟨p, hp, hrelative, hbest⟩ := owner?_eq_some h
  have hcontains := Package.relative?_eq_some_iff.mp hrelative
  refine ⟨p, hp, hcontains, ⟨p, hp, ⟨rest, hcontains⟩, ?_⟩, ?_⟩
  · intro q hq behind hbehind
    obtain ⟨j, hj⟩ := List.mem_iff_getElem?.mp hq
    rw [Package.fit_le_iff language hbehind hcontains]
    exact (hbest j q behind hj (Package.relative?_eq_some_iff.mpr hbehind)).1
  · rintro j ⟨q, hq, ⟨behind, hbehind⟩, hlongest⟩
    by_contra hlt
    -- A package before the owner ranks below it, and so is not among the longest.
    have hbelow := (hbest j q behind hq (Package.relative?_eq_some_iff.mpr hbehind)).2 (by omega)
    have hfit := hlongest p (List.mem_of_getElem? hp) rest hcontains
    rw [Package.fit_le_iff language hcontains hbehind] at hfit
    exact absurd hfit (not_le.mpr hbelow)

theorem owner?_eq_none_iff_contains :
    owner? packages path language = none ↔
      ∀ p ∈ packages, ∀ rest, ¬ p.Contains path rest := by
  rw [owner?_eq_none_iff]
  simp only [Option.eq_none_iff_forall_ne_some, ne_eq, Package.relative?_eq_some_iff]

/-- The owner is the first of the longest. -/
theorem owner?_eq_some_iff :
    owner? packages path language = some (i, rest) ↔
      ∃ p, packages[i]? = some p ∧ p.Contains path rest ∧
        IsLeast {j | Longest packages path language j} i := by
  refine ⟨isLeast_of_owner?, ?_⟩
  rintro ⟨p, hp, hcontains, hleast⟩
  cases howner : owner? packages path language with
  | none =>
    exact absurd hcontains
      (owner?_eq_none_iff_contains.mp howner p (List.mem_of_getElem? hp) rest)
  | some owner =>
    obtain ⟨j, behind⟩ := owner
    obtain ⟨q, hq, hbehind, hleast'⟩ := isLeast_of_owner? howner
    obtain rfl := hleast.unique hleast'
    rw [hp, Option.some.injEq] at hq
    subst hq
    rw [hcontains.unique hbehind]

/-- A name that begins like a root is left to the whole project. -/
example : owner? [⟨".", .js⟩, ⟨"api", .py⟩] "apis/client.py" .python =
    some (0, "apis/client.py") := by
  decide

end Report

end ProjectOutline
