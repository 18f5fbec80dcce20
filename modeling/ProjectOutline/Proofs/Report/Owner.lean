import Mathlib.Data.List.Induction
import Mathlib.Data.Prod.Lex
import ProjectOutline.Report

/-!
# The owner of a path

The search for the owner of a path keeps the best package so far. Each package that contains the
path is a candidate with a rank (`candidate?`), and a candidate replaces the best one if its rank
is above. Ranks are ordered by depth, then by ecosystem, and the order is total, so the search comes
to the first of the best: all before it rank below it, none behind it ranks above (`leads_foldl`).

`owner?_eq_some` says so of the packages, and `owner?_eq_none_iff` that a search without a result
has met no package that contains the path. What other modules use follows from these two.
-/

namespace ProjectOutline

/-- How well a package fits files of a language that it contains. -/
def Package.rank (p : Package) (language : Language) : Report.Rank :=
  ⟨p.depth, p.kind.serves language⟩

@[simp]
theorem Package.depth_rank (p : Package) (language : Language) :
    (p.rank language).depth = p.depth := by
  rw [rank]

@[simp]
theorem Package.serves_rank (p : Package) (language : Language) :
    (p.rank language).serves = p.kind.serves language := by
  rw [rank]

namespace Report

variable {path : String} {language : Language}

/-- A rank as a pair, ordered by depth first. -/
def Rank.key (r : Rank) : Nat ×ₗ Bool :=
  toLex (r.depth, r.serves)

theorem Rank.beats_iff {a b : Rank} : a.beats b = true ↔ b.key < a.key := by
  have hserves : a.serves = true ∧ b.serves = false ↔ b.serves < a.serves := by
    rw [Bool.lt_iff]
    exact and_comm
  rw [Rank.key, Rank.key, Prod.Lex.toLex_lt_toLex, ← hserves, eq_comm (a := b.depth)]
  simp [Rank.beats, and_assoc]

/-- The candidate that a package at a position is for a path, if it contains the path. -/
def candidate? (path : String) (language : Language) (item : Package × Nat) : Option Candidate :=
  (item.1.relative? path).map fun relative => ⟨item.2, relative, item.1.rank language⟩

theorem better_of_none {best : Option Candidate} {item : Package × Nat}
    (h : candidate? path language item = none) : better path language best item = best := by
  rw [better, Option.map_eq_none_iff.mp h]

theorem better_of_some {best : Option Candidate} {item : Package × Nat} {d : Candidate}
    (h : candidate? path language item = some d) :
    better path language best item =
      some (best.elim d fun c => if d.rank.beats c.rank then d else c) := by
  obtain ⟨relative, hrelative, rfl⟩ := Option.map_eq_some_iff.mp h
  have hrank : item.1.rank language = ⟨item.1.depth, item.1.kind.serves language⟩ := rfl
  rw [better, hrelative, hrank]
  cases best with
  | none => rfl
  | some c =>
    dsimp only [Option.elim]
    split <;> rfl

/-! ## What the search comes to -/

/-- The candidate of the first of the best packages: those before it rank below it, and none behind
it ranks above. -/
def Leads (path : String) (language : Language) (items : List (Package × Nat)) (c : Candidate) :
    Prop :=
  ∃ front item back, items = front ++ item :: back ∧ candidate? path language item = some c ∧
    (∀ x ∈ front, ∀ d, candidate? path language x = some d → d.rank.key < c.rank.key) ∧
    ∀ x ∈ back, ∀ d, candidate? path language x = some d → d.rank.key ≤ c.rank.key

theorem Leads.key_le {items : List (Package × Nat)} {c : Candidate}
    (h : Leads path language items c) {x : Package × Nat} (hx : x ∈ items) {d : Candidate}
    (hd : candidate? path language x = some d) : d.rank.key ≤ c.rank.key := by
  obtain ⟨front, item, back, rfl, hc, hfront, hback⟩ := h
  rcases List.mem_append.mp hx with hx | hx
  · exact (hfront x hx d hd).le
  · rcases List.mem_cons.mp hx with rfl | hx
    · rw [hc, Option.some.injEq] at hd
      rw [hd]
    · exact hback x hx d hd

/-- A package that is not better leaves the lead as it is. -/
theorem Leads.concat {items : List (Package × Nat)} {c : Candidate} {item : Package × Nat}
    (h : Leads path language items c)
    (hitem : ∀ d, candidate? path language item = some d → d.rank.key ≤ c.rank.key) :
    Leads path language (items ++ [item]) c := by
  obtain ⟨front, first, back, rfl, hc, hfront, hback⟩ := h
  refine ⟨front, first, back ++ [item], by simp, hc, hfront, fun x hx d hd => ?_⟩
  rcases List.mem_append.mp hx with hx | hx
  · exact hback x hx d hd
  · rw [List.mem_singleton] at hx
    subst hx
    exact hitem d hd

/-- A package that is better than all before it takes the lead. -/
theorem leads_concat {items : List (Package × Nat)} {item : Package × Nat} {c : Candidate}
    (hc : candidate? path language item = some c)
    (hbelow : ∀ x ∈ items, ∀ d, candidate? path language x = some d → d.rank.key < c.rank.key) :
    Leads path language (items ++ [item]) c :=
  ⟨items, item, [], rfl, hc, hbelow, fun _ hx => absurd hx List.not_mem_nil⟩

/-- The search finds nothing and there was no candidate, or it finds the one in the lead. -/
theorem leads_foldl (path : String) (language : Language) (items : List (Package × Nat)) :
    (items.foldl (better path language) none = none ∧
        ∀ x ∈ items, candidate? path language x = none) ∨
      ∃ c, items.foldl (better path language) none = some c ∧ Leads path language items c := by
  induction items using List.reverseRecOn with
  | nil => exact Or.inl ⟨rfl, fun x hx => absurd hx List.not_mem_nil⟩
  | append_singleton front item ih =>
    rw [List.foldl_append, List.foldl_cons, List.foldl_nil]
    cases hitem : candidate? path language item with
    | none =>
      rw [better_of_none hitem]
      rcases ih with ⟨hnone, hall⟩ | ⟨c, hc, hleads⟩
      · refine Or.inl ⟨hnone, fun x hx => ?_⟩
        rcases List.mem_append.mp hx with hx | hx
        · exact hall x hx
        · rw [List.mem_singleton.mp hx, hitem]
      · refine Or.inr ⟨c, hc, hleads.concat fun d hd => ?_⟩
        rw [hitem] at hd
        cases hd
    | some d =>
      rw [better_of_some hitem]
      refine Or.inr ⟨_, rfl, ?_⟩
      rcases ih with ⟨hnone, hall⟩ | ⟨c, hc, hleads⟩
      · rw [hnone]
        refine leads_concat hitem fun x hx e he => ?_
        rw [hall x hx] at he
        cases he
      · rw [hc, Option.elim]
        by_cases hbeats : d.rank.beats c.rank = true
        · rw [if_pos hbeats]
          have hlt := Rank.beats_iff.mp hbeats
          exact leads_concat hitem fun x hx e he => (hleads.key_le hx he).trans_lt hlt
        · rw [if_neg hbeats]
          refine hleads.concat fun e he => ?_
          rw [hitem, Option.some.injEq] at he
          rw [← he]
          exact not_lt.mp fun hlt => hbeats (Rank.beats_iff.mpr hlt)

/-! ## The owner -/

theorem candidate?_of_relative? (language : Language) {packages : List Package} {p : Package}
    {i : Nat} {relative : String} (hp : packages[i]? = some p)
    (h : p.relative? path = some relative) :
    (p, i) ∈ packages.zipIdx ∧
      candidate? path language (p, i) = some ⟨i, relative, p.rank language⟩ := by
  refine ⟨List.mem_zipIdx_iff_getElem?.mpr hp, ?_⟩
  rw [candidate?, h, Option.map_some]

/-- The owner of a path is a package that contains it; no package that does ranks above the owner,
and those that come before the owner rank below. -/
theorem owner?_eq_some {packages : List Package} {relative : String} {index : Nat}
    (h : owner? packages path language = some (index, relative)) :
    ∃ package, packages[index]? = some package ∧ package.relative? path = some relative ∧
      ∀ i p behind, packages[i]? = some p → p.relative? path = some behind →
        (p.rank language).key ≤ (package.rank language).key ∧
          (i < index → (p.rank language).key < (package.rank language).key) := by
  obtain ⟨c, hc, hpair⟩ := Option.map_eq_some_iff.mp h
  rw [Prod.mk.injEq] at hpair
  rcases leads_foldl path language packages.zipIdx with ⟨hnone, -⟩ | ⟨c', hc', hleads⟩
  · rw [hnone] at hc
    cases hc
  · rw [hc', Option.some.injEq] at hc
    subst hc
    have hle : ∀ x ∈ packages.zipIdx, ∀ d, candidate? path language x = some d →
        d.rank.key ≤ c'.rank.key := fun x hx d hd => hleads.key_le hx hd
    obtain ⟨front, ⟨package, j⟩, back, hitems, hcandidate, hfront, -⟩ := hleads
    obtain ⟨behind, hrelative, rfl⟩ := Option.map_eq_some_iff.mp hcandidate
    obtain ⟨rfl, rfl⟩ := hpair
    have hmem : (package, j) ∈ packages.zipIdx := by
      rw [hitems]
      exact List.mem_append_right _ List.mem_cons_self
    refine ⟨package, List.mem_zipIdx_iff_getElem?.mp hmem, hrelative, ?_⟩
    intro i p rest hp hrest
    obtain ⟨hitem, hd⟩ := candidate?_of_relative? language hp hrest
    have hnone_above := hle (p, i) hitem ⟨i, rest, p.rank language⟩ hd
    refine ⟨hnone_above, fun hlt => ?_⟩
    change i < j at hlt
    -- Positions go up, so what comes before the owner stands in front of it.
    have hsorted : (packages.zipIdx.map Prod.snd).Pairwise (· < ·) := by
      rw [List.zipIdx_map_snd]
      exact List.pairwise_lt_range' 1
    rw [hitems, List.map_append, List.map_cons, List.pairwise_append, List.pairwise_cons]
      at hsorted
    rw [hitems, List.mem_append, List.mem_cons] at hitem
    rcases hitem with hitem | hitem | hitem
    · have hbelow := hfront (p, i) hitem ⟨i, rest, p.rank language⟩ hd
      exact hbelow
    · cases hitem
      omega
    · have hbehind := hsorted.2.1.1 i (List.mem_map.mpr ⟨_, hitem, rfl⟩)
      dsimp only at hbehind
      omega

/-- A path has no owner exactly if no package contains it. -/
theorem owner?_eq_none_iff {packages : List Package} :
    owner? packages path language = none ↔ ∀ p ∈ packages, p.relative? path = none := by
  rw [owner?, Option.map_eq_none_iff]
  rcases leads_foldl path language packages.zipIdx with ⟨hnone, hall⟩ | ⟨c, hc, hleads⟩
  · refine ⟨fun _ p hp => ?_, fun _ => hnone⟩
    obtain ⟨i, hi⟩ := List.mem_iff_getElem?.mp hp
    exact Option.map_eq_none_iff.mp (hall (p, i) (List.mem_zipIdx_iff_getElem?.mpr hi))
  · constructor
    · intro hnone
      rw [hnone] at hc
      cases hc
    · intro hall
      obtain ⟨front, ⟨p, i⟩, back, hitems, hcandidate, -⟩ := hleads
      have hmem : (p, i) ∈ packages.zipIdx := by
        rw [hitems]
        exact List.mem_append_right _ List.mem_cons_self
      have hp := List.mem_of_getElem? (List.mem_zipIdx_iff_getElem?.mp hmem)
      rw [candidate?, hall p hp] at hcandidate
      cases hcandidate

theorem owner?_index_lt {packages : List Package} {relative : String} {index : Nat}
    (h : owner? packages path language = some (index, relative)) : index < packages.length := by
  obtain ⟨package, hpackage, -⟩ := owner?_eq_some h
  exact (List.getElem?_eq_some_iff.mp hpackage).1

end Report

end ProjectOutline
