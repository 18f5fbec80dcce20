import Mathlib.Data.List.Lex
import ProjectOutline.FileTree
import ProjectOutline.Proofs.Path.Components

/-!
# Entries of a tree of files

The names of a tree are bytes and those of a path are text. A name is the text of one path component
exactly if it encodes one that is neither empty nor has a slash, and is not one of the two names
with a meaning of their own (`Name.isProper`). In a proper tree all entries have such names, and no
two entries of a directory the same (`FileTree.areProper`); so an entry is found by its name
(`find?_eq_some_iff`), and a way down from a directory is told by the path that spells it
(`Path.names_descend?`).
-/

namespace ProjectOutline

/-! ## Bytes and texts -/

theorem bytesOf_eq (text : String) : bytesOf text = text.toList.flatMap String.utf8EncodeChar := by
  have hbytes : text.toByteArray = text.toList.utf8Encode := by
    rw [← String.toByteArray_ofList, String.ofList_toList]
  rw [bytesOf, String.toUTF8_eq_toByteArray, hbytes, List.utf8Encode]
  simp

/-- Bytes are the text that they encode, and no other. -/
theorem textOf?_eq_some_iff {bytes : List UInt8} {text : String} :
    textOf? bytes = some text ↔ bytes = bytesOf text := by
  unfold textOf? String.fromUTF8?
  constructor
  · intro h
    split at h
    · cases h
      rfl
    · cases h
  · intro h
    have hbytes : (⟨bytes.toArray⟩ : ByteArray) = text.toByteArray := by
      rw [h]
      rfl
    rw [dif_pos (hbytes ▸ text.isValidUTF8), Option.some.injEq, ← String.toByteArray_inj]
    exact hbytes

@[simp]
theorem textOf?_bytesOf (text : String) : textOf? (bytesOf text) = some text :=
  textOf?_eq_some_iff.mpr rfl

/-- The order of bytes is the lexicographic one. -/
theorem bytesLe_iff {a b : List UInt8} : bytesLe a b = true ↔ a < b ∨ a = b := by
  induction a generalizing b with
  | nil => cases b <;> simp [bytesLe]
  | cons x xs ih =>
    cases b with
    | nil => simp [bytesLe]
    | cons y ys =>
      simp only [bytesLe, Bool.or_eq_true, Bool.and_eq_true, beq_iff_eq, decide_eq_true_eq, ih,
        List.cons_lt_cons_iff, List.cons.injEq]
      tauto

theorem bytesLe_trans (a b c : List UInt8) (hab : bytesLe a b = true) (hbc : bytesLe b c = true) :
    bytesLe a c = true := by
  rw [bytesLe_iff] at *
  rcases hab with hab | rfl
  · rcases hbc with hbc | rfl
    · exact Or.inl (List.lt_trans hab hbc)
    · exact Or.inl hab
  · exact hbc

theorem bytesLe_total (a b : List UInt8) : (bytesLe a b || bytesLe b a) = true := by
  rw [Bool.or_eq_true, bytesLe_iff, bytesLe_iff]
  rcases Std.lt_trichotomy a b with h | h | h
  · exact Or.inl (Or.inl h)
  · exact Or.inl (Or.inr h)
  · exact Or.inr (Or.inl h)

/-! ## Proper names -/

/-- Whether a name is one that an entry can have. -/
def Name.isProper (name : Name) : Bool :=
  name ≠ [] && !name.contains FileTree.slash && name ≠ FileTree.dot && name ≠ FileTree.dotDot

theorem Name.isProper_iff {name : Name} :
    name.isProper = true ↔ name ≠ [] ∧ FileTree.slash ∉ name ∧ name ≠ FileTree.dot ∧
      name ≠ FileTree.dotDot := by
  simp [isProper, and_assoc]

theorem slash_mem_bytesOf {text : String} (h : '/' ∈ text.toList) :
    FileTree.slash ∈ bytesOf text := by
  rw [bytesOf_eq, List.mem_flatMap]
  exact ⟨'/', h, by decide⟩

/-- A proper name that encodes a text is one component of a path. -/
theorem component_of_isProper {text : String} (h : Name.isProper (bytesOf text) = true) :
    (⟨text⟩ : Path).isAbsolute = false ∧ Path.segmentComponents text.toList = [.name text] := by
  obtain ⟨hempty, hslash, hdot, hdotDot⟩ := Name.isProper_iff.mp h
  have hother : ∀ other : String, bytesOf text ≠ bytesOf other → text.toList ≠ other.toList :=
    fun other hne heq => hne (congrArg bytesOf (String.toList_injective heq))
  have hnil : text.toList ≠ [] := hother "" hempty
  have hchars : '/' ∉ text.toList := fun hmem => hslash (slash_mem_bytesOf hmem)
  have hsegment : Path.Component.ofSegment? text.toList = some (.name text) := by
    have hcurrent : text.toList ≠ ['.'] := hother "." hdot
    have hparent : text.toList ≠ ['.', '.'] := hother ".." hdotDot
    simp [Path.Component.ofSegment?, hnil, hcurrent, hparent]
  constructor
  · obtain ⟨c, rest, hcons⟩ := List.exists_cons_of_ne_nil hnil
    rw [hcons, List.mem_cons, not_or] at hchars
    rw [Path.isAbsolute, hcons, Path.startsAtRoot_cons]
    exact decide_eq_false (Ne.symm hchars.1)
  · rw [Path.segmentComponents, Text.splitChars_of_not_mem hchars]
    simp [hsegment]

/-- The components of a path as bytes. -/
def Path.names (path : Path) : Location :=
  path.components.map fun component => bytesOf component.label

/-- The path that goes on from another by some names; there is none if a name is not a text. -/
def Path.descend? (base : Path) : Location → Option Path
  | [] => some base
  | name :: rest =>
    match textOf? name with
    | some text => (base.join ⟨text⟩).descend? rest
    | none => none

theorem Path.descend?_cons {base : Path} {name : Name} {text : String} {rest : Location}
    (h : textOf? name = some text) :
    base.descend? (name :: rest) = (base.join ⟨text⟩).descend? rest := by
  rw [Path.descend?, h]

/-- A proper name adds itself to the names of a path. -/
theorem Path.names_join {base : Path} {text : String} (hbase : base.text ≠ "")
    (h : Name.isProper (bytesOf text) = true) :
    (base.join ⟨text⟩).names = base.names ++ [bytesOf text] ∧ (base.join ⟨text⟩).text ≠ "" := by
  obtain ⟨hrelative, hsegment⟩ := component_of_isProper h
  have hjoin := Path.components_join hbase hrelative
  rw [hsegment] at hjoin
  constructor
  · rw [Path.names, Path.names, hjoin, List.map_append]
    rfl
  · intro hempty
    have hnone : (base.join ⟨text⟩).components = [] := by
      rw [Path.components, hempty]
      rfl
    rw [hnone] at hjoin
    simp at hjoin

/-- A path that goes on by proper names is told by them. -/
theorem Path.names_descend? {base path : Path} {names : Location} (hbase : base.text ≠ "")
    (h : ∀ name ∈ names, Name.isProper name = true) (hpath : base.descend? names = some path) :
    path.names = base.names ++ names := by
  induction names generalizing base with
  | nil =>
    cases hpath
    exact (List.append_nil _).symm
  | cons name rest ih =>
    rw [Path.descend?] at hpath
    split at hpath
    · rename_i text htext
      rw [textOf?_eq_some_iff.mp htext] at h ⊢
      obtain ⟨hnames, hjoin⟩ := Path.names_join hbase (h _ List.mem_cons_self)
      rw [ih hjoin (fun other hother => h other (List.mem_cons_of_mem _ hother)) hpath, hnames,
        List.append_assoc]
      rfl
    · cases hpath

/-! ## Proper trees -/

mutual

/-- Whether the names at and below an entry are proper, and different in each directory. -/
def Item.isProper : Item → Bool
  | .file name _ | .link name _ => Name.isProper name
  | .directory name items => Name.isProper name && FileTree.areProper items

/-- Whether the entries of a directory are proper and have different names. -/
def FileTree.areProper : List Item → Bool
  | [] => true
  | item :: rest =>
    item.isProper && !(rest.map Item.name).contains item.name && FileTree.areProper rest

end

theorem Item.isProper_name {item : Item} (h : item.isProper = true) :
    Name.isProper item.name = true := by
  cases item with
  | file name content => exact h
  | link name target => exact h
  | directory name items => exact (Bool.and_eq_true_iff.mp h).1

namespace FileTree

variable {items : List Item} {item : Item} {name : Name}

theorem areProper_cons {rest : List Item} :
    areProper (item :: rest) = true ↔
      item.isProper = true ∧ item.name ∉ rest.map Item.name ∧ areProper rest = true := by
  simp [areProper, and_assoc]

theorem isProper_of_mem (h : areProper items = true) (hitem : item ∈ items) :
    item.isProper = true := by
  induction items with
  | nil => cases hitem
  | cons first rest ih =>
    obtain ⟨hfirst, -, hrest⟩ := areProper_cons.mp h
    rcases List.mem_cons.mp hitem with rfl | hitem
    · exact hfirst
    · exact ih hrest hitem

theorem nodup_names (h : areProper items = true) : (items.map Item.name).Nodup := by
  induction items with
  | nil => exact List.nodup_nil
  | cons first rest ih =>
    obtain ⟨-, hnew, hrest⟩ := areProper_cons.mp h
    exact List.nodup_cons.mpr ⟨hnew, ih hrest⟩

/-- In a proper directory an entry is found by its name. -/
theorem find?_eq_some_iff (h : areProper items = true) :
    find? items name = some item ↔ item ∈ items ∧ item.name = name := by
  constructor
  · intro hfind
    exact ⟨List.mem_of_find?_eq_some hfind, by simpa using List.find?_some hfind⟩
  · rintro ⟨hmem, rfl⟩
    induction items with
    | nil => cases hmem
    | cons first rest ih =>
      obtain ⟨-, hnew, hrest⟩ := areProper_cons.mp h
      unfold find?
      rcases List.mem_cons.mp hmem with rfl | hmem
      · simp
      · have hne : first.name ≠ item.name := fun heq => hnew (heq ▸ List.mem_map_of_mem hmem)
        rw [List.find?_cons_of_neg (by simpa using hne)]
        exact ih hrest hmem

/-! ## The way down -/

theorem content?_singleton (items : List Item) (name : Name) :
    content? items [name] =
      match find? items name with
      | some (.file _ content) => some content
      | _ => none := by
  rcases hfind : find? items name with _ | ⟨_, _⟩ | ⟨_, _⟩ | ⟨_, _⟩ <;>
    simp [content?, contents?, hfind]

theorem content?_cons (items : List Item) (name next : Name) (rest : List Name) :
    content? items (name :: next :: rest) =
      match find? items name with
      | some (.directory _ inner) => content? inner (next :: rest)
      | _ => none := by
  unfold content?
  rw [List.dropLast_cons_cons, List.getLast?_cons_cons, contents?]
  rcases find? items name with _ | ⟨_, _⟩ | ⟨_, _⟩ | ⟨_, _⟩ <;> rfl

theorem contents?_append (items : List Item) (location names : Location) :
    contents? items (location ++ names) =
      (contents? items location).bind (contents? · names) := by
  induction location generalizing items with
  | nil => rfl
  | cons name rest ih =>
    rw [List.cons_append, contents?, contents?]
    rcases find? items name with _ | ⟨_, _⟩ | ⟨_, inner⟩ | ⟨_, _⟩
    · rfl
    · rfl
    · exact ih inner
    · rfl

theorem content?_nil (names : Location) : content? [] names = none := by
  rcases names with _ | ⟨name, _ | ⟨next, rest⟩⟩
  · rfl
  · rw [content?_singleton]
    rfl
  · rw [content?_cons]
    rfl

/-- A file is found from a directory above it. -/
theorem content?_append (location : Location) {names : Location} (hnames : names ≠ []) :
    content? items (location ++ names) = content? ((contents? items location).getD []) names := by
  cases hinner : contents? items location with
  | none =>
    rw [Option.getD_none, content?_nil, content?, List.dropLast_append_of_ne_nil hnames,
      contents?_append, hinner]
    rfl
  | some inner =>
    rw [Option.getD_some, content?, List.dropLast_append_of_ne_nil hnames,
      List.getLast?_append_of_ne_nil _ hnames, contents?_append, hinner, Option.bind_some]
    rfl

theorem areProper_contents? (location : Location) (h : areProper items = true) :
    areProper ((contents? items location).getD []) = true := by
  induction location generalizing items with
  | nil => exact h
  | cons name rest ih =>
    rw [contents?]
    split
    · rename_i _ inner hfind
      have hproper := isProper_of_mem h (List.mem_of_find?_eq_some hfind)
      exact ih (Bool.and_eq_true_iff.mp hproper).2
    · rfl

end FileTree

end ProjectOutline
