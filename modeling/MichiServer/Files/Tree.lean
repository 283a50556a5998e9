import Mathlib.Data.List.Infix
import Mathlib.Data.List.Nodup
import Mathlib.Data.Nat.Notation

/-!
# File trees and path resolution

A tree of files, directories and symbolic links, and how an operating system resolves a path in it:
component by component from the root or from the working directory, `..` to the parent of the
directory that has been reached, a link by the components of its target, and no more than a number of
links on the way. A path is its bytes.

A place in a tree is the list of names that lead to it from the root. Resolution ends at a place that
is not a link; there the names lead back without any link (`resolve_render`). Where no link is met,
resolution is what the text of the path says (`walk_lexical`).
-/

namespace MichiServer.Files

abbrev Path := List UInt8

def slash : UInt8 := 47

def dot : UInt8 := 46

structure IsName (bytes : List UInt8) : Prop where
  nonempty : bytes ≠ []
  not_current : bytes ≠ [dot]
  not_parent : bytes ≠ [dot, dot]
  no_slash : slash ∉ bytes
  no_nul : 0 ∉ bytes

instance (bytes : List UInt8) : Decidable (IsName bytes) :=
  decidable_of_iff (bytes ≠ [] ∧ bytes ≠ [dot] ∧ bytes ≠ [dot, dot] ∧ slash ∉ bytes ∧ 0 ∉ bytes)
    ⟨fun ⟨h₁, h₂, h₃, h₄, h₅⟩ => ⟨h₁, h₂, h₃, h₄, h₅⟩,
      fun h => ⟨h.nonempty, h.not_current, h.not_parent, h.no_slash, h.no_nul⟩⟩

@[ext] structure FileName where
  bytes : List UInt8
  is_name : IsName bytes
deriving DecidableEq

abbrev Location := List FileName

inductive Node (F : Type) where
  | file (content : F)
  | dir (entries : List (FileName × Node F))
  | link (target : Path)

def isAbsolute (path : Path) : Bool := path.head? == some slash

def startOf (loc : Location) (path : Path) : Location := if isAbsolute path then [] else loc

def components (path : Path) : List (List UInt8) := path.splitOn slash

def join (base path : Path) : Path :=
  if isAbsolute path then path
  else if base.isEmpty || base.getLast? == some slash then base ++ path
  else base ++ slash :: path

def render : Location → Path
  | [] => [slash]
  | names => names.flatMap fun n => slash :: n.bytes

namespace Node

variable {F : Type}

def entry? (entries : List (FileName × Node F)) (bytes : List UInt8) :
    Option (FileName × Node F) :=
  entries.find? fun e => e.1.bytes == bytes

def find : Node F → Location → Option (Node F)
  | node, [] => some node
  | .dir entries, n :: rest =>
    match entry? entries n.bytes with
    | some (_, child) => child.find rest
    | none => none
  | .file _, _ :: _ => none
  | .link _, _ :: _ => none

def isLink : Node F → Bool
  | .link _ => true
  | _ => false

/-- Where a walk along components ends, if it does not fail. At a link it goes on by `follow`. -/
def walkUntilLink (root : Node F) (follow : Location → List (List UInt8) → Option Location)
    (loc : Location) : List (List UInt8) → Option Location
  | [] => some loc
  | c :: rest =>
    match root.find loc with
    | some (.dir entries) =>
      if c = [] ∨ c = [dot] then root.walkUntilLink follow loc rest
      else if c = [dot, dot] then root.walkUntilLink follow loc.dropLast rest
      else
        match entry? entries c with
        | none => none
        | some (_, .link target) => follow (startOf loc target) (components target ++ rest)
        | some (name, _) => root.walkUntilLink follow (loc ++ [name]) rest
    | _ => none

def walk (root : Node F) : ℕ → Location → List (List UInt8) → Option Location
  | 0 => root.walkUntilLink fun _ _ => none
  | links + 1 => root.walkUntilLink (root.walk links)

def maxLinks : ℕ := 40

/-- Where a path leads from a working directory: `canonicalize`, and what opening the path opens. -/
def resolve (root : Node F) (cwd : Location) (path : Path) : Option Location :=
  if path = [] then none
  else root.walk maxLinks (startOf cwd path) (components path)

def Real (root : Node F) (loc : Location) : Prop :=
  ∃ node, root.find loc = some node ∧ node.isLink = false

/-! ## Places -/

variable {root : Node F} {loc : Location}

@[simp] theorem find_nil (root : Node F) : root.find [] = some root := by
  cases root <;> rfl

theorem find_append (root : Node F) (front back : Location) :
    root.find (front ++ back) = (root.find front).bind fun node => node.find back := by
  induction front generalizing root with
  | nil => simp
  | cons n rest ih =>
    cases root with
    | file content => rfl
    | link target => rfl
    | dir entries =>
      grind [find]

variable {name : FileName} {entries : List (FileName × Node F)}

theorem dir_of_find_snoc {node : Node F} (h : root.find (loc ++ [name]) = some node) :
    ∃ entries other, root.find loc = some (.dir entries) ∧
      entry? entries name.bytes = some (other, node) := by
  rw [find_append] at h
  obtain ⟨parent, hparent, hchild⟩ := Option.bind_eq_some_iff.mp h
  cases parent with
  | file content => cases hchild
  | link target => cases hchild
  | dir entries =>
    grind [find]

theorem entry_bytes {bytes : List UInt8}
    {child : Node F} (h : entry? entries bytes = some (name, child)) :
    name.bytes = bytes := by
  simpa using List.find?_some h

theorem find_entry {bytes : List UInt8}
    {child : Node F} (hdir : root.find loc = some (.dir entries))
    (h : entry? entries bytes = some (name, child)) : root.find (loc ++ [name]) = some child := by
  rw [find_append, hdir, Option.bind_some]
  simp only [find, entry_bytes h, h]

theorem real_front {front back : Location} (h : root.Real (front ++ back)) : root.Real front := by
  obtain ⟨node, hfind, hlink⟩ := h
  rw [find_append] at hfind
  obtain ⟨above, habove, hbelow⟩ := Option.bind_eq_some_iff.mp hfind
  refine ⟨above, habove, ?_⟩
  cases above with
  | file content => rfl
  | dir entries => rfl
  | link target =>
    cases back with
    | nil =>
      cases hbelow
      exact hlink
    | cons n rest => cases hbelow

theorem real_root (h : root = .dir entries) : root.Real [] :=
  ⟨root, find_nil root, by rw [h]; rfl⟩

theorem real_dropLast (h : root.Real loc) : root.Real loc.dropLast := by
  rcases List.eq_nil_or_concat loc with rfl | ⟨front, last, rfl⟩
  · exact h
  · grind [real_front]

/-! ## Walks -/

/-- What a link leads to in a walk that follows no more than a number of them. -/
def followLink (root : Node F) : ℕ → Location → List (List UInt8) → Option Location
  | 0 => fun _ _ => none
  | links + 1 => root.walk links

theorem walk_eq (root : Node F) (links : ℕ) :
    root.walk links = root.walkUntilLink (root.followLink links) := by
  cases links <;> rfl

@[simp] theorem walk_nil (root : Node F) (links : ℕ) (loc : Location) :
    root.walk links loc [] = some loc := by
  rw [walk_eq, walkUntilLink]

section Steps

variable {links : ℕ} {entries : List (FileName × Node F)} {c : List UInt8}
  (rest : List (List UInt8))

theorem walk_cons (root : Node F) (links : ℕ) (loc : Location) (c : List UInt8) :
    root.walk links loc (c :: rest) =
      match root.find loc with
      | some (.dir entries) =>
        if c = [] ∨ c = [dot] then root.walk links loc rest
        else if c = [dot, dot] then root.walk links loc.dropLast rest
        else
          match entry? entries c with
          | none => none
          | some (_, .link target) =>
            root.followLink links (startOf loc target) (components target ++ rest)
          | some (name, _) => root.walk links (loc ++ [name]) rest
      | _ => none := by
  rw [walk_eq, walkUntilLink]

theorem walk_of_not_dir (hdir : ∀ entries, root.find loc = some (.dir entries) → False) :
    root.walk links loc (c :: rest) = none := by
  simp [walk_cons]

theorem walk_stay (hdir : root.find loc = some (.dir entries)) (hc : c = [] ∨ c = [dot]) :
    root.walk links loc (c :: rest) = root.walk links loc rest := by
  simp only [walk_cons, hdir, if_pos hc]

theorem walk_entry {name : FileName} {child : Node F} (hdir : root.find loc = some (.dir entries))
    (hc : ¬ (c = [] ∨ c = [dot])) (hp : c ≠ [dot, dot])
    (hentry : entry? entries c = some (name, child)) (hlink : ∀ target, child = .link target → False) :
    root.walk links loc (c :: rest) = root.walk links (loc ++ [name]) rest := by
  cases child with
  | link target => exact (hlink target rfl).elim
  | file content => simp only [walk_cons, hdir, if_neg hc, if_neg hp, hentry]
  | dir inner => simp only [walk_cons, hdir, if_neg hc, if_neg hp, hentry]

end Steps

theorem isLink_eq_false {node : Node F} :
    node.isLink = false ↔ ∀ target, node = .link target → False := by
  cases node <;> simp [isLink]

theorem real_start (hroot : root.Real []) (hloc : root.Real loc) (path : Path) :
    root.Real (startOf loc path) := by
  unfold startOf
  split
  · exact hroot
  · exact hloc

/-- A walk from a real place ends at a real place. -/
theorem real_walk {links : ℕ} {comps : List (List UInt8)} {final : Location}
    (hroot : root.Real []) (hloc : root.Real loc) (h : root.walk links loc comps = some final) :
    root.Real final := by
  induction links using Nat.strong_induction_on generalizing loc comps with
  | _ links hlinks =>
    have hfollow : ∀ {loc comps}, root.Real loc → root.followLink links loc comps = some final →
        root.Real final := by
      intro loc comps hloc hend
      cases links with
      | zero => cases hend
      | succ fewer => exact hlinks fewer (Nat.lt_succ_self fewer) hloc hend
    rw [walk_eq] at h
    fun_induction walkUntilLink with
    | case1 => cases h; exact hloc
    | case2 _ _ _ _ _ _ ih => exact ih hloc h
    | case3 _ _ _ _ _ ih => exact ih (real_dropLast hloc) h
    | case4 => cases h
    | case5 _ _ _ _ _ _ _ _ target _ => exact hfollow (real_start hroot hloc target) h
    | case6 _ _ _ _ hdir _ _ name child hlink hentry ih =>
      exact ih ⟨child, find_entry hdir hentry, isLink_eq_false.mpr hlink⟩ h
    | case7 => cases h

theorem real_resolve {cwd : Location} {path : Path} {final : Location} (hroot : root.Real [])
    (hcwd : root.Real cwd) (h : root.resolve cwd path = some final) : root.Real final := by
  unfold resolve at h
  split at h
  · cases h
  · exact real_walk hroot (real_start hroot hcwd path) h

/-- A walk is a walk along its front and, from there, along the rest. -/
theorem walk_append (root : Node F) (links : ℕ) (loc : Location) (front : List (List UInt8)) :
    (root.walk links loc front = none ∧ ∀ back, root.walk links loc (front ++ back) = none) ∨
    ∃ final left, root.walk links loc front = some final ∧
      ∀ back, root.walk links loc (front ++ back) = root.walk left final back := by
  induction links using Nat.strong_induction_on generalizing loc front with
  | _ links hlinks =>
    have hfollow : ∀ loc front,
        (root.followLink links loc front = none ∧
          ∀ back, root.followLink links loc (front ++ back) = none) ∨
        ∃ final left, root.followLink links loc front = some final ∧
          ∀ back, root.followLink links loc (front ++ back) = root.walk left final back := by
      intro loc front
      cases links with
      | zero => exact .inl ⟨rfl, fun _ => rfl⟩
      | succ fewer => exact hlinks fewer (Nat.lt_succ_self fewer) loc front
    induction front generalizing loc with
    | nil => exact .inr ⟨loc, links, walk_nil root links loc, fun back => rfl⟩
    | cons c rest ih =>
      simp only [List.cons_append, walk_cons]
      split
      next entries hdir =>
        split
        · exact ih loc
        · split
          · exact ih loc.dropLast
          · split
            · exact .inl ⟨rfl, fun _ => rfl⟩
            next target _ =>
              have h := hfollow (startOf loc target) (components target ++ rest)
              simpa only [List.append_assoc] using h
            next name child _ _ => exact ih (loc ++ [name])
      · exact .inl ⟨rfl, fun _ => rfl⟩

theorem walk_names (links : ℕ) {names : Location} (h : root.Real (loc ++ names)) :
    root.walk links loc (names.map FileName.bytes) = some (loc ++ names) := by
  induction names generalizing loc with
  | nil => simp
  | cons name rest ih =>
    have happend : loc ++ name :: rest = (loc ++ [name]) ++ rest := by simp
    rw [happend] at h ⊢
    obtain ⟨child, hchild, hlink⟩ := real_front h
    obtain ⟨entries, other, hdir, hentry⟩ := dir_of_find_snoc hchild
    have hother : other = name := FileName.ext (entry_bytes hentry)
    subst hother
    have hname := other.is_name
    rw [List.map_cons, walk_entry _ hdir (not_or.mpr ⟨hname.nonempty, hname.not_current⟩)
      hname.not_parent hentry (isLink_eq_false.mp hlink)]
    exact ih h

/-! ## Texts of paths -/

theorem components_name (name : FileName) (back : Path) :
    components (name.bytes ++ slash :: back) = name.bytes :: components back :=
  List.splitOn_append_cons_self_of_not_mem name.is_name.no_slash back

/-- A location's path has the names of the location. -/
theorem components_render (names : Location) (hne : names ≠ []) :
    components (render names) = [] :: names.map FileName.bytes := by
  have hnames : ∀ (name : FileName) (rest : Location),
      components (name.bytes ++ rest.flatMap fun n => slash :: n.bytes) =
        name.bytes :: rest.map FileName.bytes := by
    intro name rest
    induction rest generalizing name with
    | nil =>
      rw [List.flatMap_nil, List.append_nil]
      exact List.splitOn_eq_singleton name.is_name.no_slash
    | cons next rest ih =>
      grind [components_name]
  cases names with
  | nil => exact absurd rfl hne
  | cons name rest =>
    have hsplit := List.splitOn_append_cons_self [] (name.bytes ++ rest.flatMap fun n =>
      slash :: n.bytes) (a := slash)
    show components (slash :: (name.bytes ++ rest.flatMap fun n => slash :: n.bytes)) = _
    rw [components, ← List.nil_append (slash :: _), hsplit]
    exact congrArg ([] :: ·) (hnames name rest)

theorem isAbsolute_render (names : Location) : isAbsolute (render names) = true := by
  cases names <;> simp [render, isAbsolute]

theorem render_ne_nil (names : Location) : render names ≠ [] := by
  cases names <;> simp [render]

theorem resolve_render {entries : List (FileName × Node F)} (hroot : root = .dir entries)
    (h : root.Real loc) (cwd : Location) : root.resolve cwd (render loc) = some loc := by
  have hdir : root.find [] = some (.dir entries) := by rw [find_nil, hroot]
  rw [resolve, if_neg (render_ne_nil loc), startOf, if_pos (isAbsolute_render loc)]
  by_cases hnil : loc = []
  · subst hnil
    have hcomps : components (render []) = [[], []] := by decide
    grind [walk_stay, walk_nil]
  · rw [components_render loc hnil, walk_stay _ hdir (.inl rfl)]
    exact walk_names maxLinks h

/-! ## Walks that meet no link -/

def meetsLink (root : Node F) (loc : Location) : List (List UInt8) → Bool
  | [] => false
  | c :: rest =>
    match root.find loc with
    | some (.dir entries) =>
      if c = [] ∨ c = [dot] then root.meetsLink loc rest
      else if c = [dot, dot] then root.meetsLink loc.dropLast rest
      else
        match entry? entries c with
        | none => false
        | some (_, .link _) => true
        | some (name, _) => root.meetsLink (loc ++ [name]) rest
    | _ => false

end Node

def lexical (base : List (List UInt8)) : List (List UInt8) → List (List UInt8)
  | [] => base
  | c :: rest =>
    if c = [] ∨ c = [dot] then lexical base rest
    else if c = [dot, dot] then lexical base.dropLast rest
    else lexical (base ++ [c]) rest

namespace Node

variable {F : Type} {root : Node F} {loc : Location}

/-- A walk that meets no link ends where its text says. -/
theorem walk_lexical {links : ℕ} {comps : List (List UInt8)} {final : Location}
    (hlink : root.meetsLink loc comps = false) (h : root.walk links loc comps = some final) :
    final.map FileName.bytes = lexical (loc.map FileName.bytes) comps := by
  fun_induction meetsLink root loc comps with
  | case1 loc =>
    rw [walk_nil] at h
    cases h
    rfl
  | case2 loc c rest entries hdir hc ih =>
    grind [walk_stay, lexical]
  | case3 loc rest entries hdir hc ih =>
    grind [walk_cons, lexical]
  | case4 loc c rest entries hdir hc hp hentry =>
    grind [walk_cons]
  | case5 => cases hlink
  | case6 loc c rest entries hdir hc hp name child hchild hentry ih =>
    grind [walk_entry, entry_bytes, lexical]
  | case7 loc c rest hdir =>
    rw [walk_of_not_dir rest hdir] at h
    cases h

/-- A walk that meets no link goes to the child of that name first. -/
theorem walk_first {links : ℕ} {c : List UInt8} {rest : List (List UInt8)} {final : Location}
    (hname : IsName c) (hlink : root.meetsLink loc (c :: rest) = false)
    (h : root.walk links loc (c :: rest) = some final) :
    ∃ name, name.bytes = c ∧ root.Real (loc ++ [name]) ∧
      root.meetsLink (loc ++ [name]) rest = false ∧
      root.walk links (loc ++ [name]) rest = some final := by
  have hc : ¬ (c = [] ∨ c = [dot]) := not_or.mpr ⟨hname.nonempty, hname.not_current⟩
  by_cases hdir : ∃ entries, root.find loc = some (.dir entries)
  · obtain ⟨entries, hdir⟩ := hdir
    cases hentry : entry? entries c with
    | none =>
      simp only [walk_cons, hdir, if_neg hc, if_neg hname.not_parent, hentry] at h
      cases h
    | some e =>
      obtain ⟨name, child⟩ := e
      have hchild : child.isLink = false := by
        cases child with
        | link target =>
          simp only [meetsLink, hdir, if_neg hc, if_neg hname.not_parent, hentry] at hlink
          cases hlink
        | file content => rfl
        | dir inner => rfl
      have hrest : root.meetsLink (loc ++ [name]) rest = false := by
        cases child with
        | link target => cases hchild
        | file content =>
          simpa only [meetsLink, hdir, if_neg hc, if_neg hname.not_parent, hentry] using hlink
        | dir inner =>
          simpa only [meetsLink, hdir, if_neg hc, if_neg hname.not_parent, hentry] using hlink
      rw [walk_entry _ hdir hc hname.not_parent hentry (isLink_eq_false.mp hchild)] at h
      exact ⟨name, entry_bytes hentry, ⟨child, find_entry hdir hentry, hchild⟩, hrest, h⟩
  · grind [walk_of_not_dir]

end Node

/-! ## Joined paths -/

structure Joinable (base : Path) : Prop where
  nonempty : base ≠ []
  no_slash : base.getLast? ≠ some slash

theorem join_of_joinable {base path : Path} (h : Joinable base) (hpath : isAbsolute path = false) :
    join base path = base ++ slash :: path := by
  have hne := h.nonempty
  have hlast := h.no_slash
  grind [join]

theorem isAbsolute_of_not_mem {path : Path} (h : slash ∉ path) : isAbsolute path = false := by
  cases path with
  | nil => rfl
  | cons b rest =>
    grind [slash, isAbsolute]

variable {name : List UInt8}

theorem IsName.isAbsolute (h : IsName name) (rest : Path) :
    isAbsolute (name ++ slash :: rest) = false := by
  cases name with
  | nil => exact (h.nonempty rfl).elim
  | cons b tail =>
    have hb : b ≠ slash := fun heq => h.no_slash (by rw [heq]; exact List.mem_cons_self)
    simpa [Files.isAbsolute] using hb

theorem joinable_join (base : Path) (hname : IsName name) :
    Joinable (join base name) := by
  have hlast : ∀ front : Path, (front ++ name).getLast? ≠ some slash := by
    intro front h
    rw [List.getLast?_append_of_ne_nil _ hname.nonempty] at h
    exact hname.no_slash (List.mem_of_getLast? h)
  have hsplit : ∃ front, join base name = front ++ name := by
    rw [join, isAbsolute_of_not_mem hname.no_slash, if_neg Bool.false_ne_true]
    split
    · exact ⟨base, rfl⟩
    · exact ⟨base ++ [slash], by simp⟩
  obtain ⟨front, hfront⟩ := hsplit
  rw [hfront]
  exact ⟨by simp [hname.nonempty], hlast front⟩

theorem join_join_name {base name path : List UInt8} (h : Joinable base) (hname : IsName name)
    (hpath : isAbsolute path = false) :
    join (join base name) path = join base (name ++ slash :: path) := by
  rw [join_of_joinable (joinable_join base hname) hpath, join_of_joinable h (hname.isAbsolute path),
    join_of_joinable h (isAbsolute_of_not_mem hname.no_slash)]
  simp

theorem components_of_name (h : IsName name) : components name = [name] :=
  List.splitOn_eq_singleton h.no_slash

/-- To resolve a relative path joined to a base is to walk on from the base. -/
theorem Node.resolve_join {F : Type} (root : Node F) (cwd : Location) {base : Path}
    (h : Joinable base) :
    (root.resolve cwd base = none ∧
      ∀ path, isAbsolute path = false → root.resolve cwd (join base path) = none) ∨
    ∃ loc left, root.resolve cwd base = some loc ∧ ∀ path, isAbsolute path = false →
      root.resolve cwd (join base path) = root.walk left loc (components path) := by
  have hstart : ∀ path, startOf cwd (base ++ slash :: path) = startOf cwd base := by
    intro path
    unfold startOf
    have habsolute : isAbsolute (base ++ slash :: path) = isAbsolute base := by
      cases base with
      | nil => exact (h.nonempty rfl).elim
      | cons b rest => rfl
    rw [habsolute]
  have hbase : root.resolve cwd base =
      root.walk Node.maxLinks (startOf cwd base) (components base) := by
    rw [Node.resolve, if_neg h.nonempty]
  have hjoin : ∀ path, isAbsolute path = false → root.resolve cwd (join base path) =
      root.walk Node.maxLinks (startOf cwd base) (components base ++ components path) := by
    intro path hpath
    rw [join_of_joinable h hpath, Node.resolve, if_neg (by simp), hstart]
    exact congrArg _ (List.splitOn_append_cons_self base path)
  rcases Node.walk_append root Node.maxLinks (startOf cwd base) (components base) with
    ⟨hnone, hback⟩ | ⟨loc, left, hloc, hback⟩
  · grind
  · exact .inr ⟨loc, left, hbase.trans hloc, fun path hpath => (hjoin path hpath).trans (hback _)⟩

/-- To resolve a name joined to a base is one step from the base. -/
theorem Node.resolve_join_name {F : Type} {root : Node F} {cwd loc : Location} {base : Path}
    (h : root.resolve cwd base = some loc) (name : FileName) :
    ∃ left, root.resolve cwd (join base name.bytes) = root.walk left loc [name.bytes] := by
  have hne : base ≠ [] := by
    rintro rfl
    cases h
  have hrelative := isAbsolute_of_not_mem name.is_name.no_slash
  by_cases hslash : base.getLast? = some slash
  · -- the path ends in a slash, so the name is appended as it is
    obtain ⟨front, rfl⟩ := List.getLast?_eq_some_iff.mp hslash
    have hstart : startOf cwd (front ++ [slash]) = startOf cwd (front ++ slash :: name.bytes) := by
      cases front <;> rfl
    have hcomps : components (front ++ [slash]) = components front ++ [[]] :=
      List.splitOn_append_cons_self front []
    have hjoined : components (front ++ slash :: name.bytes) = components front ++ [name.bytes] := by
      rw [← components_of_name name.is_name]
      exact List.splitOn_append_cons_self front name.bytes
    rw [Node.resolve, if_neg hne, hcomps, hstart] at h
    rw [join, hrelative, if_neg Bool.false_ne_true, if_pos (by simp [hslash]), List.append_assoc,
      List.singleton_append, Node.resolve, if_neg (by simp), hjoined]
    rcases Node.walk_append root Node.maxLinks (startOf cwd (front ++ slash :: name.bytes))
      (components front) with ⟨-, hback⟩ | ⟨reached, left, -, hback⟩
    · rw [hback] at h
      cases h
    · grind [Node.walk_cons, Node.walk_nil]
  · rcases Node.resolve_join root cwd ⟨hne, hslash⟩ with ⟨hnone, -⟩ | ⟨reached, left, hreached, hjoin⟩
    · rw [h] at hnone
      cases hnone
    · rw [h] at hreached
      cases hreached
      exact ⟨left, by rw [hjoin _ hrelative, components_of_name name.is_name]⟩

/-! ## Disks -/

structure Disk (F : Type) where
  entries : List (FileName × Node F)
  cwd : Location
  cwd_real : (Node.dir entries).Real cwd

namespace Disk

variable {F : Type} (disk : Disk F)

def tree : Node F := .dir disk.entries

def resolve (path : Path) : Option Location := disk.tree.resolve disk.cwd path

def openPath (path : Path) : Option (Node F) := (disk.resolve path).bind disk.tree.find

variable {disk}

theorem real_nil : disk.tree.Real [] := Node.real_root rfl

variable {loc : Location}

theorem real_resolve {path : Path} (h : disk.resolve path = some loc) :
    disk.tree.Real loc :=
  Node.real_resolve real_nil disk.cwd_real h

def TwinFree (disk : Disk F) : Prop :=
  ∀ loc entries, disk.tree.find loc = some (.dir entries) → (entries.map Prod.fst).Nodup

theorem TwinFree.find_entry (h : disk.TwinFree)
    {entries : List (FileName × Node F)} {name : FileName} {node : Node F}
    (hdir : disk.tree.find loc = some (.dir entries)) (hmem : (name, node) ∈ entries) :
    disk.tree.find (loc ++ [name]) = some node := by
  apply Node.find_entry hdir
  unfold Node.entry?
  cases hfind : entries.find? fun e => e.1.bytes == name.bytes with
  | none =>
    grind
  | some e =>
    have hname : e.1.bytes = name.bytes := by simpa using List.find?_some hfind
    rw [List.inj_on_of_nodup_map (h loc entries hdir) (List.mem_of_find?_eq_some hfind) hmem
      (FileName.ext hname)]

theorem resolve_render (h : disk.tree.Real loc) :
    disk.resolve (render loc) = some loc :=
  Node.resolve_render rfl h disk.cwd

end Disk

end MichiServer.Files
