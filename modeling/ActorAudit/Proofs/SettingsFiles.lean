import ActorAudit.CommandLine.SettingsSource
import Mathlib.Data.List.Basic
import Mathlib.Data.Prod.Lex
import Mathlib.Order.Bounds.Basic

/-!
# Which settings file is read

A project file is known by its place: how many levels above the working directory, and whether its name is hidden.
The search looks at the places in their lexicographic order, so the file it finds is the one at the least place.
-/

namespace ActorAudit

/-! ## Levels -/

namespace Path

/-- The directory so many levels above another one. -/
def above? : Nat → String → Option String
  | 0, directory => some directory
  | up + 1, directory => (parent? directory).bind (above? up)

theorem getElem?_ancestors (directory : String) (up : Nat) : (ancestors directory)[up]? = above? up directory := by
  induction up generalizing directory with
  | zero =>
    rw [ancestors]
    rfl
  | succ up ih =>
    rw [ancestors, List.getElem?_cons_succ, above?]
    split
    · rename_i p hp
      rw [hp, ih]
      rfl
    · rename_i hp
      rw [hp]
      rfl

theorem components_of_parent?_eq_none {path : String} (h : parent? path = none) :
    components path = [] ∨ components path = [.root] := by
  unfold parent? at h
  split at h
  · rename_i hsplit
    simp [components, hsplit]
  · rename_i first rest hsplit
    split at h
    · cases h
    · rename_i hdrop
      have hfirst : first = [] := by
        by_contra hne
        simp [hne] at h
      by_cases hnil : rest = []
      · simp [components, hsplit, hfirst, hnil]
      · simp [components_eq hsplit (.inr hnil), hfirst, filterMap_of_dropWhile_isVoid_eq_nil hdrop, leading]

/-- The directory at a level is the working directory without so many components at the end; the root cannot be
taken away. -/
theorem exists_above?_iff {directory : String} {up : Nat} {kept : List Component} :
    (∃ a, above? up directory = some a ∧ components a = kept) ↔
      ∃ gone, gone.length = up ∧ .root ∉ gone ∧ components directory = kept ++ gone := by
  induction up generalizing directory with
  | zero => simp [above?]
  | succ up ih =>
    rw [above?]
    cases hp : parent? directory with
    | none =>
      simp only [Option.bind_none, reduceCtorEq, false_and, exists_false, false_iff]
      -- what cannot be left has no component but the root
      rintro ⟨gone, hlength, hroot, hsplit⟩
      rcases components_of_parent?_eq_none hp with hnone | hnone
      · simp_all
      · rw [hnone, eq_comm, List.append_eq_singleton_iff] at hsplit
        rcases hsplit with ⟨-, rfl⟩ | ⟨-, rfl⟩
        · simp at hroot
        · simp at hlength
    | some p =>
      obtain ⟨c, hc, hdirectory⟩ := components_parent? hp
      rw [Option.bind_some, ih, hdirectory]
      constructor
      · rintro ⟨gone, hlength, hroot, hsplit⟩
        exact ⟨gone ++ [c], by simp [hlength], by simp [hroot, Ne.symm hc], by simp [hsplit]⟩
      · rintro ⟨gone, hlength, hroot, hsplit⟩
        rcases List.eq_nil_or_concat' gone with rfl | ⟨init, last, rfl⟩
        · simp at hlength
        · rw [← List.append_assoc] at hsplit
          refine ⟨init, by simpa using hlength, fun hmem => hroot (List.mem_append_left _ hmem), ?_⟩
          exact (List.append_inj' hsplit rfl).1

/-! ## Files in a directory -/

theorem components_append_slash {path : String} (h : path ≠ "") :
    components (String.ofList (path.toList ++ ['/'])) = components path := by
  obtain ⟨first, rest, hsplit⟩ := List.exists_cons_of_ne_nil (Text.splitAtChar_ne_nil '/' path.toList)
  have hslash : Text.splitAtChar '/' (String.ofList (path.toList ++ ['/'])).toList = first :: (rest ++ [[]]) := by
    rw [String.toList_ofList, Text.splitAtChar_concat List.not_mem_nil, hsplit, List.cons_append]
  have hne : first ≠ [] ∨ rest ≠ [] := by
    by_contra hnil
    obtain ⟨rfl, rfl⟩ : first = [] ∧ rest = [] := by simpa using hnil
    exact h (String.toList_eq_nil_iff.mp (Text.eq_nil_of_splitAtChar_eq hsplit))
  rw [components_eq hslash (.inr (by simp)), components_eq hsplit hne]
  simp [component?]

/-- What stands behind the last slash is a component more. -/
theorem components_of_slash {path : String} {before piece : List Char} (h : path.toList = before ++ '/' :: piece)
    (hpiece : '/' ∉ piece) :
    components path = components (String.ofList (before ++ ['/'])) ++ (component? piece).toList := by
  obtain ⟨first, rest, hsplit⟩ := List.exists_cons_of_ne_nil (Text.splitAtChar_ne_nil '/' before)
  have hpath : Text.splitAtChar '/' path.toList = first :: (rest ++ [piece]) := by
    rw [h, Text.splitAtChar_concat hpiece, hsplit, List.cons_append]
  have hslash : Text.splitAtChar '/' (String.ofList (before ++ ['/'])).toList = first :: (rest ++ [[]]) := by
    rw [String.toList_ofList, Text.splitAtChar_concat List.not_mem_nil, hsplit, List.cons_append]
  rw [components_eq hpath (.inr (by simp)), components_eq hslash (.inr (by simp))]
  have hnil : component? [] = none := rfl
  cases hc : component? piece <;> simp [hc, hnil]

theorem components_of_name {name : String} (hname : component? name.toList = some (.normal name))
    (hslash : '/' ∉ name.toList) : components name = [.normal name] := by
  have hne : name.toList ≠ [] := by
    intro hnil
    simp [hnil, component?] at hname
  have hleading : leading name.toList = [.normal name] := by
    unfold leading
    split <;> simp_all [component?]
  rw [components_eq (Text.splitAtChar_of_not_mem hslash) (.inl hne), hleading]
  rfl

end Path

/-- A name in a directory is one component more than the directory. -/
theorem CommandLine.components_join {name : String} (hname : Path.component? name.toList = some (.normal name))
    (hslash : '/' ∉ name.toList) (directory : String) :
    Path.components (join directory name) = Path.components directory ++ [.normal name] := by
  unfold join
  split
  · rename_i hnone
    have hempty : directory = "" := String.toList_eq_nil_iff.mp (List.getLast?_eq_none_iff.mp hnone)
    rw [hempty, Path.components_of_name hname hslash]
    rfl
  · rename_i hlast
    obtain ⟨before, hbefore⟩ := List.getLast?_eq_some_iff.mp hlast
    have hpath : (directory ++ name).toList = before ++ '/' :: name.toList := by simp [hbefore]
    rw [Path.components_of_slash hpath hslash, hname, ← hbefore, String.ofList_toList]
    rfl
  · rename_i hlast hother
    have hpath : (directory ++ "/" ++ name).toList = directory.toList ++ '/' :: name.toList := by simp
    have hne : directory ≠ "" := by
      rintro rfl
      simp at hother
    rw [Path.components_of_slash hpath hslash, hname, Path.components_append_slash hne]
    rfl

/-! ## Places -/

/-- In a list in strictly increasing order, what is found first is least. -/
theorem find?_eq_some_iff_isLeast {α : Type} [Preorder α] {l : List α} (h : l.Pairwise (· < ·)) {p : α → Bool}
    {a : α} : l.find? p = some a ↔ IsLeast {x | x ∈ l ∧ p x = true} a := by
  rw [List.find?_eq_some_iff_append]
  constructor
  · rintro ⟨ha, before, after, rfl, hbefore⟩
    refine ⟨⟨by simp, ha⟩, fun x ⟨hx, hpx⟩ => ?_⟩
    rw [List.pairwise_append, List.pairwise_cons] at h
    rcases List.mem_append.mp hx with hx | hx
    · have hnot := hbefore x hx
      simp [hpx] at hnot
    · rcases List.mem_cons.mp hx with rfl | hx
      · exact le_refl x
      · exact (h.2.1.1 x hx).le
  · rintro ⟨⟨hmem, ha⟩, hleast⟩
    obtain ⟨before, after, rfl⟩ := List.append_of_mem hmem
    refine ⟨ha, before, after, rfl, fun x hx => ?_⟩
    -- one that is found before `a` would be less
    have hlt : x < a := (List.pairwise_append.mp h).2.2 x hx a List.mem_cons_self
    by_contra hpx
    exact absurd (hleast ⟨List.mem_append_left _ hx, by simpa using hpx⟩) (not_le_of_gt hlt)

namespace CommandLine.SettingsSource

def projectName (hidden : Bool) : String := if hidden then ".actor-lint.toml" else "actor-lint.toml"

/-- The path of the project file at a place. -/
def fileAt? (directory : String) (place : ℕ ×ₗ Bool) : Option String :=
  (Path.above? (ofLex place).1 directory).map (join · (projectName (ofLex place).2))

/-- The project file at a place has the components of the working directory, less those of the levels, and its name. -/
theorem exists_fileAt?_iff {directory : String} {up : Nat} {hidden : Bool} {kept : List Path.Component} :
    (∃ path, fileAt? directory (toLex (up, hidden)) = some path ∧
        Path.components path = kept ++ [.normal (projectName hidden)]) ↔
      ∃ gone, gone.length = up ∧ .root ∉ gone ∧ Path.components directory = kept ++ gone := by
  have hjoin (d : String) : Path.components (join d (projectName hidden)) =
      Path.components d ++ [.normal (projectName hidden)] := by
    cases hidden <;> exact components_join (by decide) (by decide) d
  rw [← Path.exists_above?_iff]
  simp [fileAt?, hjoin]

/-- The places of the project files that there are. -/
def filesAbove (isFile : String → Bool) (directory : String) : Set (ℕ ×ₗ Bool) :=
  {place | ∃ path, fileAt? directory place = some path ∧ isFile path = true}

def places (levels : Nat) : List (ℕ ×ₗ Bool) :=
  (List.range levels).flatMap fun up => [toLex (up, false), toLex (up, true)]

theorem pairwise_places (levels : Nat) : (places levels).Pairwise (· < ·) := by
  unfold places
  rw [List.pairwise_flatMap]
  constructor
  · intro up _
    simp [Prod.Lex.toLex_lt_toLex]
  · refine List.pairwise_lt_range.imp fun hlt => ?_
    simp [Prod.Lex.toLex_lt_toLex, hlt]

theorem mem_places {levels : Nat} {place : ℕ ×ₗ Bool} : place ∈ places levels ↔ (ofLex place).1 < levels := by
  obtain ⟨⟨up, hidden⟩, rfl⟩ := toLex.surjective place
  cases hidden <;> simp [places]

theorem flatMap_range_getElem? {α β : Type} (l : List α) (f : α → List β) :
    (List.range l.length).flatMap (fun i => l[i]?.toList.flatMap f) = l.flatMap f := by
  induction l with
  | nil => rfl
  | cons a l ih =>
    rw [List.length_cons, List.range_succ_eq_map, List.flatMap_cons, List.flatMap_map]
    simp [ih]

theorem projectCandidates_eq (directory : String) :
    projectCandidates directory = (places (Path.ancestors directory).length).filterMap (fileAt? directory) := by
  unfold places projectCandidates
  rw [List.filterMap_flatMap, ← flatMap_range_getElem?]
  congr 1
  funext up
  rw [Path.getElem?_ancestors]
  cases h : Path.above? up directory <;> simp [fileAt?, h, projectNames, projectName]

theorem lt_length_ancestors {directory path : String} {place : ℕ ×ₗ Bool}
    (h : fileAt? directory place = some path) : (ofLex place).1 < (Path.ancestors directory).length := by
  obtain ⟨a, ha, -⟩ := Option.map_eq_some_iff.mp h
  rw [← Path.getElem?_ancestors] at ha
  exact (List.getElem?_eq_some_iff.mp ha).1

theorem filesAbove_eq (isFile : String → Bool) (directory : String) : filesAbove isFile directory =
    {place | place ∈ places (Path.ancestors directory).length ∧ (fileAt? directory place).any isFile = true} := by
  ext place
  constructor
  · intro ⟨path, hpath, hfile⟩
    exact ⟨mem_places.mpr (lt_length_ancestors hpath), by simp [hpath, hfile]⟩
  · intro ⟨_, hany⟩
    exact (Option.any_eq_true _ _).mp hany

theorem find?_projectCandidates {isFile : String → Bool} {directory path : String} :
    (projectCandidates directory).find? isFile = some path ↔
      ∃ place, IsLeast (filesAbove isFile directory) place ∧ fileAt? directory place = some path := by
  rw [projectCandidates_eq, List.find?_filterMap, Option.bind_eq_some_iff, filesAbove_eq]
  simp only [find?_eq_some_iff_isLeast (pairwise_places _)]

theorem find?_projectCandidates_eq_none {isFile : String → Bool} {directory : String} :
    (projectCandidates directory).find? isFile = none ↔ filesAbove isFile directory = ∅ := by
  rw [projectCandidates_eq, List.find?_eq_none, Set.eq_empty_iff_forall_notMem]
  constructor
  · intro h place ⟨path, hpath, hfile⟩
    have hmem := mem_places.mpr (lt_length_ancestors hpath)
    exact h path (List.mem_filterMap.mpr ⟨place, hmem, hpath⟩) hfile
  · intro h path hmem hfile
    obtain ⟨place, -, hpath⟩ := List.mem_filterMap.mp hmem
    exact h place ⟨path, hpath, hfile⟩

/-! ## The source of the settings -/

/-- How settings are found, from the path that is given and the global directory. -/
inductive Found (isFile : String → Bool) (directory : String) :
    Option String → Option String → SettingsSource → Prop
  | explicit {path globalDirectory} : Found isFile directory (some path) globalDirectory (.explicit path)
  | project {place path globalDirectory} : IsLeast (filesAbove isFile directory) place →
      fileAt? directory place = some path → Found isFile directory none globalDirectory (.project path)
  | global {dir} : filesAbove isFile directory = ∅ → isFile (join dir "config.toml") = true →
      Found isFile directory none (some dir) (.global (join dir "config.toml"))
  | default {globalDirectory} : filesAbove isFile directory = ∅ →
      (∀ dir, globalDirectory = some dir → isFile (join dir "config.toml") = false) →
      Found isFile directory none globalDirectory .default

theorem found_resolve (isFile : String → Bool) (directory : String) (given globalDirectory : Option String) :
    Found isFile directory given globalDirectory (resolve isFile directory given globalDirectory) := by
  unfold resolve
  cases given with
  | some path => exact .explicit
  | none =>
    cases hfind : (projectCandidates directory).find? isFile with
    | some path =>
      obtain ⟨place, hleast, hpath⟩ := find?_projectCandidates.mp hfind
      exact .project hleast hpath
    | none =>
      have hempty := find?_projectCandidates_eq_none.mp hfind
      cases globalDirectory with
      | none => exact .default hempty (by simp)
      | some dir =>
        show Found _ _ _ _ (if isFile (join dir "config.toml") then _ else _)
        split
        · rename_i hfile
          exact .global hempty hfile
        · rename_i hfile
          exact .default hempty (by simpa using hfile)

theorem Found.unique {isFile : String → Bool} {directory : String} {given globalDirectory : Option String}
    {s t : SettingsSource} (h : Found isFile directory given globalDirectory s)
    (h' : Found isFile directory given globalDirectory t) : s = t := by
  cases h with
  | explicit => cases h'; rfl
  | project hleast hpath =>
    cases h' with
    | project hleast' hpath' =>
      rw [hleast.unique hleast', hpath'] at hpath
      cases hpath
      rfl
    | global hempty _ => simp [hempty, IsLeast] at hleast
    | default hempty _ => simp [hempty, IsLeast] at hleast
  | global hempty hfile =>
    cases h' with
    | project hleast' _ => simp [hempty, IsLeast] at hleast'
    | global => rfl
    | default _ hnone =>
      rw [hnone _ rfl] at hfile
      cases hfile
  | default hempty hnone =>
    cases h' with
    | project hleast' _ => simp [hempty, IsLeast] at hleast'
    | global _ hfile =>
      rw [hnone _ rfl] at hfile
      cases hfile
    | default => rfl

theorem Found.congr {isFile isFile' : String → Bool} {directory : String} {given globalDirectory : Option String}
    {source : SettingsSource} (hfiles : filesAbove isFile directory = filesAbove isFile' directory)
    (hglobal : ∀ dir, globalDirectory = some dir → isFile (join dir "config.toml") = isFile' (join dir "config.toml"))
    (h : Found isFile directory given globalDirectory source) :
    Found isFile' directory given globalDirectory source := by
  cases h with
  | explicit => exact .explicit
  | project hleast hpath => exact .project (hfiles ▸ hleast) hpath
  | global hempty hfile => exact .global (hfiles ▸ hempty) (hglobal _ rfl ▸ hfile)
  | default hempty hnone => exact .default (hfiles ▸ hempty) fun dir hdir => hglobal dir hdir ▸ hnone dir hdir

/-- The source of the settings is the one that the order of preference determines. It depends on no file but the
project files on the way up and the one in the global directory; and a project file has the components of the working
directory, less as many as the levels it is above, and its name. -/
theorem resolve_spec (isFile : String → Bool) (directory : String) (given globalDirectory : Option String) :
    (∀ source, resolve isFile directory given globalDirectory = source ↔
      Found isFile directory given globalDirectory source) ∧
    (∀ isFile' : String → Bool,
      (∀ place path, fileAt? directory place = some path → isFile path = isFile' path) →
      (∀ dir, globalDirectory = some dir → isFile (join dir "config.toml") = isFile' (join dir "config.toml")) →
      resolve isFile' directory given globalDirectory = resolve isFile directory given globalDirectory) ∧
    ∀ up hidden kept, (∃ path, fileAt? directory (toLex (up, hidden)) = some path ∧
        Path.components path = kept ++ [.normal (projectName hidden)]) ↔
      ∃ gone, gone.length = up ∧ .root ∉ gone ∧ Path.components directory = kept ++ gone := by
  have hfound := found_resolve isFile directory given globalDirectory
  refine ⟨fun source => ⟨?_, ?_⟩, ?_, fun up hidden kept => exists_fileAt?_iff⟩
  · rintro rfl
    exact hfound
  · intro h
    exact hfound.unique h
  · intro isFile' hproject hglobal
    have hfiles : filesAbove isFile directory = filesAbove isFile' directory := by
      ext place
      refine exists_congr fun path => and_congr_right fun hpath => ?_
      rw [hproject place path hpath]
    exact (found_resolve isFile' directory given globalDirectory).unique (hfound.congr hfiles hglobal)

/-- A near hidden file is preferred to a plain one further up, whether there are notes beside it or not. -/
theorem resolve_spec_shop :
    let isFile : String → Bool := fun p => p = "/srv/shop/.actor-lint.toml" || p = "/srv/actor-lint.toml"
    let isFile' : String → Bool := fun p => isFile p || p = "/srv/shop/notes.txt"
    resolve isFile "/srv/shop" none none = .project "/srv/shop/.actor-lint.toml" ∧
    (∀ place path, fileAt? "/srv/shop" place = some path → isFile path = isFile' path) ∧
    resolve isFile' "/srv/shop" none none = resolve isFile "/srv/shop" none none := by
  intro isFile isFile'
  obtain ⟨hspec, hsame, -⟩ := resolve_spec isFile "/srv/shop" none none
  have hsrv : Path.parent? "/srv/shop" = some "/srv" := by decide
  have hroot : Path.parent? "/srv" = some "/" := by decide
  have hend : Path.parent? "/" = none := by decide
  have hleast : IsLeast (filesAbove isFile "/srv/shop") (toLex (0, true)) := by
    refine ⟨⟨_, rfl, by decide⟩, fun place ⟨path, hpath, hfile⟩ => ?_⟩
    obtain ⟨⟨up, hidden⟩, rfl⟩ := toLex.surjective place
    rw [Prod.Lex.toLex_le_toLex]
    rcases up with _ | up
    · cases hidden with
      | false =>
        cases hpath
        cases hfile
      | true => exact .inr ⟨rfl, le_refl true⟩
    · exact .inl (Nat.zero_lt_succ up)
  have hagree : ∀ place path, fileAt? "/srv/shop" place = some path → isFile path = isFile' path := by
    intro place path hpath
    obtain ⟨⟨up, hidden⟩, rfl⟩ := toLex.surjective place
    rcases up with _ | _ | _ | up
    · cases hidden <;> cases hpath <;> decide
    · have h1 : Path.above? 1 "/srv/shop" = some "/srv" := by simp [Path.above?, hsrv]
      simp [fileAt?, h1] at hpath
      cases hidden <;> cases hpath <;> decide
    · have h2 : Path.above? 2 "/srv/shop" = some "/" := by simp [Path.above?, hsrv, hroot]
      simp [fileAt?, h2] at hpath
      cases hidden <;> cases hpath <;> decide
    · have h3 : Path.above? (up + 3) "/srv/shop" = none := by simp [Path.above?, hsrv, hroot, hend]
      simp [fileAt?, h3] at hpath
  exact ⟨(hspec _).mpr (.project hleast rfl), hagree, hsame isFile' hagree (by simp)⟩

end CommandLine.SettingsSource

end ActorAudit
