import ActorAudit.Proofs.Settling

/-!
# The order of locations

A file is told by the components that its text spells: the text is cut at its slashes, empty pieces and dots
are dropped, a slash at the start and a dot at the start are kept. Every text spells one list of components.
Locations are ordered by these lists, then by line and column, and the ties of this total order are the
locations that are the same.
-/

namespace ActorAudit

open Std

namespace Path

/-! ## The components of a text -/

/-- What a text keeps of its start: the root for a slash, and a dot that is a piece of its own. -/
def opening : List Char → List Component
  | '/' :: _ => [.root]
  | ['.'] => [.current]
  | '.' :: '/' :: _ => [.current]
  | _ => []

/-- The components that pieces without slashes stand for, the start of the path apart. -/
inductive Kept : List (List Char) → List Component → Prop
  | nil : Kept [] []
  | empty {pieces : List (List Char)} {cs : List Component} : Kept pieces cs → Kept ([] :: pieces) cs
  | dot {pieces : List (List Char)} {cs : List Component} : Kept pieces cs → Kept (['.'] :: pieces) cs
  | parent {pieces : List (List Char)} {cs : List Component} : Kept pieces cs →
      Kept (['.', '.'] :: pieces) (.parent :: cs)
  | normal {pieces : List (List Char)} {cs : List Component} {name : String} : name ∉ ["", ".", ".."] →
      Kept pieces cs → Kept (name.toList :: pieces) (.normal name :: cs)

/-- The text of a file, put together from pieces with a slash between each two, has these components. -/
def Spells (file : String) (cs : List Component) : Prop :=
  ∃ pieces kept, pieces ≠ [] ∧ (∀ piece ∈ pieces, '/' ∉ piece) ∧ ['/'].intercalate pieces = file.toList ∧
    Kept pieces kept ∧ cs = opening file.toList ++ kept

theorem component?_of_name {name : String} (h : name ∉ ["", ".", ".."]) :
    component? name.toList = some (.normal name) := by
  have hne (text : String) (ht : text ∈ ["", ".", ".."]) : name.toList ≠ text.toList :=
    fun heq => h (String.toList_injective heq ▸ ht)
  unfold component?
  split
  · exact absurd ‹_› (hne "" (by simp))
  · exact absurd ‹_› (hne "." (by simp))
  · exact absurd ‹_› (hne ".." (by simp))
  · rw [String.ofList_toList]

theorem kept_iff {pieces : List (List Char)} {cs : List Component} :
    Kept pieces cs ↔ pieces.filterMap component? = cs := by
  constructor
  · intro h
    induction h with
    | nil => rfl
    | empty _ ih => exact ih
    | dot _ ih => exact ih
    | parent _ ih => exact congrArg (.parent :: ·) ih
    | normal hname _ ih => rw [List.filterMap_cons_some (component?_of_name hname), ih]
  · rintro rfl
    induction pieces with
    | nil => exact .nil
    | cons piece pieces ih =>
      by_cases hempty : piece = []
      · subst hempty
        exact .empty ih
      by_cases hdot : piece = ['.']
      · subst hdot
        exact .dot ih
      by_cases hparent : piece = ['.', '.']
      · subst hparent
        exact .parent ih
      have hname : String.ofList piece ∉ ["", ".", ".."] := by
        simp only [List.mem_cons, List.not_mem_nil, or_false, not_or, ← String.toList_inj, String.toList_ofList]
        exact ⟨hempty, hdot, hparent⟩
      have hpiece := component?_of_name hname
      rw [String.toList_ofList] at hpiece
      rw [List.filterMap_cons_some hpiece]
      simpa using Kept.normal hname ih

theorem opening_of_name {first : List Char} {rest : List (List Char)} (hempty : first ≠ []) (hdot : first ≠ ['.'])
    (h : '/' ∉ first) : opening (['/'].intercalate (first :: rest)) = [] := by
  obtain ⟨c, piece, rfl⟩ := List.exists_cons_of_ne_nil hempty
  simp only [List.mem_cons, not_or] at h
  have htext : ∃ tail, ['/'].intercalate ((c :: piece) :: rest) = c :: (piece ++ tail) := by
    cases rest with
    | nil => exact ⟨[], by simp⟩
    | cons second rest => exact ⟨'/' :: ['/'].intercalate (second :: rest), by simp⟩
  obtain ⟨tail, htext⟩ := htext
  rw [htext]
  cases piece with
  | nil =>
    have hc : c ≠ '.' := fun hc => hdot (hc ▸ rfl)
    unfold opening
    split <;> simp_all
  | cons d piece =>
    unfold opening
    split <;> simp_all

theorem components_eq_opening (file : String) :
    components file = opening file.toList ++ (Text.splitAtChar '/' file.toList).filterMap component? := by
  have hcut := Text.intercalate_splitAtChar '/' file.toList
  have hclean : ∀ piece ∈ Text.splitAtChar '/' file.toList, '/' ∉ piece :=
    fun _ hp => Text.not_mem_of_mem_splitAtChar hp
  unfold components
  cases hsplit : Text.splitAtChar '/' file.toList with
  | nil => exact absurd hsplit (Text.splitAtChar_ne_nil _ _)
  | cons first rest =>
    rw [hsplit] at hcut hclean
    rw [← hcut]
    by_cases hempty : first = []
    · subst hempty
      cases rest <;> rfl
    by_cases hdot : first = ['.']
    · subst hdot
      cases rest <;> rfl
    rw [opening_of_name hempty hdot (hclean first List.mem_cons_self), List.nil_append]
    cases hfirst : component? first with
    | none => simp [hfirst]
    | some c => simp [hfirst]

/-- Every text spells one list of components, the one that locations are told apart by. -/
theorem spells_iff {file : String} {cs : List Component} : Spells file cs ↔ cs = components file := by
  constructor
  · rintro ⟨pieces, kept, hne, hclean, hfile, hkept, rfl⟩
    obtain ⟨first, rest, rfl⟩ := List.exists_cons_of_ne_nil hne
    rw [components_eq_opening, ← kept_iff.mp hkept, ← hfile, Text.splitAtChar_intercalate hclean]
  · rintro rfl
    exact ⟨Text.splitAtChar '/' file.toList, _, Text.splitAtChar_ne_nil _ _,
      fun _ hp => Text.not_mem_of_mem_splitAtChar hp, Text.intercalate_splitAtChar _ _, kept_iff.mpr rfl,
      components_eq_opening file⟩

/-! ## The order of components -/

/-- The root comes before a dot, a dot before two, two dots before every name; names stand in the order of their
texts. -/
inductive Component.Before : Component → Component → Prop
  | rank {c d : Component} : c.rank < d.rank → Before c d
  | name {m n : String} : compare m n = .lt → Before (.normal m) (.normal n)

theorem Component.compare_eq_lt_iff {c d : Component} : compare c d = .lt ↔ c.Before d := by
  have h : compare c d = .lt ↔ c.rank < d.rank ∨ c.rank = d.rank ∧ compare c.name d.name = .lt := by
    change (compare c.rank d.rank).then (compare c.name d.name) = .lt ↔ _
    rw [Ordering.then_eq_lt, Nat.compare_eq_lt, Nat.compare_eq_eq]
  rw [h]
  constructor
  · rintro (hrank | ⟨hrank, hlt⟩)
    · exact .rank hrank
    · -- components of one rank are equal, names apart
      cases c <;> cases d <;> cases hrank
      case normal.normal.refl => exact .name hlt
      all_goals exact absurd hlt (by decide)
  · rintro (hrank | hlt)
    · exact .inl hrank
    · exact .inr ⟨rfl, hlt⟩

theorem compare_eq_lt_iff_lex {cs ds : List Component} : compare cs ds = .lt ↔ cs.Lex Component.Before ds := by
  rw [List.compare_eq_compareLex]
  induction cs generalizing ds with
  | nil => cases ds <;> simp [List.compareLex]
  | cons c cs ih =>
    cases ds with
    | nil => simp [List.compareLex]
    | cons d ds =>
      rw [List.compareLex_cons_cons, Ordering.then_eq_lt, ih, Component.compare_eq_lt_iff,
        Std.compare_eq_iff_eq, List.cons_lex_cons_iff]

end Path

namespace Location

theorem same_iff {a b : Location} : a.same b = true ↔
    Path.components a.file = Path.components b.file ∧ a.line = b.line ∧ a.column = b.column := by
  simp [same, and_assoc]

theorem compare_eq_lt_iff {a b : Location} : compare a b = .lt ↔
    (Path.components a.file).Lex Path.Component.Before (Path.components b.file) ∨
      Path.components a.file = Path.components b.file ∧
        (a.line < b.line ∨ a.line = b.line ∧ a.column < b.column) := by
  change (compare (Path.components a.file) (Path.components b.file)).then
    ((compare a.line b.line).then (compare a.column b.column)) = .lt ↔ _
  rw [Ordering.then_eq_lt, Ordering.then_eq_lt, Path.compare_eq_lt_iff_lex, Std.compare_eq_iff_eq,
    Std.compare_eq_lt, Std.compare_eq_iff_eq, Std.compare_eq_lt]

theorem compare_total (a b : Location) : (compare a b).isLE = true ∨ (compare b a).isLE = true := by
  have h : compare b a = (compare a b).swap := OrientedCmp.eq_swap
  rw [h]
  cases compare a b <;> simp

/-- Locations are totally ordered by the components that their files spell, by line and by column, and they tie
when they are the same. The same locations compare alike with every other. -/
theorem compare_total_order (a b c : Location) :
    (∃ p q, (∀ cs, Path.Spells a.file cs ↔ cs = p) ∧ (∀ cs, Path.Spells b.file cs ↔ cs = q) ∧
      (a.same b = true ↔ p = q ∧ a.line = b.line ∧ a.column = b.column) ∧
      (compare a b = .lt ↔ p.Lex Path.Component.Before q ∨
        p = q ∧ (a.line < b.line ∨ a.line = b.line ∧ a.column < b.column))) ∧
    ((compare a b).isLE = true ∨ (compare b a).isLE = true) ∧
    compare b a = (compare a b).swap ∧
    (compare a b = .eq ↔ a.same b = true) ∧
    ((compare a b).isLE = true → (compare b a).isLE = true → a.same b = true) ∧
    ((compare a b).isLE = true → (compare b c).isLE = true → (compare a c).isLE = true) ∧
    (compare a b = .lt → compare b c = .lt → compare a c = .lt) ∧
    (a.same b = true → compare a c = compare b c ∧ compare c a = compare c b) := by
  refine ⟨⟨_, _, fun cs => Path.spells_iff, fun cs => Path.spells_iff, same_iff, compare_eq_lt_iff⟩,
    compare_total a b, OrientedCmp.eq_swap, compare_eq_iff_same, ?_, TransCmp.isLE_trans, TransCmp.lt_trans, ?_⟩
  · intro hle hge
    exact compare_eq_iff_same.mp (OrientedCmp.isLE_antisymm hle hge)
  · intro hsame
    have heq := compare_eq_iff_same.mpr hsame
    exact ⟨TransCmp.congr_left heq, TransCmp.congr_right heq⟩

/-- Two texts of one file; a dot at the start makes another. -/
example : same ⟨"src//./Order.cs/", 3, 1⟩ ⟨"src/Order.cs", 3, 1⟩ = true ∧
    same ⟨"./Order.cs", 3, 1⟩ ⟨"Order.cs", 3, 1⟩ = false := by decide

/-- Texts may stand in the other order than their components. -/
example : compare "a.b" "a/b" = .lt ∧ compare (⟨"a/b", 1, 1⟩ : Location) ⟨"a.b", 1, 1⟩ = .lt := by decide

end Location

end ActorAudit
