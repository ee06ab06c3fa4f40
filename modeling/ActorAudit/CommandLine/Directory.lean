import ActorAudit.Location

/-!
# Directories

Paths of directories, going up from one to those it lies in. Going up takes the last component away and
leaves the text before it as it was written.
-/

namespace ActorAudit.Path

/-- Whether a piece between slashes stands for no component: it is empty, or a dot. -/
def isVoid (piece : List Char) : Bool := (component? piece).isNone

/-- A path from its pieces between slashes; an empty piece alone is the root. -/
def ofPieces : List Char → List (List Char) → String
  | [], [] => "/"
  | first, rest => String.ofList (['/'].intercalate (first :: rest))

/-- The path that a path lies in. The root and the empty path lie in none, a single name lies in the empty
path. -/
def parent? (path : String) : Option String :=
  match Text.splitAtChar '/' path.toList with
  | [] => none
  | first :: rest =>
    match rest.reverse.dropWhile isVoid with
    | _ :: before => some (ofPieces first (before.dropWhile isVoid).reverse)
    | [] => if first.isEmpty then none else some ""

/-! ## Components on the way up -/

/-- The component that the first piece of a path stands for, where the path is not empty. -/
def leading : List Char → List Component
  | [] => [.root]
  | ['.'] => [.current]
  | piece => (component? piece).toList

theorem components_eq {path : String} {first : List Char} {rest : List (List Char)}
    (h : Text.splitAtChar '/' path.toList = first :: rest) (hne : first ≠ [] ∨ rest ≠ []) :
    components path = leading first ++ rest.filterMap component? := by
  unfold components
  rw [h]
  by_cases hfirst : first = []
  · have hrest : rest.isEmpty = false := by simpa [hfirst] using hne
    simp [hfirst, hrest, leading]
  · by_cases hdot : first = ['.']
    · simp [hdot, leading]
    · simp [leading]

theorem components_ofPieces {first : List Char} {rest : List (List Char)}
    (h : ∀ piece ∈ first :: rest, '/' ∉ piece) :
    components (ofPieces first rest) = leading first ++ rest.filterMap component? := by
  unfold ofPieces
  split
  · rfl
  · -- splitting gives the pieces back, since none of them holds a slash
    rename_i hne
    refine components_eq ?_ ?_
    · rw [String.toList_ofList, Text.splitAtChar_intercalate h]
    · by_cases hfirst : first = []
      · exact .inr fun hrest => hne hfirst hrest
      · exact .inl hfirst

theorem filterMap_dropWhile_isVoid (pieces : List (List Char)) :
    (pieces.dropWhile isVoid).reverse.filterMap component? = pieces.reverse.filterMap component? := by
  induction pieces with
  | nil => rfl
  | cons piece pieces ih =>
    rw [List.dropWhile_cons]
    split
    · rename_i hvoid
      rw [ih, List.reverse_cons, List.filterMap_append]
      simp [Option.isNone_iff_eq_none.mp hvoid]
    · rfl

/-- The last piece that stands for a component. -/
theorem of_dropWhile_isVoid {pieces before : List (List Char)} {last : List Char}
    (h : pieces.reverse.dropWhile isVoid = last :: before) :
    (∀ piece ∈ before, piece ∈ pieces) ∧
      ∃ c, component? last = some c ∧ pieces.filterMap component? = before.reverse.filterMap component? ++ [c] := by
  have hlast : isVoid last = false := by
    have := List.head?_dropWhile_not isVoid pieces.reverse
    simpa [h] using this
  obtain ⟨c, hc⟩ : ∃ c, component? last = some c := by
    simpa [isVoid, Option.isNone_eq_false_iff, Option.isSome_iff_exists] using hlast
  refine ⟨fun piece hp => ?_, c, hc, ?_⟩
  · have hmem := (List.dropWhile_sublist isVoid).mem (h ▸ List.mem_cons_of_mem last hp)
    exact List.mem_reverse.mp hmem
  · have hkept := filterMap_dropWhile_isVoid pieces.reverse
    rw [List.reverse_reverse, h] at hkept
    rw [← hkept]
    simp [hc]

theorem filterMap_of_dropWhile_isVoid_eq_nil {pieces : List (List Char)}
    (h : pieces.reverse.dropWhile isVoid = []) : pieces.filterMap component? = [] := by
  have hkept := filterMap_dropWhile_isVoid pieces.reverse
  rw [h, List.reverse_reverse] at hkept
  exact hkept.symm

theorem component?_ne_root (piece : List Char) : component? piece ≠ some .root := by
  unfold component?
  split <;> simp

theorem leading_of_ne_nil {first : List Char} (h : first ≠ []) : ∃ c, c ≠ .root ∧ leading first = [c] := by
  unfold leading
  split
  · exact absurd rfl h
  · exact ⟨.current, by decide, rfl⟩
  · rename_i hdot
    cases hc : component? first with
    | none =>
      unfold component? at hc
      split at hc <;> simp_all
    | some c => exact ⟨c, fun hroot => component?_ne_root first (hroot ▸ hc), rfl⟩

/-- Going up takes away one component, which is not the root. -/
theorem components_parent? {path p : String} (h : parent? path = some p) :
    ∃ c, c ≠ .root ∧ components path = components p ++ [c] := by
  unfold parent? at h
  split at h
  · cases h
  · rename_i first rest hsplit
    have hclean : ∀ piece ∈ first :: rest, '/' ∉ piece := by
      intro piece hp
      exact Text.not_mem_of_mem_splitAtChar (hsplit ▸ hp)
    split at h
    · rename_i last before hdrop
      cases h
      obtain ⟨hmem, c, hc, hrest⟩ := of_dropWhile_isVoid hdrop
      have hbefore : ∀ piece ∈ first :: (before.dropWhile isVoid).reverse, '/' ∉ piece := by
        intro piece hp
        apply hclean
        rcases List.mem_cons.mp hp with rfl | hp
        · exact List.mem_cons_self
        · have hp := (List.dropWhile_sublist isVoid).mem (List.mem_reverse.mp hp)
          exact List.mem_cons_of_mem first (hmem piece hp)
      have hne : rest ≠ [] := by
        rintro rfl
        simp at hdrop
      refine ⟨c, fun hroot => component?_ne_root last (hroot ▸ hc), ?_⟩
      rw [components_ofPieces hbefore, filterMap_dropWhile_isVoid, components_eq hsplit (.inr hne), hrest,
        List.append_assoc]
    · rename_i hdrop
      split at h
      · cases h
      · rename_i hfirst
        cases h
        have hname : first ≠ [] := by simpa using hfirst
        obtain ⟨c, hroot, hc⟩ := leading_of_ne_nil hname
        refine ⟨c, hroot, ?_⟩
        rw [components_eq hsplit (.inl hname), hc, filterMap_of_dropWhile_isVoid_eq_nil hdrop]
        rfl

/-- A path and those it lies in, nearest first. -/
def ancestors (path : String) : List String :=
  path ::
    match _h : parent? path with
    | some p => ancestors p
    | none => []
termination_by (components path).length
decreasing_by
  obtain ⟨c, -, hc⟩ := components_parent? _h
  simp [hc]

end ActorAudit.Path
