/-!
# Splitting at a character

`splitAtChar sep cs` cuts `cs` at every `sep`; the pieces never hold `sep`, and there is always at
least one.
-/

namespace ActorAudit.Text

def splitAtChar (sep : Char) : List Char → List (List Char)
  | [] => [[]]
  | c :: cs =>
    if c = sep then [] :: splitAtChar sep cs
    else
      match splitAtChar sep cs with
      | [] => [[c]]
      | piece :: pieces => (c :: piece) :: pieces

def commaSeparated (s : String) : List String :=
  (splitAtChar ',' s.toList).map String.ofList

theorem splitAtChar_ne_nil (sep : Char) (cs : List Char) : splitAtChar sep cs ≠ [] := by
  fun_cases splitAtChar sep cs <;> simp

theorem eq_nil_of_splitAtChar_eq {sep : Char} {cs : List Char} (h : splitAtChar sep cs = [[]]) : cs = [] := by
  cases cs with
  | nil => rfl
  | cons c cs =>
    rw [splitAtChar] at h
    split at h
    · exact absurd (List.cons.inj h).2 (splitAtChar_ne_nil sep cs)
    · split at h <;> simp at h

theorem not_mem_of_mem_splitAtChar {sep : Char} {cs piece : List Char}
    (h : piece ∈ splitAtChar sep cs) : sep ∉ piece := by
  fun_induction splitAtChar sep cs generalizing piece with
  | case1 => simp_all
  | case2 cs ih =>
    rcases List.mem_cons.mp h with rfl | h
    · simp
    · exact ih h
  | case3 c cs hc heq ih =>
    rw [List.mem_singleton.mp h]
    simp [Ne.symm hc]
  | case4 c cs hc first rest heq ih =>
    rcases List.mem_cons.mp h with rfl | h
    · simpa [Ne.symm hc] using ih (heq ▸ List.mem_cons_self)
    · exact ih (heq ▸ List.mem_cons_of_mem _ h)

theorem splitAtChar_of_not_mem {sep : Char} {piece : List Char} (h : sep ∉ piece) :
    splitAtChar sep piece = [piece] := by
  induction piece with
  | nil => rfl
  | cons c piece ih =>
    simp only [List.mem_cons, not_or] at h
    rw [splitAtChar, if_neg (Ne.symm h.1), ih h.2]

theorem splitAtChar_append {sep : Char} {piece : List Char} (h : sep ∉ piece) (cs : List Char) :
    splitAtChar sep (piece ++ sep :: cs) = piece :: splitAtChar sep cs := by
  induction piece with
  | nil => rw [List.nil_append, splitAtChar, if_pos rfl]
  | cons c piece ih =>
    simp only [List.mem_cons, not_or] at h
    rw [List.cons_append, splitAtChar, if_neg (Ne.symm h.1), ih h.2]

theorem splitAtChar_concat {sep : Char} {piece : List Char} (h : sep ∉ piece) (cs : List Char) :
    splitAtChar sep (cs ++ sep :: piece) = splitAtChar sep cs ++ [piece] := by
  induction cs with
  | nil => simp [splitAtChar, splitAtChar_of_not_mem h]
  | cons c cs ih =>
    rw [List.cons_append, splitAtChar, splitAtChar, ih]
    split
    · rfl
    · cases hcs : splitAtChar sep cs with
      | nil => exact absurd hcs (splitAtChar_ne_nil sep cs)
      | cons first rest => rfl

theorem splitAtChar_intercalate {sep : Char} {first : List Char} {rest : List (List Char)}
    (h : ∀ piece ∈ first :: rest, sep ∉ piece) :
    splitAtChar sep ([sep].intercalate (first :: rest)) = first :: rest := by
  induction rest generalizing first with
  | nil => simpa using splitAtChar_of_not_mem (h first List.mem_cons_self)
  | cons second rest ih =>
    have hrest := ih fun piece hp => h piece (List.mem_cons_of_mem _ hp)
    have hcut := splitAtChar_append (h first List.mem_cons_self) ([sep].intercalate (second :: rest))
    rw [hrest] at hcut
    simpa using hcut

theorem intercalate_splitAtChar (sep : Char) (cs : List Char) : [sep].intercalate (splitAtChar sep cs) = cs := by
  induction cs with
  | nil => rfl
  | cons c cs ih =>
    rw [splitAtChar]
    cases hcs : splitAtChar sep cs with
    | nil => exact absurd hcs (splitAtChar_ne_nil sep cs)
    | cons first rest =>
      rw [hcs] at ih
      split
      · rename_i hc
        rw [hc, List.intercalate_cons_cons, ih]
        rfl
      · -- the character goes in front of the first piece, whether others follow it or not
        cases rest with
        | nil => simpa using ih
        | cons second rest => simpa using ih

end ActorAudit.Text
