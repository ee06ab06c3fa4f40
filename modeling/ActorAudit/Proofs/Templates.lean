import ActorAudit.Template
import Mathlib

/-!
# One pass over a template

`Cuts` says how a template is read, rule by rule and without the functions that read it: where an opening brace
opens a slot, and where it is text like any other character. A template is cut in one way only, before any
argument is known. Filling it puts the arguments in place of the slots, whatever braces they hold.
-/

namespace ActorAudit.Template

/-! ## Slots -/

/-- The number that decimal digits stand for, the first digit the most significant. -/
def value (ds : List Char) : Nat := Nat.ofDigits 10 (ds.reverse.map fun c => c.toNat - '0'.toNat)

/-- The text is a number below 2^64: decimal digits, with or without a plus sign before them. -/
def IsNumeral (cs : List Char) (n : Nat) : Prop :=
  ∃ ds, (cs = ds ∨ cs = '+' :: ds) ∧ ds ≠ [] ∧ (∀ c ∈ ds, c.isDigit = true) ∧ value ds = n ∧ n < 2 ^ 64

/-- An opening brace before `cs` opens slot `i`, and `rest` stands after it: the text up to the next closing
brace is the number `i`, and there is such an argument. -/
def Opens (arity : Nat) (cs : List Char) (i : Nat) (rest : List Char) : Prop :=
  ∃ inside, cs = inside ++ '\x7d' :: rest ∧ '\x7d' ∉ inside ∧ IsNumeral inside i ∧ i < arity

theorem value_cons (c : Char) (ds : List Char) :
    value (c :: ds) = (c.toNat - '0'.toNat) * 10 ^ ds.length + value ds := by
  unfold value
  rw [List.reverse_cons, List.map_append, Nat.ofDigits_append]
  simp [Nat.add_comm, Nat.mul_comm]

theorem digits?_eq_some_iff {ds : List Char} {k n : Nat} : digits? ds k = some n ↔
    (∀ c ∈ ds, c.isDigit = true) ∧ k * 10 ^ ds.length + value ds = n := by
  induction ds generalizing k with
  | nil => simp [digits?, value]
  | cons c ds ih =>
    rw [digits?, value_cons, List.length_cons]
    by_cases hc : c.isDigit = true
    · have hshift : (k * 10 + (c.toNat - '0'.toNat)) * 10 ^ ds.length + value ds =
          k * 10 ^ (ds.length + 1) + ((c.toNat - '0'.toNat) * 10 ^ ds.length + value ds) := by ring
      rw [if_pos hc, ih, hshift]
      simp [hc]
    · simp [hc]

def unsigned : List Char → List Char
  | '+' :: ds => ds
  | ds => ds

theorem isNumeral_iff {cs : List Char} {n : Nat} : IsNumeral cs n ↔
    unsigned cs ≠ [] ∧ digits? (unsigned cs) 0 = some n ∧ n < 2 ^ 64 := by
  rw [digits?_eq_some_iff, Nat.zero_mul, Nat.zero_add]
  constructor
  · rintro ⟨ds, hcs, hne, hall, hn⟩
    have hds : unsigned cs = ds := by
      rcases hcs with rfl | rfl
      · unfold unsigned
        split
        · -- a plus sign is no digit
          exact absurd (hall '+' List.mem_cons_self) (by decide)
        · rfl
      · rfl
    rw [hds]
    exact ⟨hne, ⟨hall, hn.1⟩, hn.2⟩
  · rintro ⟨hne, ⟨hall, hn⟩, hlt⟩
    refine ⟨unsigned cs, ?_, hne, hall, hn, hlt⟩
    unfold unsigned
    split
    · exact .inr rfl
    · exact .inl rfl

theorem index?_eq_some_iff {cs : List Char} {n : Nat} : index? cs = some n ↔ IsNumeral cs n := by
  rw [isNumeral_iff]
  unfold index?
  extract_lets ds
  have hds : ds = unsigned cs := rfl
  clear_value ds
  subst hds
  by_cases hnil : unsigned cs = []
  · simp [hnil]
  · rw [if_neg (by simpa using hnil)]
    split
    · rename_i m hm
      rw [hm, Option.some.injEq]
      by_cases hlt : m < UInt64.size
      · rw [if_pos hlt, Option.some.injEq]
        exact ⟨fun h => ⟨hnil, h, h ▸ hlt⟩, fun h => h.2.1⟩
      · rw [if_neg hlt]
        constructor
        · intro h
          cases h
        · intro ⟨_, h, h'⟩
          exact absurd (h ▸ h') hlt
    · rename_i hm
      simp [hm]

theorem upToBrace_eq_some_iff {cs inside rest : List Char} :
    upToBrace cs = some (inside, rest) ↔ cs = inside ++ '\x7d' :: rest ∧ '\x7d' ∉ inside := by
  constructor
  · intro h
    fun_induction upToBrace cs generalizing inside with
    | case1 => cases h
    | case2 => simp_all
    | case3 c cs hc before after heq ih =>
      cases h
      obtain ⟨rfl, hin⟩ := ih heq
      exact ⟨rfl, by simp [hin, Ne.symm hc]⟩
    | case4 => cases h
  · rintro ⟨rfl, hin⟩
    induction inside with
    | nil => simp [upToBrace]
    | cons c inside ih =>
      simp only [List.mem_cons, not_or] at hin
      rw [List.cons_append, upToBrace, if_neg (Ne.symm hin.1), ih hin.2]

theorem slot?_eq_some_iff {arity i : Nat} {cs rest : List Char} :
    slot? arity cs = some (i, rest) ↔ Opens arity cs i rest := by
  unfold slot? Opens
  constructor
  · intro h
    split at h
    · rename_i inside after hinside
      split at h
      · rename_i n hindex
        split at h
        · cases h
          obtain ⟨hcs, hin⟩ := upToBrace_eq_some_iff.mp hinside
          exact ⟨inside, hcs, hin, index?_eq_some_iff.mp hindex, by assumption⟩
        · cases h
      · cases h
    · cases h
  · rintro ⟨inside, hcs, hin, hindex, hlt⟩
    simp only [upToBrace_eq_some_iff.mpr ⟨hcs, hin⟩, index?_eq_some_iff.mpr hindex, if_pos hlt]

/-! ## The cut -/

/-- How a template is cut for a number of arguments, from left to right. -/
inductive Cuts (arity : Nat) : List Char → List Piece → Prop
  | nil : Cuts arity [] []
  | text {c cs ps} : c ≠ '\x7b' → Cuts arity cs ps → Cuts arity (c :: cs) (.literal c :: ps)
  | slot {cs rest ps i} : Opens arity cs i rest → Cuts arity rest ps → Cuts arity ('\x7b' :: cs) (.slot i :: ps)
  | brace {cs ps} : (∀ i rest, ¬Opens arity cs i rest) → Cuts arity cs ps →
      Cuts arity ('\x7b' :: cs) (.literal '\x7b' :: ps)

theorem Opens.unique {arity i j : Nat} {cs rest rest' : List Char} (h : Opens arity cs i rest)
    (h' : Opens arity cs j rest') : i = j ∧ rest = rest' := by
  rw [← slot?_eq_some_iff] at h h'
  simpa [h] using h'

theorem cuts_pieces (arity : Nat) (cs : List Char) : Cuts arity cs (pieces arity cs) := by
  fun_induction pieces arity cs with
  | case1 => exact .nil
  | case2 cs i rest hslot ih => exact .slot (slot?_eq_some_iff.mp hslot) ih
  | case3 cs hslot ih =>
    refine .brace (fun i rest ho => ?_) ih
    rw [slot?_eq_some_iff.mpr ho] at hslot
    cases hslot
  | case4 c cs hc ih => exact .text hc ih

theorem Cuts.unique {arity : Nat} {cs : List Char} {ps qs : List Piece} (h : Cuts arity cs ps)
    (h' : Cuts arity cs qs) : ps = qs := by
  induction h generalizing qs with
  | nil =>
    cases h'
    rfl
  | text hc _ ih =>
    cases h' with
    | text _ h' => rw [ih h']
    | slot _ _ => exact absurd rfl hc
    | brace _ _ => exact absurd rfl hc
  | slot ho _ ih =>
    cases h' with
    | text hc _ => exact absurd rfl hc
    | slot ho' h' =>
      obtain ⟨rfl, rfl⟩ := ho.unique ho'
      rw [ih h']
    | brace hn _ => exact absurd ho (hn _ _)
  | brace hn _ ih =>
    cases h' with
    | text hc _ => exact absurd rfl hc
    | slot ho _ => exact absurd ho (hn _ _)
    | brace _ h' => rw [ih h']

theorem Cuts.lt_arity {arity i : Nat} {cs : List Char} {ps : List Piece} (h : Cuts arity cs ps)
    (hi : .slot i ∈ ps) : i < arity := by
  induction h with
  | nil => cases hi
  | text _ _ ih => exact ih (by simpa using hi)
  | slot ho _ ih =>
    obtain ⟨_, _, _, _, hlt⟩ := ho
    rcases List.mem_cons.mp hi with heq | hi
    · cases heq
      exact hlt
    · exact ih hi
  | brace _ _ ih => exact ih (by simpa using hi)

/-! ## Filling -/

/-- What stands in the filled text for a piece: the character itself, or the argument as it is. -/
inductive Piece.Shows (args : List String) : Piece → String → Prop
  | literal (c : Char) : Shows args (.literal c) (String.singleton c)
  | slot {i : Nat} {arg : String} : args[i]? = some arg → Shows args (.slot i) arg

theorem Piece.shows_text {args : List String} {p : Piece} (h : ∀ i, p = .slot i → i < args.length) :
    p.Shows args (String.ofList (p.text args)) := by
  cases p with
  | literal c => exact .literal c
  | slot i =>
    have hi := h i rfl
    refine .slot ?_
    simp [text, hi]

/-- A template is cut in exactly one way for a number of arguments, and filling it with so many arguments joins the
characters of the cut as they are and the arguments its slots name as they are, in the order of the cut. -/
theorem fill_eq_join (template : String) (arity : Nat) :
    ∃! ps, Cuts arity template.toList ps ∧ ∀ args : List String, args.length = arity →
      ∃ texts, List.Forall₂ (Piece.Shows args) ps texts ∧ fill template args = String.join texts := by
  have hcut := cuts_pieces arity template.toList
  refine ⟨pieces arity template.toList, ⟨hcut, ?_⟩, fun qs h => h.1.unique hcut⟩
  rintro args rfl
  refine ⟨(pieces args.length template.toList).map fun p => String.ofList (p.text args), ?_, ?_⟩
  · refine List.forall₂_map_right_iff.mpr (List.forall₂_same.mpr fun p hp => Piece.shows_text ?_)
    rintro i rfl
    exact hcut.lt_arity hp
  · simp [fill, ← String.toList_inj, List.flatMap_map]

/-- Arguments with slots of their own, and braces in the template that open nothing: nested, out of range and
never closed. -/
theorem fill_eq_join_nested :
    let template := "\x7b1\x7d of \x7b\x7b+0\x7d, \x7b2\x7d \x7b0"
    let args := ["\x7b1\x7d", "\x7b0\x7d"]
    args.length = 2 ∧ fill template args = "\x7b0\x7d of \x7b\x7b1\x7d, \x7b2\x7d \x7b0" ∧
      ∃ ps, Cuts 2 template.toList ps ∧
        ∃ texts, List.Forall₂ (Piece.Shows args) ps texts ∧ fill template args = String.join texts := by
  intro template args
  obtain ⟨ps, ⟨hcut, hfill⟩, -⟩ := fill_eq_join template 2
  have hlength : args.length = 2 := rfl
  exact ⟨hlength, by cbv, ps, hcut, hfill args hlength⟩

end ActorAudit.Template
