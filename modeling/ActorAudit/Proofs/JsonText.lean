import ActorAudit.Json.Reader
import ActorAudit.Json.Writer
import ActorAudit.Proofs.RoundTrip
import Mathlib

/-!
# JSON texts

A value that is written as an indented text is read back as it was. The scanner takes the text apart into the
tokens of the value, with spaces and line breaks between them; and from these tokens the reader builds the
document that holds just the value.
-/

namespace ActorAudit.Json

/-! ## Scanning -/

/-- The scanner takes tokens off a text and is left with the rest. -/
inductive Scans : List Char → List Token → List Char → Prop
  | done {cs} : Scans cs [] cs
  | space {c cs ts rest} : Token.isSpace c = true → Scans cs ts rest → Scans (c :: cs) ts rest
  | token {c cs t cs' ts rest} : Token.isSpace c = false → Token.next (c :: cs) = some (t, cs') →
      cs'.length ≤ cs.length → Scans cs' ts rest → Scans (c :: cs) (t :: ts) rest

namespace Scans

variable {cs cs' rest : List Char} {ts ts' : List Token}

theorem trans (h : Scans cs ts cs') (h' : Scans cs' ts' rest) : Scans cs (ts ++ ts') rest := by
  induction h with
  | done => exact h'
  | space hc _ ih => exact .space hc (ih h')
  | token hc hn hlen _ ih => exact .token hc hn hlen (ih h')

theorem length_le (h : Scans cs ts rest) : ts.length + rest.length ≤ cs.length := by
  induction h with
  | done => simp
  | space _ _ ih => exact Nat.le_succ_of_le ih
  | token _ _ hlen _ ih =>
    simp only [List.length_cons]
    omega

theorem collect_of_isSpace {c : Char} (hc : Token.isSpace c = true) (fuel : Nat) (acc : List Token) :
    Token.collect fuel (c :: cs) acc = Token.collect fuel cs acc := by
  cases fuel with
  | zero => rfl
  | succ fuel => rw [Token.collect, Token.collect, List.dropWhile_cons_of_pos hc]

/-- Every token takes one unit of fuel. -/
theorem collect_eq (h : Scans cs ts rest) (fuel : Nat) (acc : List Token) :
    Token.collect (ts.length + fuel) cs acc = Token.collect fuel rest (ts.reverse ++ acc) := by
  induction h generalizing acc with
  | done => simp
  | space hc _ ih => rw [collect_of_isSpace hc, ih]
  | @token c cs t cs' ts rest hc hn _ _ ih =>
    have hstep : (t :: ts).length + fuel = ts.length + fuel + 1 := by
      simp only [List.length_cons]
      omega
    rw [hstep, Token.collect, List.dropWhile_cons_of_neg (by simp [hc])]
    simp only [hn, ih, List.reverse_cons, List.append_assoc, List.singleton_append]

/-- A text with nothing but spaces behind its tokens. -/
theorem ofText_eq {s : String} (h : Scans s.toList ts rest) (hrest : ∀ c ∈ rest, Token.isSpace c = true) :
    Token.ofText s = ts := by
  have hlen := h.length_le
  obtain ⟨fuel, hfuel⟩ : ∃ fuel, s.toList.length + 1 = ts.length + fuel := ⟨s.toList.length + 1 - ts.length, by omega⟩
  have hblank : Token.collect fuel rest (ts.reverse ++ []) = ts.reverse ++ [] := by
    cases fuel with
    | zero => rfl
    | succ fuel => rw [Token.collect, List.dropWhile_eq_nil_iff.mpr hrest]
  rw [Token.ofText, hfuel, h.collect_eq, hblank, List.append_nil, List.reverse_reverse]

end Scans

/-- What may follow a value: the end, or a character that ends a numeral. -/
def Delimited (rest : List Char) : Prop := ∀ c ∈ rest.head?, c ∈ [',', '\n', ']', '\x7d']

/-- The text is scanned as the tokens, whatever follows that ends it. -/
def Writes (s : String) (ts : List Token) : Prop := ∀ rest, Delimited rest → Scans (s.toList ++ rest) ts rest

/-! ## Numerals -/

theorem Delimited.not_isDigit {rest : List Char} (h : Delimited rest) : ∀ c ∈ rest.head?, c.isDigit = false := by
  intro c hc
  have := h c hc
  fin_cases this <;> rfl

theorem digits_append {ds rest : List Char} (hds : ∀ c ∈ ds, c.isDigit = true) (hrest : Delimited rest) :
    Token.digits (ds ++ rest) = (ds.map fun c => c.toNat - '0'.toNat, rest) := by
  have htake : rest.takeWhile Char.isDigit = [] := by
    cases rest with
    | nil => rfl
    | cons c rest => exact List.takeWhile_cons_of_neg (by simp [hrest.not_isDigit c rfl])
  have hdrop : rest.dropWhile Char.isDigit = rest := by
    cases rest with
    | nil => rfl
    | cons c rest => exact List.dropWhile_cons_of_neg (by simp [hrest.not_isDigit c rfl])
  rw [Token.digits, List.takeWhile_append_of_pos hds, List.dropWhile_append_of_pos hds, htake, hdrop, List.append_nil]

theorem fractionPart_of_delimited {rest : List Char} (h : Delimited rest) :
    Token.fractionPart rest = some ([], rest) := by
  unfold Token.fractionPart
  split
  · have := h '.' rfl
    simp at this
  · rfl

theorem exponentPart_of_delimited {rest : List Char} (h : Delimited rest) :
    Token.exponentPart rest = some (none, rest) := by
  cases rest with
  | nil => rfl
  | cons c rest =>
    have hc : (c == 'e' || c == 'E') = false := by
      have := h c rfl
      fin_cases this <;> rfl
    unfold Token.exponentPart
    simp only [hc, Bool.false_eq_true, if_false]

theorem isDigit_of_mem_toDigits {n : Nat} {c : Char} (h : c ∈ Nat.toDigits 10 n) : c.isDigit = true :=
  Nat.isDigit_of_mem_toDigits (by omega) (by omega) h

theorem ofDigits_toDigits (n : Nat) :
    Token.ofDigits ((Nat.toDigits 10 n).map fun c => c.toNat - '0'.toNat) = n := by
  have h := Nat.ofDigitChars_toDigits (b := 10) (n := n) (by omega) (by omega)
  unfold Nat.ofDigitChars at h
  rw [Token.ofDigits, List.foldl_map]
  simpa only [Nat.mul_comm] using h

/-- Only the numeral of zero begins with a zero. -/
theorem head?_toDigits (n : Nat) : (Nat.toDigits 10 n).head? = some '0' → n = 0 := by
  induction n using Nat.strongRecOn with
  | ind n ih =>
    intro h
    rcases Nat.lt_or_ge n 10 with hn | hn
    · rw [Nat.toDigits_of_lt_base hn] at h
      interval_cases n <;> simp_all
    · rw [Nat.toDigits_of_base_le (by omega) hn, List.head?_append_of_ne_nil _ Nat.toDigits_ne_nil] at h
      have := ih (n / 10) (by omega) h
      omega

/-- The digits of a number make no numeral with a zero too many. -/
theorem whole_toDigits (n : Nat) : let whole := (Nat.toDigits 10 n).map fun c => c.toNat - '0'.toNat
    (whole.isEmpty || (whole.head? == some 0 && whole.length != 1)) = false := by
  intro whole
  have hne : whole.isEmpty = false := by simp [whole, Nat.toDigits_ne_nil]
  rw [hne, Bool.false_or, Bool.and_eq_false_iff, beq_eq_false_iff_ne]
  by_cases hn : n = 0
  · subst hn
    exact .inr rfl
  · refine .inl fun hhead => hn (head?_toDigits n ?_)
    rw [List.head?_map, Option.map_eq_some_iff] at hhead
    obtain ⟨c, hc, hzero⟩ := hhead
    have hdigit := isDigit_of_mem_toDigits (List.mem_of_head? hc)
    have hlow : '0'.toNat ≤ c.toNat := by
      simp only [Char.isDigit, Bool.and_eq_true, decide_eq_true_eq] at hdigit
      exact hdigit.1
    rw [hc, Option.some.injEq, ← Char.toNat_inj]
    omega

theorem numeral_toDigits (negative : Bool) (n : Nat) {rest : List Char} (hrest : Delimited rest) :
    Token.numeral negative (Nat.toDigits 10 n ++ rest) =
      some (if negative then .negated n else .natural n, rest) := by
  rw [Token.numeral, digits_append (fun _ => isDigit_of_mem_toDigits) hrest]
  simp only [whole_toDigits, Bool.false_eq_true, if_false, fractionPart_of_delimited hrest, Option.bind_eq_bind,
    Option.bind_some, exponentPart_of_delimited hrest, ofDigits_toDigits]
  rfl

theorem next_of_isDigit {c : Char} (hc : c.isDigit = true) (cs : List Char) :
    Token.next (c :: cs) = (Token.numeral false (c :: cs)).map fun (n, rest) => (.number n, rest) := by
  unfold Token.next
  -- every other token begins with a character that is no digit
  split <;> first | rfl | simp_all

theorem isSpace_of_isDigit {c : Char} (hc : c.isDigit = true) : Token.isSpace c = false := by
  by_contra h
  simp only [Token.isSpace, Bool.not_eq_false, Bool.or_eq_true, beq_iff_eq] at h
  rcases h with ((rfl | rfl) | rfl) | rfl <;> cases hc

theorem writes_natural (n : Nat) : Writes (Nat.repr n) [.number (.natural n)] := by
  intro rest hrest
  have hnumeral := numeral_toDigits false n hrest
  obtain ⟨c, ds, hds⟩ := List.exists_cons_of_ne_nil (Nat.toDigits_ne_nil (n := n) (b := 10))
  have hc : c.isDigit = true := isDigit_of_mem_toDigits (hds ▸ List.mem_cons_self : c ∈ Nat.toDigits 10 n)
  rw [hds, List.cons_append] at hnumeral
  rw [Nat.repr_eq_ofList_toDigits, String.toList_ofList, hds, List.cons_append]
  refine .token (isSpace_of_isDigit hc) ?_ (by simp) .done
  rw [next_of_isDigit hc, hnumeral]
  rfl

theorem writes_negated (n : Nat) : Writes ("-" ++ Nat.repr n) [.number (.negated n)] := by
  intro rest hrest
  have hnumeral := numeral_toDigits true n hrest
  have htext : ("-" ++ Nat.repr n).toList = '-' :: Nat.toDigits 10 n := by simp
  rw [htext, List.cons_append]
  refine .token rfl ?_ (by simp) .done
  rw [Token.next, hnumeral]
  rfl

theorem writes_integer (n : Int) : Writes (toString n) [.number (numeral n)] := by
  cases n with
  | ofNat n => exact writes_natural n
  | negSucc n => exact writes_negated (n + 1)

/-! ## Strings -/

theorem hex4?_digitChar : ∀ n < 0x20,
    Token.hex4? '0' '0' (Nat.digitChar (n / 16)) (Nat.digitChar (n % 16)) = some n := by decide

theorem stringUnits_escape (c : Char) (cs : List Char) (units : List Nat) :
    Token.stringUnits (escape c ++ cs) units = Token.stringUnits cs (c.toNat :: units) := by
  unfold escape
  split
  case h_8 c hquote hslash hb hf hn hr ht =>
    split
    · rename_i hlow
      simp only [List.cons_append, List.nil_append, Token.stringUnits, hex4?_digitChar _ hlow]
    · rename_i hlow
      rw [List.singleton_append, Token.stringUnits.eq_def]
      split <;> simp_all
  all_goals rfl

theorem stringUnits_quote (cs rest : List Char) (units : List Nat) :
    Token.stringUnits (cs.flatMap escape ++ '"' :: rest) units = some (units.reverse ++ cs.map Char.toNat, rest) := by
  induction cs generalizing units with
  | nil => simp [Token.stringUnits]
  | cons c cs ih => rw [List.flatMap_cons, List.append_assoc, stringUnits_escape, ih]; simp

/-- No character is half of a surrogate pair. -/
theorem joinSurrogates_toNat (cs chars : List Char) :
    Token.joinSurrogates (cs.map Char.toNat) chars = some (chars.reverse ++ cs) := by
  have hvalid (c : Char) : ¬(0xD800 ≤ c.toNat ∧ c.toNat < 0xE000) := by
    rcases c.valid with h | h
    · intro hc
      exact absurd h (Nat.not_lt.mpr hc.1)
    · intro hc
      exact absurd h.1 (Nat.not_lt.mpr (Nat.le_of_lt_succ hc.2))
  induction cs generalizing chars with
  | nil => simp [Token.joinSurrogates]
  | cons c cs ih =>
    have hc := hvalid c
    cases cs with
    | nil => simp [Token.joinSurrogates, hc]
    | cons d cs =>
      have hhigh : ¬(0xD800 ≤ c.toNat ∧ c.toNat < 0xDC00) := by omega
      have hlow : ¬(0xDC00 ≤ c.toNat ∧ c.toNat < 0xE000) := by omega
      rw [List.map_cons, List.map_cons, Token.joinSurrogates, if_neg hhigh, if_neg hlow, ← List.map_cons, ih]
      simp

theorem scans_quote (s : String) (rest : List Char) : Scans ((quote s).toList ++ rest) [.string (some s)] rest := by
  have htext : (quote s).toList ++ rest = '"' :: (s.toList.flatMap escape ++ '"' :: rest) := by simp [quote]
  rw [htext]
  refine .token rfl ?_ ?_ .done
  · rw [Token.next, stringUnits_quote]
    simp [joinSurrogates_toNat]
  · simp only [List.length_append, List.length_cons]
    omega

/-! ## Layout -/

theorem scans_margin (depth : Nat) (cs : List Char) : Scans ((margin depth).toList ++ cs) [] cs := by
  rw [margin, String.toList_ofList]
  induction 2 * depth with
  | zero => exact .done
  | succ n ih => exact .space rfl ih

theorem Writes.indent {s : String} {ts : List Token} (h : Writes s ts) (depth : Nat) :
    Writes (margin depth ++ s) ts := by
  intro rest hrest
  rw [String.toList_append, List.append_assoc]
  exact (scans_margin depth _).trans (h rest hrest)

/-- Values with a comma and a line break between each two. -/
theorem writes_lines {lines : List String} {tss : List (List Token)} (h : List.Forall₂ Writes lines tss)
    (hne : tss ≠ []) : Writes (",\n".intercalate lines) ([.comma].intercalate tss) := by
  induction h with
  | nil => exact absurd rfl hne
  | @cons s ts lines tss hs hrest ih =>
    cases hrest with
    | nil => simpa using hs
    | @cons s' ts' lines tss hs' hrest =>
      intro rest hdelim
      have htext : (",\n".intercalate (s :: s' :: lines)).toList ++ rest =
          s.toList ++ (',' :: '\n' :: ((",\n".intercalate (s' :: lines)).toList ++ rest)) := by
        simp [String.toList_intercalate]
      have hcomma : Delimited (',' :: '\n' :: ((",\n".intercalate (s' :: lines)).toList ++ rest)) := by
        simp [Delimited]
      rw [htext, List.intercalate_cons_cons]
      refine ((hs _ hcomma).trans (.token rfl rfl (by simp) (.space rfl .done))).trans ?_
      exact ih (by simp) rest hdelim

/-- Values between two brackets. -/
theorem writes_block {left right : String} {opening closing : Token}
    (hleft : ∀ cs, Scans (left.toList ++ cs) [opening] cs) (hright : ∀ cs, Scans (right.toList ++ cs) [closing] cs)
    {lines : List String} {tss : List (List Token)} (h : List.Forall₂ Writes lines tss) (depth : Nat) :
    Writes (block depth left right lines) (opening :: [.comma].intercalate tss ++ [closing]) := by
  intro rest _
  unfold block
  cases h with
  | nil =>
    rw [List.isEmpty_nil, if_pos rfl, String.toList_append, List.append_assoc]
    exact (hleft _).trans (hright rest)
  | @cons s ts lines tss hs hrest =>
    have hlines : List.Forall₂ Writes ((s :: lines).map (margin (depth + 1) ++ ·)) (ts :: tss) :=
      List.forall₂_map_left_iff.mpr ((List.Forall₂.cons hs hrest).imp fun _ _ hw => hw.indent _)
    have hbreak : Delimited ('\n' :: ((margin depth).toList ++ (right.toList ++ rest))) := by simp [Delimited]
    have hbody := writes_lines hlines (by simp) _ hbreak
    have hend : Scans ('\n' :: ((margin depth).toList ++ (right.toList ++ rest))) [closing] rest :=
      .space rfl ((scans_margin depth _).trans (hright rest))
    rw [List.isEmpty_cons, if_neg Bool.false_ne_true]
    simp only [String.toList_append, List.append_assoc]
    exact (hleft _).trans (.space rfl (hbody.trans hend))

/-! ## Tokens of a value -/

mutual
def tokens : Json → List Token
  | .null => [.null]
  | .bool b => [.bool b]
  | .integer n => [.number (numeral n)]
  | .string s => [.string (some s)]
  | .array items => .openBracket :: [.comma].intercalate (itemTokens items) ++ [.closeBracket]
  | .object fields => .openBrace :: [.comma].intercalate (fieldTokens fields) ++ [.closeBrace]
def itemTokens : List Json → List (List Token)
  | [] => []
  | j :: js => j.tokens :: itemTokens js
def fieldTokens : List (String × Json) → List (List Token)
  | [] => []
  | (key, j) :: fs => (.string (some key) :: .colon :: j.tokens) :: fieldTokens fs
end

theorem writes_field {s : String} {ts : List Token} (h : Writes s ts) (key : String) :
    Writes (quote key ++ ": " ++ s) (.string (some key) :: .colon :: ts) := by
  intro rest hrest
  have htext : (quote key ++ ": " ++ s).toList ++ rest = (quote key).toList ++ (':' :: ' ' :: (s.toList ++ rest)) := by
    simp
  rw [htext]
  exact (scans_quote key _).trans (.token rfl rfl (by simp) (.space rfl (h rest hrest)))

theorem writes_null : Writes "null" [.null] := by
  intro rest _
  show Scans ('n' :: 'u' :: 'l' :: 'l' :: rest) _ _
  exact .token rfl rfl (by simp only [List.length_cons]; omega) .done

theorem writes_bool (b : Bool) : Writes (if b then "true" else "false") [.bool b] := by
  intro rest _
  cases b with
  | false =>
    show Scans ('f' :: 'a' :: 'l' :: 's' :: 'e' :: rest) _ _
    exact .token rfl rfl (by simp only [List.length_cons]; omega) .done
  | true =>
    show Scans ('t' :: 'r' :: 'u' :: 'e' :: rest) _ _
    exact .token rfl rfl (by simp only [List.length_cons]; omega) .done

mutual
theorem writes_indented : ∀ (j : Json) (depth : Nat), Writes (j.indented depth) j.tokens
  | .null, _ => writes_null
  | .bool b, _ => writes_bool b
  | .integer n, _ => writes_integer n
  | .string s, _ => fun rest _ => scans_quote s rest
  | .array items, depth => by
    have hopen (cs : List Char) : Scans ("[".toList ++ cs) [.openBracket] cs :=
      show Scans ('[' :: cs) _ _ from .token rfl rfl (Nat.le_refl _) .done
    have hclose (cs : List Char) : Scans ("]".toList ++ cs) [.closeBracket] cs :=
      show Scans (']' :: cs) _ _ from .token rfl rfl (Nat.le_refl _) .done
    exact writes_block hopen hclose (writes_indentedItems items (depth + 1)) depth
  | .object fields, depth => by
    have hopen (cs : List Char) : Scans ("\x7b".toList ++ cs) [.openBrace] cs :=
      show Scans ('\x7b' :: cs) _ _ from .token rfl rfl (Nat.le_refl _) .done
    have hclose (cs : List Char) : Scans ("\x7d".toList ++ cs) [.closeBrace] cs :=
      show Scans ('\x7d' :: cs) _ _ from .token rfl rfl (Nat.le_refl _) .done
    exact writes_block hopen hclose (writes_indentedFields fields (depth + 1)) depth
theorem writes_indentedItems : ∀ (items : List Json) (depth : Nat),
    List.Forall₂ Writes (indentedItems depth items) (itemTokens items)
  | [], _ => .nil
  | j :: js, depth => .cons (writes_indented j depth) (writes_indentedItems js depth)
theorem writes_indentedFields : ∀ (fields : List (String × Json)) (depth : Nat),
    List.Forall₂ Writes (indentedFields depth fields) (fieldTokens fields)
  | [], _ => .nil
  | (key, j) :: fs, depth => .cons (writes_field (writes_indented j depth) key) (writes_indentedFields fs depth)
end

/-! ## Reading -/

/-- The first token of a value does not close a list, so a list that has items is not taken for an empty one. -/
theorem itemTokens_ne_closeBracket (j : Json) (js : List Json) (rest ts : List Token) :
    [Token.comma].intercalate (itemTokens (j :: js)) ++ rest ≠ .closeBracket :: ts := by
  have hj (rest : List Token) : j.tokens ++ rest ≠ .closeBracket :: ts := by cases j <;> simp [tokens]
  cases js with
  | nil => simpa [itemTokens] using hj rest
  | cons j' js => simpa [itemTokens] using hj _

theorem fieldTokens_ne_closeBrace (f : String × Json) (fs : List (String × Json)) (rest ts : List Token) :
    [Token.comma].intercalate (fieldTokens (f :: fs)) ++ rest ≠ .closeBrace :: ts := by
  cases fs with
  | nil => simp [fieldTokens]
  | cons f' fs => simp [fieldTokens]

mutual
/-- From the tokens of a value the reader builds the document that holds just the value. -/
theorem readValue_tokens : ∀ (j : Json) (fuel : Nat) (rest : List Token), 2 * j.tokens.length ≤ fuel →
    readValue fuel (j.tokens ++ rest) = (j.toDoc, some rest)
  | .null, fuel + 1, _, _ => rfl
  | .bool b, fuel + 1, _, _ => rfl
  | .integer n, fuel + 1, _, _ => rfl
  | .string s, fuel + 1, _, _ => rfl
  | .array [], fuel + 1, _, _ => rfl
  | .array (j :: js), fuel + 1, rest, h => by
    rw [tokens, List.append_assoc, List.cons_append, readValue]
    · rw [tokens] at h
      simp only [List.length_append, List.length_cons] at h
      rw [List.singleton_append, readItems_tokens j js fuel rest [] (by omega)]
      simp [toDoc, ending]
    · exact itemTokens_ne_closeBracket j js _
  | .object [], fuel + 1, _, _ => rfl
  | .object ((key, j) :: fs), fuel + 1, rest, h => by
    rw [tokens, List.append_assoc, List.cons_append, readValue]
    · rw [tokens] at h
      simp only [List.length_append, List.length_cons] at h
      rw [List.singleton_append, readEntries_tokens key j fs fuel rest [] (by omega)]
      simp [toDoc, ending]
    · exact fieldTokens_ne_closeBrace (key, j) fs _
  | j, 0, _, h => by cases j <;> simp [tokens] at h
theorem readItems_tokens : ∀ (j : Json) (js : List Json) (fuel : Nat) (rest : List Token) (read : List Doc),
    2 * ([Token.comma].intercalate (itemTokens (j :: js))).length < fuel →
    readItems fuel ([Token.comma].intercalate (itemTokens (j :: js)) ++ .closeBracket :: rest) read =
      ((itemDocs (j :: js)).reverse ++ read, some rest)
  | j, [], fuel + 1, rest, read, h => by
    simp only [itemTokens, List.intercalate_singleton] at h ⊢
    rw [readItems, readValue_tokens j fuel _ (by omega)]
    simp [itemDocs]
  | j, j' :: js, fuel + 1, rest, read, h => by
    rw [itemTokens, itemTokens, List.intercalate_cons_cons, ← itemTokens] at h ⊢
    simp only [List.length_append, List.length_singleton] at h
    rw [List.append_assoc, List.append_assoc, readItems, readValue_tokens j fuel _ (by omega)]
    simp only [List.singleton_append]
    rw [readItems_tokens j' js fuel rest _ (by omega)]
    simp [itemDocs]
  | _, _, 0, _, _, h => by simp at h
theorem readEntries_tokens : ∀ (key : String) (j : Json) (fs : List (String × Json)) (fuel : Nat) (rest : List Token)
    (read : List (Option String × Doc)),
    2 * ([Token.comma].intercalate (fieldTokens ((key, j) :: fs))).length < fuel →
    readEntries fuel ([Token.comma].intercalate (fieldTokens ((key, j) :: fs)) ++ .closeBrace :: rest) read =
      ((fieldDocs ((key, j) :: fs)).reverse ++ read, some rest)
  | key, j, [], fuel + 1, rest, read, h => by
    simp only [fieldTokens, List.intercalate_singleton, List.length_cons] at h ⊢
    rw [List.cons_append, List.cons_append, readEntries, readValue_tokens j fuel _ (by omega)]
    simp [fieldDocs]
  | key, j, (key', j') :: fs, fuel + 1, rest, read, h => by
    rw [fieldTokens, fieldTokens, List.intercalate_cons_cons, ← fieldTokens] at h ⊢
    simp only [List.length_append, List.length_cons, List.length_nil] at h
    rw [List.append_assoc, List.append_assoc, List.cons_append, List.cons_append, readEntries,
      readValue_tokens j fuel _ (by omega)]
    simp only [List.singleton_append]
    rw [readEntries_tokens key' j' fs fuel rest _ (by omega)]
    simp [fieldDocs]
  | _, _, _, 0, _, _, h => by simp at h
end

/-! ## Texts -/

/-- An indented text with a line break behind it is read as the document that holds just the value. -/
theorem read_pretty (j : Json) : read (j.pretty ++ "\n") = (j.toDoc, true) := by
  have hbreak : Delimited ['\n'] := by simp [Delimited]
  have hscans : Scans (j.pretty ++ "\n").toList j.tokens ['\n'] := by
    rw [String.toList_append]
    exact writes_indented j 0 _ hbreak
  have htokens : Token.ofText (j.pretty ++ "\n") = j.tokens := hscans.ofText_eq (by simp [Token.isSpace])
  have hvalue := readValue_tokens j (2 * j.tokens.length + 2) [] (by omega)
  rw [List.append_nil] at hvalue
  unfold read
  simp only [htokens, hvalue]

/-- What is written as an indented text is decoded as it was. -/
theorem decode_pretty {α : Type} {decoder : Decoder α} {write : α → Json} (h : Reads decoder write) (a : α) :
    decode decoder ((write a).pretty ++ "\n") = .ok a := by
  unfold decode
  rw [read_pretty]
  simp only [h a, if_true]

end ActorAudit.Json
