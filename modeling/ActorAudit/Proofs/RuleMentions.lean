import ActorAudit.CommandLine.Check
import Mathlib.Data.List.Perm.Basic
import Mathlib.Data.List.Nodup

/-!
# Rules by mention

Rules are chosen by taking them out of a registry, which loses its order on the way. Whatever order is left, the
chosen rules and those left are all rules together, each once, and no text mentions two of them. So the rules come
out in the order of their first mention, and a text that mentions nothing new changes nothing.
-/

namespace ActorAudit

/-! ## Mentions -/

namespace RuleId

/-- The text is the name of the rule, or its code in whatever case. -/
def IsMentionedBy (r : RuleId) (text : String) : Prop :=
  text = r.name ∨ text.map Char.toLower = r.code.map Char.toLower

instance (r : RuleId) (text : String) : Decidable (r.IsMentionedBy text) := inferInstanceAs (Decidable (_ ∨ _))

theorem isNamed_iff {r : RuleId} {text : String} : r.isNamed text = true ↔ r.IsMentionedBy text := by
  simp only [isNamed, IsMentionedBy, Bool.or_eq_true, decide_eq_true_eq]
  exact or_congr eq_comm eq_comm

theorem mem_all (r : RuleId) : r ∈ all := by
  cases r <;> decide

-- lists of characters, since their equality is decided by evaluation
def keys (r : RuleId) : List (List Char) :=
  [r.name.toList.map Char.toLower, r.code.toList.map Char.toLower]

theorem eq_of_mem_keys : ∀ r ∈ all, ∀ s ∈ all, ∀ key ∈ r.keys, key ∈ s.keys → r = s := by
  decide +kernel

theorem IsMentionedBy.mem_keys {r : RuleId} {text : String} (h : r.IsMentionedBy text) :
    text.toList.map Char.toLower ∈ r.keys := by
  rcases h with rfl | h
  · exact List.mem_cons_self
  · rw [← String.toList_map, h, String.toList_map]
    exact List.mem_cons_of_mem _ List.mem_cons_self

theorem IsMentionedBy.unique {r s : RuleId} {text : String} (h : r.IsMentionedBy text)
    (h' : s.IsMentionedBy text) : r = s :=
  eq_of_mem_keys r r.mem_all s s.mem_all _ h.mem_keys h'.mem_keys

theorem not_isMentionedBy_empty (r : RuleId) : ¬r.IsMentionedBy "" := by
  intro h
  have hkey : [] ∈ r.keys := h.mem_keys
  cases r <;> revert hkey <;> decide

/-- Some text of a list mentions the rule. -/
def IsMentionedIn (r : RuleId) (names : List String) : Prop := ∃ n ∈ names, r.IsMentionedBy n

theorem isMentionedIn_append {r : RuleId} {names : List String} {n : String} :
    r.IsMentionedIn (names ++ [n]) ↔ r.IsMentionedIn names ∨ r.IsMentionedBy n := by
  simp [IsMentionedIn, or_and_right, exists_or]

end RuleId

namespace Rule

theorem mem_all_iff {r : Rule} : r ∈ all ↔ r.severity = r.id.defaultSeverity := by
  unfold all
  rw [List.mem_map]
  constructor
  · rintro ⟨id, -, rfl⟩
    rfl
  · intro h
    exact ⟨r.id, r.id.mem_all, by rw [standard, ← h]⟩

theorem eq_of_mem_all {r s : Rule} (hr : r ∈ all) (hs : s ∈ all) (h : r.id = s.id) : r = s := by
  rw [mem_all_iff] at hr hs
  cases r
  cases s
  simp_all

theorem nodup_all : all.Nodup := by decide

end Rule

namespace CommandLine

theorem perm_swapRemove {α : Type} {items : List α} {i : Nat} {x : α} (h : items[i]? = some x) :
    (x :: swapRemove items i).Perm items := by
  obtain ⟨hi, hx⟩ := List.getElem?_eq_some_iff.mp h
  rcases List.eq_nil_or_concat' items with rfl | ⟨init, last, rfl⟩
  · simp at hi
  · have hswap : swapRemove (init ++ [last]) i = init.set i last := by simp [swapRemove]
    rw [hswap]
    refine List.Perm.trans ?_ (List.perm_append_singleton last init).symm
    -- the last item fills the gap, unless it is the one taken out
    by_cases hlt : i < init.length
    · have hinit : init[i] = x := by rw [← hx, List.getElem_append_left hlt]
      have hrest : (x :: init.eraseIdx i).Perm init := hinit ▸ List.getElem_cons_eraseIdx_perm hlt
      exact ((List.set_perm_cons_eraseIdx hlt last).cons x).trans ((List.Perm.swap _ _ _).trans (hrest.cons last))
    · have hlast : i = init.length := by simp at hi; omega
      subst hlast
      rw [List.set_eq_of_length_le (Nat.le_refl _), ← hx, List.getElem_concat_length rfl]

namespace Choice

/-- One mention: a rule that is left and mentioned is moved, or there is none and nothing changes. -/
theorem mention_cases (c : Choice) (name : String) :
    (∃ r ∈ c.available, r.id.IsMentionedBy name ∧
      ∃ left, (r :: left).Perm c.available ∧ c.mention name = ⟨left, c.selected ++ [r]⟩) ∨
    ((∀ r ∈ c.available, ¬r.id.IsMentionedBy name) ∧ c.mention name = c) := by
  unfold mention
  split
  · rename_i i hi
    obtain ⟨hlt, hnamed, -⟩ := List.findIdx?_eq_some_iff_getElem.mp hi
    have hget : c.available[i]? = some c.available[i] := List.getElem?_eq_getElem hlt
    refine .inl ⟨c.available[i], List.getElem_mem hlt, RuleId.isNamed_iff.mp hnamed, _, perm_swapRemove hget, ?_⟩
    rw [hget]
    rfl
  · rename_i hnone
    refine .inr ⟨fun r hr hmention => ?_, rfl⟩
    have hnot := List.findIdx?_eq_none_iff.mp hnone r hr
    rw [RuleId.isNamed_iff.mpr hmention] at hnot
    cases hnot

end Choice

/-! ## Choices -/

/-- The place of the first text that mentions a rule; the length of the list where there is none. -/
def firstMention (names : List String) (r : RuleId) : Nat := names.findIdx fun n => r.IsMentionedBy n

theorem firstMention_lt_iff {names : List String} {r : RuleId} :
    firstMention names r < names.length ↔ r.IsMentionedIn names := by
  simp [firstMention, RuleId.IsMentionedIn, List.findIdx_lt_length]

theorem firstMention_append {names : List String} {r : RuleId} (h : r.IsMentionedIn names)
    (more : List String) : firstMention (names ++ more) r = firstMention names r := by
  rw [← firstMention_lt_iff] at h
  unfold firstMention at h ⊢
  rw [List.findIdx_append, if_pos h]

theorem firstMention_append_of_not {names : List String} {r : RuleId} (h : ¬r.IsMentionedIn names)
    (more : List String) : names.length ≤ firstMention (names ++ more) r := by
  rw [← firstMention_lt_iff] at h
  unfold firstMention at h ⊢
  rw [List.findIdx_append, if_neg h]
  exact Nat.le_add_left _ _

/-- What a choice is after the texts `seen`. -/
structure Choice.Follows (c : Choice) (seen : List String) : Prop where
  partition : (c.selected ++ c.available).Perm Rule.all
  selected_iff : ∀ r ∈ Rule.all, r ∈ c.selected ↔ r.id.IsMentionedIn seen
  ordered : c.selected.Pairwise fun r s => firstMention seen r.id < firstMention seen s.id

namespace Choice.Follows

variable {c : Choice} {seen : List String}

theorem start : Follows ⟨Rule.all, []⟩ [] where
  partition := .refl _
  selected_iff := by simp [RuleId.IsMentionedIn]
  ordered := .nil

theorem mem_all_of_selected (h : c.Follows seen) {r : Rule} (hr : r ∈ c.selected) : r ∈ Rule.all :=
  h.partition.mem_iff.mp (List.mem_append_left _ hr)

theorem mem_all_of_available (h : c.Follows seen) {r : Rule} (hr : r ∈ c.available) : r ∈ Rule.all :=
  h.partition.mem_iff.mp (List.mem_append_right _ hr)

theorem mentioned (h : c.Follows seen) {r : Rule} (hr : r ∈ c.selected) : r.id.IsMentionedIn seen :=
  (h.selected_iff r (h.mem_all_of_selected hr)).mp hr

theorem not_mentioned (h : c.Follows seen) {r : Rule} (hr : r ∈ c.available) : ¬r.id.IsMentionedIn seen := by
  have hnodup : (c.selected ++ c.available).Nodup := h.partition.nodup_iff.mpr Rule.nodup_all
  rw [← h.selected_iff r (h.mem_all_of_available hr)]
  exact fun hs => (List.nodup_append.mp hnodup).2.2 r hs r hr rfl

theorem ordered_append (h : c.Follows seen) (n : String) :
    c.selected.Pairwise fun r s => firstMention (seen ++ [n]) r.id < firstMention (seen ++ [n]) s.id := by
  refine h.ordered.imp_of_mem fun hr hs hlt => ?_
  rw [firstMention_append (h.mentioned hr), firstMention_append (h.mentioned hs)]
  exact hlt

/-- A text that mentions no rule that is left. -/
theorem idle (h : c.Follows seen) {n : String} (hn : ∀ r ∈ c.available, ¬r.id.IsMentionedBy n) :
    c.Follows (seen ++ [n]) where
  partition := h.partition
  selected_iff := by
    intro r hr
    rw [RuleId.isMentionedIn_append, ← h.selected_iff r hr]
    refine ⟨.inl, fun hor => hor.elim id fun hmention => ?_⟩
    rcases List.mem_append.mp (h.partition.mem_iff.mpr hr) with hselected | havailable
    · exact hselected
    · exact absurd hmention (hn r havailable)
  ordered := h.ordered_append n

/-- A text that mentions a rule that is left. -/
theorem choose (h : c.Follows seen) {n : String} {r : Rule} (hr : r ∈ c.available) (hn : r.id.IsMentionedBy n)
    {left : List Rule} (hleft : (r :: left).Perm c.available) : Follows ⟨left, c.selected ++ [r]⟩ (seen ++ [n]) where
  partition := by
    rw [List.append_assoc]
    exact (hleft.append_left c.selected).trans h.partition
  selected_iff := by
    intro s hs
    have hsame : s = r ↔ s.id.IsMentionedBy n := by
      constructor
      · rintro rfl
        exact hn
      · intro hs'
        exact Rule.eq_of_mem_all hs (h.mem_all_of_available hr) (hs'.unique hn)
    rw [List.mem_append, List.mem_singleton, h.selected_iff s hs, hsame, RuleId.isMentionedIn_append]
  ordered := by
    rw [List.pairwise_append]
    refine ⟨h.ordered_append n, List.pairwise_singleton _ _, fun s hs t ht => ?_⟩
    rw [List.mem_singleton.mp ht, firstMention_append (h.mentioned hs)]
    exact Nat.lt_of_lt_of_le (firstMention_lt_iff.mpr (h.mentioned hs))
      (firstMention_append_of_not (h.not_mentioned hr) [n])

theorem mention (h : c.Follows seen) (n : String) : (c.mention n).Follows (seen ++ [n]) := by
  rcases c.mention_cases n with ⟨r, hr, hmention, left, hleft, heq⟩ | ⟨hn, heq⟩
  · rw [heq]
    exact h.choose hr hmention hleft
  · rw [heq]
    exact h.idle hn

theorem run (h : c.Follows seen) (names : List String) :
    ((names.filter fun n => !n.isEmpty).foldl Choice.mention c).Follows (seen ++ names) := by
  -- what was seen grows at its end, where it moves no first mention
  induction names generalizing c seen with
  | nil => simpa using h
  | cons n names ih =>
    rw [List.append_cons]
    by_cases hn : n = ""
    · subst hn
      rw [List.filter_cons_of_neg (by simp)]
      exact ih (h.idle fun r _ => r.id.not_isMentionedBy_empty)
    · rw [List.filter_cons_of_pos (by simpa using hn), List.foldl_cons]
      exact ih (h.mention n)

end Choice.Follows

/-- The choice that a list of texts makes. -/
def chosenBy (names : List String) : Choice :=
  (names.filter fun n => !n.isEmpty).foldl Choice.mention ⟨Rule.all, []⟩

theorem follows_chosenBy (names : List String) : (chosenBy names).Follows names := Choice.Follows.start.run names

/-- A text that mentions no rule, or a rule that was mentioned before, leaves the choice as it is. -/
theorem mentionedRules_of_idle {before after : List String} {n : String}
    (h : ∀ r : RuleId, r.IsMentionedBy n → r.IsMentionedIn before) :
    mentionedRules (before ++ n :: after) = mentionedRules (before ++ after) := by
  have hidle : (chosenBy before).mention n = chosenBy before := by
    rcases (chosenBy before).mention_cases n with ⟨r, hr, hmention, -⟩ | ⟨-, heq⟩
    · exact absurd (h _ hmention) ((follows_chosenBy before).not_mentioned hr)
    · exact heq
  have hsplit : ∀ names, mentionedRules (before ++ names) =
      ((names.filter fun n => !n.isEmpty).foldl Choice.mention (chosenBy before)).selected := by
    intro names
    rw [mentionedRules, List.filter_append, List.foldl_append]
    rfl
  rw [hsplit, hsplit, List.filter_cons]
  split
  · rw [List.foldl_cons, hidle]
  · rfl

/-- The rules of a list of texts are those that are mentioned, each once and with its own severity, in the order
of their first mention. Texts that are empty, mention no rule or mention one again have no effect. -/
theorem mentionedRules_spec (names : List String) :
    (∀ r, r ∈ mentionedRules names ↔ r ∈ Rule.all ∧ ∃ n ∈ names, r.id.IsMentionedBy n) ∧
    (∀ r ∈ mentionedRules names, r.severity = r.id.defaultSeverity) ∧
    (mentionedRules names).Nodup ∧
    (mentionedRules names).Pairwise (fun r s => firstMention names r.id < firstMention names s.id) ∧
    ∀ before n after, names = before ++ n :: after →
      (n = "" ∨ (∀ r : RuleId, ¬r.IsMentionedBy n) ∨
        ∃ r : RuleId, r.IsMentionedBy n ∧ ∃ m ∈ before, r.IsMentionedBy m) →
      mentionedRules names = mentionedRules (before ++ after) := by
  have hfollows := follows_chosenBy names
  have hmem : ∀ r ∈ mentionedRules names, r ∈ Rule.all := fun r hr => hfollows.mem_all_of_selected hr
  refine ⟨fun r => ?_, fun r hr => ?_, ?_, hfollows.ordered, ?_⟩
  · constructor
    · intro hr
      exact ⟨hmem r hr, hfollows.mentioned hr⟩
    · intro ⟨hall, hmention⟩
      exact (hfollows.selected_iff r hall).mpr hmention
  · exact Rule.mem_all_iff.mp (hmem r hr)
  · have hnodup := hfollows.partition.nodup_iff.mpr Rule.nodup_all
    exact (List.nodup_append.mp hnodup).1
  · rintro before n after rfl h
    apply mentionedRules_of_idle
    intro s hs
    rcases h with rfl | hunknown | ⟨r, hr, hbefore⟩
    · exact absurd hs s.not_isMentionedBy_empty
    · exact absurd hs (hunknown s)
    · rw [hs.unique hr]
      exact hbefore

/-- A rule by its code in lower case, and later by its name. -/
theorem mentionedRules_spec_again :
    let before := ["no-such-rule", "dapr1412", "", "DAPR1405"]
    RuleId.recordContract.IsMentionedBy "record-needs-contract" ∧ RuleId.recordContract.IsMentionedBy "dapr1412" ∧
    mentionedRules (before ++ ["record-needs-contract", "DAPR1407"]) = mentionedRules (before ++ ["DAPR1407"]) := by
  intro before
  have hname : RuleId.recordContract.IsMentionedBy "record-needs-contract" := .inl rfl
  have hcode : RuleId.recordContract.IsMentionedBy "dapr1412" := by
    refine .inr (String.toList_inj.mp ?_)
    rw [String.toList_map, String.toList_map]
    decide
  have hspec := mentionedRules_spec (before ++ ["record-needs-contract", "DAPR1407"])
  refine ⟨hname, hcode, hspec.2.2.2.2 before _ ["DAPR1407"] rfl (.inr (.inr ?_))⟩
  exact ⟨.recordContract, hname, "dapr1412", by simp [before], hcode⟩

end CommandLine

end ActorAudit
