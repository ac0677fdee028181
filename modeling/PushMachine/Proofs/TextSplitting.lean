import Mathlib.Data.List.Chain
import PushMachine.Proofs.TextReplacement

/-! # Splitting strings

A string is cut at the matches of a separator, and of the gaps between them those that are not empty
are kept. So no part contains the separator, and the parts joined are the string with all matches
removed. A gap is empty where a match starts at the end of the one before it, or at an end of the
string (`Text.Matches.gaps_ne_nil_iff`), and only then are there fewer parts than gaps. -/

namespace PushMachine

namespace Text

variable {pattern text : List Char} {start : Nat} {places : List Nat}

/-- **No gap is empty** iff no match, and not the end of the text, follows the start or another
match directly. -/
theorem Matches.gaps_ne_nil_iff (found : Matches pattern text start places)
    (nonempty : pattern ≠ []) (within : start ≤ text.length) :
    (∀ gap ∈ gaps pattern text start places, gap ≠ []) ↔
      (∀ first ∈ (places ++ [text.length]).head?, start ≠ first) ∧
        (places ++ [text.length]).IsChain fun place next => place + pattern.length ≠ next := by
  induction found with
  | @ends start absent =>
    simp only [gaps, List.forall_mem_singleton, List.nil_append, List.head?_cons,
      Option.mem_some_iff, forall_eq', List.isChain_singleton, and_true, ne_eq,
      List.drop_eq_nil_iff]
    omega
  | @next start place places first here earlier rest ih =>
    have hend := add_length_le nonempty here
    have hpositive := List.length_pos_iff.mpr nonempty
    have hgap : (text.drop start).take (place - start) ≠ [] ↔ start ≠ place := by
      rw [← List.length_pos_iff, List.length_take, List.length_drop]
      omega
    -- What is claimed of the gaps behind the match says that it is linked to what follows.
    rw [gaps, List.forall_mem_cons, hgap, ih hend, List.cons_append, List.isChain_cons]
    simp only [List.head?_cons, Option.mem_some_iff, forall_eq']

/-- The gaps of a whole text, from `0` on. -/
theorem Matches.gaps_ne_nil_iff_of_zero (found : Matches pattern text 0 places)
    (nonempty : pattern ≠ []) :
    (∀ gap ∈ gaps pattern text 0 places, gap ≠ []) ↔
      text ≠ [] ∧ places.IsChain (fun place next => place + pattern.length ≠ next) ∧
        places.head? ≠ some 0 ∧ ∀ last ∈ places.getLast?, last + pattern.length ≠ text.length := by
  rw [found.gaps_ne_nil_iff nonempty (Nat.zero_le _), List.isChain_append]
  -- The first gap is empty exactly when the text is, or when a match starts it.
  have hhead : (∀ first ∈ (places ++ [text.length]).head?, 0 ≠ first) ↔
      text ≠ [] ∧ places.head? ≠ some 0 := by
    cases found with
    | ends => simp [eq_comm]
    | @next _ place places within here =>
      have hend := add_length_le nonempty here
      have hpositive := List.length_pos_iff.mpr nonempty
      have htext : text ≠ [] := List.length_pos_iff.mp (by omega)
      simp [htext, eq_comm]
  rw [hhead]
  simp only [List.isChain_singleton, List.head?_cons, Option.mem_some_iff, forall_eq', true_and]
  tauto

/-- **The parts** of a text, `Text.split`, are the gaps that are not empty. -/
theorem Matches.split_eq (found : Matches pattern text 0 places) (nonempty : pattern ≠ []) :
    split pattern text = (gaps pattern text 0 places).filter fun gap => !gap.isEmpty := by
  rw [split, found.pieces_eq nonempty]

end Text

namespace Instruction

/-- Texts as an answer, if they are not more than `caps.collectionSizeCap`. -/
def answerTexts (caps : SizeCaps) (texts : List (List Char)) : Option (StackId × Value) :=
  if texts.length ≤ caps.collectionSizeCap then
    some (.vectorStr, .strs (texts.map String.ofList))
  else none

/-- Pushing texts within the limit, with `pushTextsWithin`. -/
theorem answers_pushTextsWithin {config : Config} (has : config.Has .vectorStr) (caps : SizeCaps)
    (texts : List (List Char)) :
    (pushTextsWithin caps texts).Answers config config (answerTexts caps texts) :=
  Script.answers_push_within has _ _ _

end Instruction

namespace Library

open Instruction

/-- **Splitting** gives the `gaps` that are not empty. -/
theorem answers_split {library : Library} {caps : SizeCaps} {needle : Needle} {value : Value}
    {pattern : List Char} {s : String} {places : List Nat}
    (offers : library.Offers (.exec :: searchStacks) searchNames)
    (reads : needle.Reads value pattern) (nonempty : pattern ≠ [])
    (found : Text.Matches pattern s.toList 0 places) :
    library.Answers caps ("str_split_on_" ++ needle.name)
      [(.str, .str s), (needle.stack, value)]
      (answerTexts caps
        ((Text.gaps pattern s.toList 0 places).filter fun gap => !gap.isEmpty)) := by
  refine answers_pattern offers (List.mem_append_right _ (List.mem_cons_of_mem _
      (List.mem_cons_of_mem _ (List.mem_cons_of_mem _ List.mem_cons_self)))) rfl
    (fst_mem_of_mem_ite (by decide)) fun config has => reads.answers_search has ?_
  rw [if_neg nonempty, found.split_eq nonempty]
  exact answers_pushTextsWithin (has .vectorStr (by decide)) caps _

/-- **Splitting agrees with removal.** The parts between the matches (`Text.Matches`) are not empty
and do not contain the separator, and joined they are what is left when all matches are removed.
There is at most one part more than there are matches, and exactly one more iff the string is not
empty, no match follows another directly, and none is at an end of the string. -/
theorem splitting_agrees (library : Library)
    (offers : library.Offers (.exec :: searchStacks) searchNames) (caps : SizeCaps) (s : String)
    (needle : Needle) (value : Value) (p : List Char) (reads : needle.Reads value p)
    (nonempty : p ≠ []) :
    ∃ (starts : List Nat) (parts : List (List Char)), Text.Matches p s.toList 0 starts ∧
      parts = (Text.gaps p s.toList 0 starts).filter (fun gap => !gap.isEmpty) ∧
      library.Answers caps ("str_split_on_" ++ needle.name)
        [(.str, .str s), (needle.stack, value)] (answerTexts caps parts) ∧
      [] ∉ parts ∧ (∀ part ∈ parts, ¬p <:+: part) ∧
      library.Answers caps ("str_remove_all_" ++ needle.name)
        [(.str, .str s), (needle.stack, value)] (answerText caps parts.flatten) ∧
      library.Answers caps ("str_occurrences_of_" ++ needle.name)
        [(.str, .str s), (needle.stack, value)] (answerCount starts.length) ∧
      parts.length ≤ starts.length + 1 ∧
      (parts.length = starts.length + 1 ↔
        s ≠ "" ∧ starts.IsChain (fun place next => place + p.length ≠ next) ∧
          starts.head? ≠ some 0 ∧ ∀ last ∈ starts.getLast?, last + p.length ≠ s.length) := by
  obtain ⟨starts, found⟩ := Text.exists_matches nonempty s.toList 0
  refine ⟨starts, _, found, rfl, answers_split offers reads nonempty found, ?kept, ?free, ?removed,
    answers_occurrences offers reads nonempty found, ?most, ?equal⟩
  case kept => simp
  case free =>
    intro part hpart
    exact found.not_infix_of_mem_gaps nonempty part (List.mem_of_mem_filter hpart)
  case removed =>
    -- The empty gaps that splitting leaves out do not show when the gaps are joined.
    rw [List.flatten_filter_not_isEmpty, ← Text.substitute_empty]
    have hremove : library.Answers caps _ _ _ := answers_remove offers reads nonempty found .all 0
    cases needle <;> exact hremove
  case most =>
    rw [← Text.length_gaps p s.toList 0 starts]
    exact List.length_filter_le _ _
  case equal =>
    -- There are as many parts as gaps iff every gap is a part.
    have htext : s ≠ "" ↔ s.toList ≠ [] := by simp
    rw [htext, ← String.length_toList, ← found.gaps_ne_nil_iff_of_zero nonempty,
      ← Text.length_gaps p s.toList 0 starts, List.length_filter_eq_length_iff]
    simp

/-- Two of the three matches are next to each other, so that there are three parts and not four. -/
theorem splitting_agrees_adjacent :
    core.Offers (.exec :: searchStacks) searchNames ∧
      Needle.str.Reads (.str "aa") ['a', 'a'] ∧ ['a', 'a'] ≠ [] ∧
      core.Gives {} "str_split_on_str" [(.str, .str "baaaaéaaa"), (.str, .str "aa")]
        .vectorStr (.strs ["b", "é", "a"]) ∧
      core.Gives {} "str_remove_all_str" [(.str, .str "baaaaéaaa"), (.str, .str "aa")]
        .str (.str "béa") ∧
      core.Gives {} "str_occurrences_of_str" [(.str, .str "baaaaéaaa"), (.str, .str "aa")]
        .int (.int 3) := by
  have offers := offers_core (.exec :: searchStacks) searchNames
  have hfound : Text.Matches ['a', 'a'] "baaaaéaaa".toList 0 [1, 3, 6] := by
    refine .next (by decide) (by decide) ?_ (.next (by decide) (by decide) ?_
      (.next (by decide) (by decide) ?_ (.ends ?_)))
    · intro earlier _ hearlier
      obtain rfl : earlier = 0 := by omega
      decide
    · intro earlier hstart hearlier
      exact absurd (Nat.lt_of_le_of_lt hstart hearlier) (by decide)
    · intro earlier hstart hearlier
      obtain rfl : earlier = 5 := Nat.le_antisymm (Nat.le_of_lt_succ hearlier) hstart
      decide
    · intro place hplace hmatch
      -- One more character does not make a match.
      have hend : place + 2 ≤ 9 := Text.add_length_le (by decide) hmatch
      have hstart : 8 ≤ place := hplace
      omega
  obtain ⟨starts, parts, found, hparts, hsplit, -, -, hremove, hcount, -⟩ :=
    splitting_agrees core offers {} "baaaaéaaa" .str (.str "aa") ['a', 'a'] (.str "aa")
      (List.cons_ne_nil _ _)
  obtain rfl := found.unique hfound
  obtain rfl : parts = [['b'], ['é'], ['a']] := hparts.trans (by decide)
  exact ⟨offers, .str "aa", List.cons_ne_nil _ _, hsplit, hremove, hcount⟩

end Library

end PushMachine
