import Mathlib.Data.List.Infix
import PushMachine.Proofs.Arguments
import PushMachine.Proofs.InstructionNames
import PushMachine.Proofs.TextMatches

/-! # Searching strings

The instructions that search a string take the pattern from a string or a character, and differ in
what they do with its matches. All of them answer by the places of one list of matches
(`Text.Matches`): they count the matches, find the first, and put a replacement, or nothing, in
place of the matches that are chosen (`Choice.chosen`). -/

namespace PushMachine

namespace Instruction

/-- **A value is read as a pattern**: a string as its characters, a character `c` as the text `[c]`.
-/
inductive Needle.Reads : Needle → Value → List Char → Prop where
  /-- A string. -/
  | str (s : String) : Reads .str (.str s) s.toList
  /-- A character. -/
  | char (c : Char) : Reads .char (.char c) [c]

namespace Choice

/-- Arguments with the number `n` on top of them, where the choice needs one. -/
def numbered (n : Int64) (arguments : List (StackId × Value)) : Choice → List (StackId × Value)
  | .nth => arguments ++ [(.int, .int n)]
  | _ => arguments

/-- **The matches that are replaced**, of those at `places`: all, the first, or that of the number
`n`, taken around. -/
def chosen (n : Int64) (places : List Nat) : Choice → List Nat
  | .first => places.head?.toList
  | .nth => places[(n.toInt % places.length).toNat]?.toList
  | .all => places

end Choice

/-! ## What is replaced -/

section Replacing

variable {pattern text : List Char} {places : List Nat} {n : Int64}

/-- A number is taken around the number of matches: `n % places.length` is the index of one. -/
theorem exists_getElem?_emod (nonempty : places ≠ []) (n : Int64) :
    ∃ place, places[(n.toInt % places.length).toNat]? = some place := by
  have hlength : (places.length : Int) ≠ 0 := by simpa using nonempty
  have hnonneg := Int.emod_nonneg n.toInt hlength
  have hlt := Int.emod_lt_of_pos n.toInt (by omega : (0 : Int) < places.length)
  exact ⟨_, List.getElem?_eq_getElem (by omega)⟩

/-- **The chosen matches are replaced**, and nothing else: `replaceMatches?` is `substitute` at
them. -/
theorem replaceMatches?_eq (found : Text.Matches pattern text 0 places) (nonempty : pattern ≠ [])
    (choice : Choice) (n : Int64) (replacement : List Char) :
    replaceMatches? choice n pattern replacement text =
      some (Text.substitute pattern replacement text 0 (choice.chosen n places)) := by
  simp only [replaceMatches?, if_neg nonempty]
  by_cases hnil : places = []
  · -- Without a match the text stays as it is.
    subst hnil
    cases choice with
    | first => exact congrArg some (found.replaceAt_of_nil nonempty replacement 0)
    | nth =>
      simp only [found.occurrences_eq nonempty, List.length_nil, cyclicPlace?, if_true]
      rfl
    | all => exact congrArg some (found.replaceAll_eq nonempty replacement)
  · cases choice with
    | first =>
      obtain ⟨first, others, rfl⟩ := List.exists_cons_of_ne_nil hnil
      exact congrArg some (found.replaceAt_eq nonempty replacement (List.getElem?_cons_zero))
    | nth =>
      -- The pieces are counted again here, and the number is taken around that count.
      obtain ⟨place, hplace⟩ := exists_getElem?_emod hnil n
      have hcount : places.length ≠ 0 := by simpa using hnil
      simp only [found.occurrences_eq nonempty, cyclicPlace?, if_neg hcount, Choice.chosen, hplace,
        found.replaceAt_eq nonempty replacement hplace, Option.toList_some]
    | all => exact congrArg some (found.replaceAll_eq nonempty replacement)

end Replacing

/-! ## Answers -/

/-- A text as an answer, if it is not longer than `caps.collectionSizeCap`. -/
def answerText (caps : SizeCaps) (text : List Char) : Option (StackId × Value) :=
  if text.length ≤ caps.collectionSizeCap then some (.str, .str (String.ofList text)) else none

/-- A count as an answer, if the integers reach that far. -/
def answerCount (n : Nat) : Option (StackId × Value) :=
  if n < 2 ^ 63 then some (.int, .int (Int64.ofNat n)) else none

/-- A position as an answer, or `-1`. -/
def answerPosition : Option Nat → Option (StackId × Value)
  | some place => answerCount place
  | none => some (.int, .int (-1))

section Scripts

open Script

variable {config : Config} {needle : Needle} {value other : Value} {pattern replacement : List Char}
  {s : String}

/-- Pushing a text within the limit, with `pushTextWithin`. -/
theorem answers_pushTextWithin (has : config.Has .str) (caps : SizeCaps) (text : List Char) :
    (pushTextWithin caps text).Answers config config (answerText caps text) :=
  answers_push_within has _ _ _

/-- Pushing a count, with `pushNat`. -/
theorem answers_pushNat (has : config.Has .int) (n : Nat) :
    (pushNat n).Answers config config (answerCount n) := by
  rw [pushNat, answerCount]
  by_cases hfits : n < 2 ^ 63
  · rw [if_pos hfits]
    exact .bind (m := 1) (does_ofOption (if_pos (Nat.le_of_lt_succ hfits))) (does_push_topped has _)
  · rw [if_neg hfits]
    exact (givesUp_ofOption (if_neg fun hle => hfits (Nat.lt_succ_of_le hle))).bind _

/-- Pushing a position, with `pushPosition`. -/
theorem answers_pushPosition (has : config.Has .int) (place : Option Nat) :
    (pushPosition place).Answers config config (answerPosition place) := by
  cases place with
  | some place => exact answers_pushNat has place
  | none => exact does_push_topped has _

/-- Taking the characters of a string, with `popText`. -/
theorem does_popText (has : config.Has .str) (s : String) :
    popText.Does (config.topped .str (.str s)) s.toList config 0 :=
  .bind (n := 0) (m := 0) (does_popItem (α := String) has rfl) (does_done _)

/-- Taking a pattern, with `needle.pop`. -/
theorem Needle.Reads.does_pop (reads : needle.Reads value pattern)
    (has : config.Has needle.stack) :
    needle.pop.Does (config.topped needle.stack value) pattern config 0 := by
  cases reads with
  | str s => exact does_popText has s
  | char c => exact .bind (n := 0) (m := 0) (does_popItem (α := Char) has rfl) (does_done _)

/-- Taking the number of a match, with `choice.popNumber`. A choice without a number does not depend
on it. -/
theorem Choice.does_popNumber (choice : Choice) (n : Int64) (has : config.Has .int)
    (arguments : List (StackId × Value)) :
    ∃ number, choice.popNumber.Does (config.holding (choice.numbered n arguments)) number
        (config.holding arguments) 0 ∧
      replaceMatches? choice number = replaceMatches? choice n := by
  cases choice with
  | nth =>
    refine ⟨n, ?_, rfl⟩
    rw [numbered, Config.holding, List.foldl_append]
    exact does_popInt_topped (has.holding arguments) n
  | first => exact ⟨0, does_done 0, rfl⟩
  | all => exact ⟨0, does_done 0, rfl⟩

/-- The stacks of arguments and answers. -/
def searchStacks : List StackId := [.bool, .int, .char, .str, .vectorStr]

theorem Needle.stack_mem (needle : Needle) : needle.stack ∈ searchStacks := by
  cases needle <;> decide

theorem Choice.numbered_mem {arguments : List (StackId × Value)} (choice : Choice) (n : Int64)
    (taken : ∀ entry ∈ arguments, entry.1 ∈ searchStacks) :
    ∀ entry ∈ choice.numbered n arguments, entry.1 ∈ searchStacks := by
  have hint : StackId.int ∈ searchStacks := by decide
  cases choice with
  | nth => exact List.forall_mem_append.mpr ⟨taken, List.forall_mem_singleton.mpr hint⟩
  | first => exact taken
  | all => exact taken

theorem answerPosition_mem {ids : List StackId} (given : .int ∈ ids) (place : Option Nat) :
    ∀ entry ∈ answerPosition place, entry.1 ∈ ids := by
  cases place with
  | some place => exact Library.fst_mem_of_mem_ite given
  | none =>
    rintro entry ⟨⟩
    exact given

variable (has : ∀ id ∈ searchStacks, config.Has id)
include has

/-- **The rule for a search**: what `rest` answers for the pattern and the text. -/
theorem Needle.Reads.answers_search (reads : needle.Reads value pattern)
    {rest : List Char → List Char → Script Unit} {answer : Option (StackId × Value)}
    (answers : (rest pattern s.toList).Answers config config answer) :
    (do
      let sought ← needle.pop
      let text ← popText
      rest sought text).Answers
      (config.holding [(.str, .str s), (needle.stack, value)]) config answer := by
  have hpattern := (has _ needle.stack_mem).topped .str (.str s)
  exact (reads.does_pop hpattern).bind_answers
    ((does_popText (has .str (by decide)) s).bind_answers answers)

/-- Removing matches: what `removeText` answers. -/
theorem Needle.Reads.answers_removeText (reads : needle.Reads value pattern) (choice : Choice)
    (n : Int64) (caps : SizeCaps) {result : List Char}
    (removed : replaceMatches? choice n pattern [] s.toList = some result) :
    (removeText needle choice caps).Answers
      (config.holding (choice.numbered n [(.str, .str s), (needle.stack, value)])) config
      (answerText caps result) := by
  obtain ⟨number, hnumber, hsame⟩ := choice.does_popNumber n (has .int (by decide)) _
  refine hnumber.bind_answers (reads.answers_search has ?_)
  refine (does_ofOption ?_).bind_answers (answers_pushTextWithin (has .str (by decide)) caps result)
  rw [hsame, removed]

/-- Replacing matches: what `replaceText` answers. -/
theorem Needle.Reads.answers_replaceText (reads : needle.Reads value pattern)
    (reads' : needle.Reads other replacement) (choice : Choice) (n : Int64) (caps : SizeCaps)
    {result : List Char}
    (replaced : replaceMatches? choice n pattern replacement s.toList = some result) :
    (replaceText needle choice caps).Answers
      (config.holding (choice.numbered n
        [(.str, .str s), (needle.stack, value), (needle.stack, other)])) config
      (answerText caps result) := by
  obtain ⟨number, hnumber, hsame⟩ := choice.does_popNumber n (has .int (by decide)) _
  have hpattern := (has _ needle.stack_mem).holding [(.str, .str s), (needle.stack, value)]
  refine hnumber.bind_answers ((reads'.does_pop hpattern).bind_answers ?_)
  refine reads.answers_search has ?_
  refine (does_ofOption ?_).bind_answers (answers_pushTextWithin (has .str (by decide)) caps result)
  rw [hsame, replaced]

end Scripts

/-! ## The instructions -/

/-- What replaces and removes is among `searching`. -/
theorem mem_searching {needle : Needle} {instruction : Instruction} (choice : Choice)
    (member : instruction ∈ replacing needle choice) : instruction ∈ searching needle := by
  rw [searching, List.mem_append, List.mem_append, List.mem_append]
  cases choice with
  | first => exact .inl (.inl (.inl member))
  | nth => exact .inl (.inl (.inr member))
  | all => exact .inl (.inr member)

end Instruction

namespace Library

open Instruction Script

/-- The names of the instructions that search a string. -/
def searchNames : List String := (searching .str ++ searching .char).map Instruction.name

section Searches

variable {library : Library} {caps : SizeCaps} {needle : Needle} {value other : Value}
  {pattern replacement : List Char} {places : List Nat} {s : String}
  (offers : library.Offers (.exec :: searchStacks) searchNames)
include offers

/-- The names in `searchNames` stand for the instructions of `searching`. -/
theorem get?_searching {instruction : Instruction} (member : instruction ∈ searching needle) :
    library.instructions.get? instruction.name = some instruction := by
  -- All names are told apart from those of the other instructions at once.
  have hown : ∀ name ∈ searchNames, (fixed.map Instruction.name).count name = 1 := by
    decide +kernel
  have hboth : instruction ∈ searching .str ++ searching .char := by
    cases needle with
    | str => exact List.mem_append_left _ member
    | char => exact List.mem_append_right _ member
  have hstrings : instruction ∈ strings := by
    rw [strings, List.mem_append, List.mem_append, List.mem_append]
    exact .inl ((List.mem_append.mp hboth).imp_left .inr)
  have hfixed : instruction ∈ fixed := by
    simp only [fixed, List.mem_append, hstrings, true_or, or_true]
  have htouched : instruction.touched.all Registry.core.contains = true := by
    have hall : (searching .str ++ searching .char).all
        (fun other => other.touched.all Registry.core.contains) = true := by decide
    exact List.all_eq_true.mp hall instruction hboth
  have hname := List.mem_map_of_mem (f := Instruction.name) hboth
  rw [offers.instruction _ hname]
  exact InstructionSet.get?_core_fixed hfixed (hown _ hname) htouched

/-- What an instruction that searches answers. -/
theorem answers_searching {instruction : Instruction} {arguments : List (StackId × Value)}
    {answer : Option (StackId × Value)} (member : instruction ∈ searching needle)
    (taken : ∀ entry ∈ arguments, entry.1 ∈ searchStacks)
    (given : ∀ entry ∈ answer, entry.1 ∈ searchStacks)
    (reads : instruction.inputs.Perm (arguments.map Prod.fst))
    (answers : ∀ config : Config, (∀ id ∈ searchStacks, config.Has id) →
      (instruction.body caps).Answers (config.holding arguments) config answer) :
    library.Answers caps instruction.name arguments answer :=
  answers_of_script searchStacks (get?_searching offers member) (offers.registered (by decide))
    taken given reads answers

/-- **Replacing** puts `replacement` in place of the chosen matches. -/
theorem answers_replace (reads : needle.Reads value pattern) (nonempty : pattern ≠ [])
    (reads' : needle.Reads other replacement) (found : Text.Matches pattern s.toList 0 places)
    (choice : Choice) (n : Int64) :
    library.Answers caps ("str_replace_" ++ choice.name ++ "_" ++ needle.name)
      (choice.numbered n [(.str, .str s), (needle.stack, value), (needle.stack, other)])
      (answerText caps
        (Text.substitute pattern replacement s.toList 0 (choice.chosen n places))) := by
  refine answers_searching offers (mem_searching choice List.mem_cons_self) ?taken
    (fst_mem_of_mem_ite (by decide)) ?reads fun config has => ?answers
  case taken =>
    refine choice.numbered_mem n ?_
    simp only [List.forall_mem_cons, needle.stack_mem]
    exact ⟨by decide, trivial, trivial, List.forall_mem_nil _⟩
  case reads => cases choice <;> exact .refl _
  case answers =>
    exact reads.answers_replaceText has reads' choice n caps
      (replaceMatches?_eq found nonempty choice n replacement)

/-- **Removing** puts nothing in place of the chosen matches. -/
theorem answers_remove (reads : needle.Reads value pattern) (nonempty : pattern ≠ [])
    (found : Text.Matches pattern s.toList 0 places) (choice : Choice) (n : Int64) :
    library.Answers caps ("str_remove_" ++ choice.name ++ "_" ++ needle.name)
      (choice.numbered n [(.str, .str s), (needle.stack, value)])
      (answerText caps (Text.substitute pattern [] s.toList 0 (choice.chosen n places))) := by
  refine answers_searching offers
    (mem_searching choice (List.mem_cons_of_mem _ List.mem_cons_self)) ?taken
    (fst_mem_of_mem_ite (by decide)) ?reads fun config has => ?answers
  case taken =>
    refine choice.numbered_mem n ?_
    simp only [List.forall_mem_cons, needle.stack_mem]
    exact ⟨by decide, trivial, List.forall_mem_nil _⟩
  case reads => cases choice <;> exact .refl _
  case answers =>
    exact reads.answers_removeText has choice n caps
      (replaceMatches?_eq found nonempty choice n [])

/-- What a search answers that takes a text and a pattern only: `inputs` are these two. -/
theorem answers_pattern {instruction : Instruction} {answer : Option (StackId × Value)}
    (member : instruction ∈ searching needle) (inputs : instruction.inputs = [.str, needle.stack])
    (given : ∀ entry ∈ answer, entry.1 ∈ searchStacks)
    (answers : ∀ config : Config, (∀ id ∈ searchStacks, config.Has id) →
      (instruction.body caps).Answers
        (config.holding [(.str, .str s), (needle.stack, value)]) config answer) :
    library.Answers caps instruction.name [(.str, .str s), (needle.stack, value)] answer := by
  refine answers_searching offers member ?taken given ?reads answers
  case taken =>
    simp only [List.forall_mem_cons, needle.stack_mem]
    exact ⟨by decide, trivial, List.forall_mem_nil _⟩
  case reads => exact inputs ▸ .refl _

/-- **The matches are counted**: the answer is `places.length`. -/
theorem answers_occurrences (reads : needle.Reads value pattern) (nonempty : pattern ≠ [])
    (found : Text.Matches pattern s.toList 0 places) :
    library.Answers caps ("str_occurrences_of_" ++ needle.name)
      [(.str, .str s), (needle.stack, value)] (answerCount places.length) := by
  refine answers_pattern offers (List.mem_append_right _ List.mem_cons_self) rfl
    (fst_mem_of_mem_ite (by decide)) fun config has => reads.answers_search has ?_
  rw [found.occurrences_eq nonempty]
  exact answers_pushNat (has .int (by decide)) _

/-- **The pattern is looked for**: the answer is whether there is one in `places`. -/
theorem answers_contains (reads : needle.Reads value pattern) (nonempty : pattern ≠ [])
    (found : Text.Matches pattern s.toList 0 places) :
    library.Answers caps ("str_contains_" ++ needle.name)
      [(.str, .str s), (needle.stack, value)] (some (.bool, .bool places.head?.isSome)) := by
  have hbool : StackId.bool ∈ searchStacks := by decide
  refine answers_pattern offers
    (List.mem_append_right _ (List.mem_cons_of_mem _ List.mem_cons_self)) rfl
    (by rintro entry ⟨⟩; exact hbool) fun config has => reads.answers_search has ?_
  rw [Text.contains, found.indexOf?_eq nonempty]
  exact does_push_topped (has .bool hbool) _

/-- **The first match is found**: the answer is the first of `places`. -/
theorem answers_index (reads : needle.Reads value pattern) (nonempty : pattern ≠ [])
    (found : Text.Matches pattern s.toList 0 places) :
    library.Answers caps ("str_index_of_" ++ needle.name)
      [(.str, .str s), (needle.stack, value)] (answerPosition places.head?) := by
  refine answers_pattern offers (List.mem_append_right _
      (List.mem_cons_of_mem _ (List.mem_cons_of_mem _ List.mem_cons_self))) rfl
    (answerPosition_mem (by decide) _) fun config has => reads.answers_search has ?_
  rw [found.indexOf?_eq nonempty]
  exact answers_pushPosition (has .int (by decide)) _

/-- Removing is replacing by the empty string: the two calls are `Alike`. -/
theorem alike_remove (caps : SizeCaps) (s : String) {p : String} (nonempty : p ≠ "")
    (choice : Choice) (n : Int64) :
    library.Alike caps
      ("str_remove_" ++ choice.name ++ "_" ++ "str")
      (choice.numbered n [(.str, .str s), (.str, .str p)])
      ("str_replace_" ++ choice.name ++ "_" ++ "str")
      (choice.numbered n [(.str, .str s), (.str, .str p), (.str, .str "")]) := by
  have hpattern : p.toList ≠ [] := by simpa using nonempty
  obtain ⟨places, found⟩ := Text.exists_matches hpattern s.toList 0
  exact (answers_remove offers (.str p) hpattern found choice n).alike
    (answers_replace offers (.str p) hpattern (.str "") found choice n)

end Searches

/-! ## Characters as patterns -/

section Characters

/-- A string of one character, `String.singleton c`, is read as the character is. -/
theorem reads_singleton (c : Char) : Needle.str.Reads (.str (String.singleton c)) [c] := by
  have hreads := Needle.Reads.str (String.singleton c)
  rwa [String.toList_singleton] at hreads

variable {library : Library} (offers : library.Offers (.exec :: searchStacks) searchNames)
  (caps : SizeCaps) (s : String) (c d : Char) (choice : Choice) (n : Int64)
include offers

/-- Replacing a character is `Alike` to replacing the string of it. -/
theorem alike_replace_char :
    library.Alike caps
      ("str_replace_" ++ choice.name ++ "_" ++ "char")
      (choice.numbered n [(.str, .str s), (.char, .char c), (.char, .char d)])
      ("str_replace_" ++ choice.name ++ "_" ++ "str")
      (choice.numbered n
        [(.str, .str s), (.str, .str (.singleton c)), (.str, .str (.singleton d))]) := by
  have hpattern : [c] ≠ [] := List.cons_ne_nil c []
  obtain ⟨places, found⟩ := Text.exists_matches hpattern s.toList 0
  exact (answers_replace offers (.char c) hpattern (.char d) found choice n).alike
    (answers_replace offers (reads_singleton c) hpattern (reads_singleton d) found choice n)

/-- Removing a character is `Alike` to removing the string of it. -/
theorem alike_remove_char :
    library.Alike caps
      ("str_remove_" ++ choice.name ++ "_" ++ "char")
      (choice.numbered n [(.str, .str s), (.char, .char c)])
      ("str_remove_" ++ choice.name ++ "_" ++ "str")
      (choice.numbered n [(.str, .str s), (.str, .str (.singleton c))]) := by
  have hpattern : [c] ≠ [] := List.cons_ne_nil c []
  obtain ⟨places, found⟩ := Text.exists_matches hpattern s.toList 0
  exact (answers_remove offers (.char c) hpattern found choice n).alike
    (answers_remove offers (reads_singleton c) hpattern found choice n)

/-- Searching for a character is `Alike` to searching for the string of it. -/
theorem alike_search_char :
    ∀ verb ∈ ["occurrences_of", "contains", "index_of"],
      library.Alike caps
        ("str_" ++ verb ++ "_char") [(.str, .str s), (.char, .char c)]
        ("str_" ++ verb ++ "_str") [(.str, .str s), (.str, .str (.singleton c))] := by
  have hpattern : [c] ≠ [] := List.cons_ne_nil c []
  obtain ⟨places, found⟩ := Text.exists_matches hpattern s.toList 0
  have hreads := reads_singleton c
  simp only [List.forall_mem_cons]
  refine ⟨?count, ?test, ?index, List.forall_mem_nil _⟩
  case count =>
    exact (answers_occurrences offers (.char c) hpattern found).alike
      (answers_occurrences offers hreads hpattern found)
  case test =>
    exact (answers_contains offers (.char c) hpattern found).alike
      (answers_contains offers hreads hpattern found)
  case index =>
    exact (answers_index offers (.char c) hpattern found).alike
      (answers_index offers hreads hpattern found)

/-- A character that `"str_remove_all_char"` removes occurs no longer. -/
theorem exists_answers_remove_all_char :
    ∃ result : List Char, c ∉ result ∧ library.Answers caps "str_remove_all_char"
      [(.str, .str s), (.char, .char c)] (answerText caps result) := by
  have hpattern : [c] ≠ [] := List.cons_ne_nil c []
  obtain ⟨places, found⟩ := Text.exists_matches hpattern s.toList 0
  refine ⟨_, ?_, answers_remove offers (.char c) hpattern found .all 0⟩
  rw [Text.substitute_empty, List.mem_flatten]
  rintro ⟨gap, hgap, hmem⟩
  exact found.not_infix_of_mem_gaps hpattern gap hgap ((List.singleton_infix_iff c gap).mpr hmem)

end Characters

/-! ## Consistency -/

/-- **What is answered for a pattern that does not match**: `p` in `s`, for every way to replace it.
-/
structure LeavesText (library : Library) (caps : SizeCaps) (s p r : String) (n : Int64) :
    Prop where
  /-- The text stays as it is. -/
  replace : ∀ choice : Choice, library.Answers caps
    ("str_replace_" ++ choice.name ++ "_" ++ "str")
    (choice.numbered n [(.str, .str s), (.str, .str p), (.str, .str r)])
    (answerText caps s.toList)
  /-- The pattern is not there. -/
  contains : library.Answers caps "str_contains_str" [(.str, .str s), (.str, .str p)]
    (some (.bool, .bool false))
  /-- It has no position. -/
  index : library.Answers caps "str_index_of_str" [(.str, .str s), (.str, .str p)]
    (some (.int, .int (-1)))

/-- **What is answered for a pattern that matches** at `starts`, of which `first` and the one of a
number, `nth`, are named. -/
structure ReplacesMatches (library : Library) (caps : SizeCaps) (s p r : String) (n : Int64)
    (starts : List Nat) (first nth : Nat) : Prop where
  /-- The first match. -/
  first_eq : starts.head? = some first
  /-- The match of the number `n`, taken around. -/
  nth_eq : starts[(n.toInt % starts.length).toNat]? = some nth
  /-- The first match alone is replaced. -/
  replace_first : library.Answers caps "str_replace_first_str"
    [(.str, .str s), (.str, .str p), (.str, .str r)]
    (answerText caps (Text.substitute p.toList r.toList s.toList 0 [first]))
  /-- The match of the number, `nth`, alone is replaced. -/
  replace_nth : library.Answers caps "str_replace_n_str"
    [(.str, .str s), (.str, .str p), (.str, .str r), (.int, .int n)]
    (answerText caps (Text.substitute p.toList r.toList s.toList 0 [nth]))
  /-- All matches are replaced. -/
  replace_all : library.Answers caps "str_replace_all_str"
    [(.str, .str s), (.str, .str p), (.str, .str r)]
    (answerText caps (Text.substitute p.toList r.toList s.toList 0 starts))
  /-- A multiple of `starts.length` is the number of the first match. -/
  replace_around : (starts.length : Int) ∣ n.toInt → library.Alike caps
    "str_replace_first_str" [(.str, .str s), (.str, .str p), (.str, .str r)]
    "str_replace_n_str" [(.str, .str s), (.str, .str p), (.str, .str r), (.int, .int n)]
  /-- One replacement changes the length once, by `r.length - p.length`. -/
  length_one : ∀ place ∈ [first, nth],
    ((Text.substitute p.toList r.toList s.toList 0 [place]).length : Int) =
      s.length + (r.length - p.length)
  /-- All replacements change the length as often as there are matches, `starts.length` times. -/
  length_all : ((Text.substitute p.toList r.toList s.toList 0 starts).length : Int) =
    s.length + starts.length * (r.length - p.length)
  /-- The pattern is there. -/
  contains : library.Answers caps "str_contains_str" [(.str, .str s), (.str, .str p)]
    (some (.bool, .bool true))
  /-- Its position is that of the `first` match. -/
  index : library.Answers caps "str_index_of_str" [(.str, .str s), (.str, .str p)]
    (answerCount first)

/-- **The variants of a search agree** for a text. -/
structure VariantsAgree (library : Library) (caps : SizeCaps) (s p : String) (n : Int64) :
    Prop where
  /-- Removing is `Alike` to replacing by the empty string. -/
  remove : ∀ choice : Choice, library.Alike caps
    ("str_remove_" ++ choice.name ++ "_" ++ "str")
    (choice.numbered n [(.str, .str s), (.str, .str p)])
    ("str_replace_" ++ choice.name ++ "_" ++ "str")
    (choice.numbered n [(.str, .str s), (.str, .str p), (.str, .str "")])
  /-- Replacing a character is `Alike` to replacing the string of it. -/
  replace_char : ∀ (c d : Char) (choice : Choice), library.Alike caps
    ("str_replace_" ++ choice.name ++ "_" ++ "char")
    (choice.numbered n [(.str, .str s), (.char, .char c), (.char, .char d)])
    ("str_replace_" ++ choice.name ++ "_" ++ "str")
    (choice.numbered n [(.str, .str s), (.str, .str (.singleton c)), (.str, .str (.singleton d))])
  /-- Removing a character is `Alike` to removing the string of it. -/
  remove_char : ∀ (c : Char) (choice : Choice), library.Alike caps
    ("str_remove_" ++ choice.name ++ "_" ++ "char")
    (choice.numbered n [(.str, .str s), (.char, .char c)])
    ("str_remove_" ++ choice.name ++ "_" ++ "str")
    (choice.numbered n [(.str, .str s), (.str, .str (.singleton c))])
  /-- Searching for a character is `Alike` to searching for the string of it. -/
  search_char : ∀ c : Char, ∀ verb ∈ ["occurrences_of", "contains", "index_of"],
    library.Alike caps
      ("str_" ++ verb ++ "_char") [(.str, .str s), (.char, .char c)]
      ("str_" ++ verb ++ "_str") [(.str, .str s), (.str, .str (.singleton c))]
  /-- A character that is removed everywhere occurs no longer. -/
  remove_all_char : ∀ c : Char, ∃ result : List Char, c ∉ result ∧
    library.Answers caps "str_remove_all_char" [(.str, .str s), (.char, .char c)]
      (answerText caps result)

section Consistency

variable {library : Library} (offers : library.Offers (.exec :: searchStacks) searchNames)
  (caps : SizeCaps) {s p : String} (r : String) (n : Int64) {starts : List Nat}
  (nonempty : p ≠ "")
include offers nonempty

theorem leavesText (found : Text.Matches p.toList s.toList 0 []) :
    library.LeavesText caps s p r n := by
  have hpattern : p.toList ≠ [] := by simpa using nonempty
  refine ⟨fun choice => ?replace, answers_contains offers (.str p) hpattern found,
    answers_index offers (.str p) hpattern found⟩
  have hanswers : library.Answers caps _ _ _ :=
    answers_replace offers (.str p) hpattern (.str r) found choice n
  cases choice <;> exact hanswers

theorem replacesMatches (found : Text.Matches p.toList s.toList 0 starts) (present : starts ≠ []) :
    ∃ first nth, library.ReplacesMatches caps s p r n starts first nth := by
  have hpattern : p.toList ≠ [] := by simpa using nonempty
  obtain ⟨first, others, rfl⟩ := List.exists_cons_of_ne_nil present
  obtain ⟨nth, hnth⟩ := exists_getElem?_emod present n
  have hreplace (choice : Choice) (number : Int64) : library.Answers caps _ _ _ :=
    answers_replace offers (.str p) hpattern (.str r) found choice number
  have hother := hreplace .nth n
  simp only [Choice.chosen, hnth, Option.toList_some] at hother
  have hmatches := found.prefix_of_mem
  refine ⟨first, nth, ?_⟩
  exact {
    first_eq := rfl
    nth_eq := hnth
    replace_first := hreplace .first 0
    replace_nth := hother
    replace_all := hreplace .all 0
    replace_around := by
      intro hdvd
      -- The number comes to zero, so that both replace the first match.
      rw [Int.emod_eq_zero_of_dvd hdvd] at hnth
      obtain rfl : first = nth := Option.some.inj hnth
      exact (hreplace .first 0).alike hother
    length_one := by
      intro place hplace
      have hmem : place ∈ first :: others := by
        rcases List.mem_cons.mp hplace with rfl | hplace
        · exact List.mem_cons_self
        · rw [List.mem_singleton.mp hplace]
          exact List.mem_of_getElem? hnth
      have hlength := Text.length_substitute_singleton hpattern r.toList (Nat.zero_le place)
        (hmatches place hmem)
      simpa only [List.drop_zero, String.length_toList] using hlength
    length_all := by
      have hlength := found.length_substitute hpattern r.toList
      simpa only [List.drop_zero, String.length_toList] using hlength
    contains := answers_contains offers (.str p) hpattern found
    index := answers_index offers (.str p) hpattern found }

end Consistency

/-- **Searching and replacing agree** on one list of matches: the places, from left to right and
without overlap, at which the pattern stands (`Text.Matches`). They are counted. Without a match the
text stays as it is; else the first match is replaced, the one of a number taken around, or every
one, and nothing else changes. -/
theorem replacing_consistent (library : Library)
    (offers : library.Offers (.exec :: searchStacks) searchNames) (caps : SizeCaps)
    (s p r : String) (n : Int64) (nonempty : p ≠ "") :
    (∃ starts : List Nat, Text.Matches p.toList s.toList 0 starts ∧
      library.Answers caps "str_occurrences_of_str" [(.str, .str s), (.str, .str p)]
        (answerCount starts.length) ∧
      (starts = [] → library.LeavesText caps s p r n) ∧
      (starts ≠ [] → ∃ first nth, library.ReplacesMatches caps s p r n starts first nth)) ∧
    library.VariantsAgree caps s p n := by
  have hpattern : p.toList ≠ [] := by simpa using nonempty
  obtain ⟨starts, found⟩ := Text.exists_matches hpattern s.toList 0
  refine ⟨⟨starts, found, answers_occurrences offers (.str p) hpattern found, ?absent,
    replacesMatches offers caps r n nonempty found⟩, ?variants⟩
  case absent =>
    rintro rfl
    exact leavesText offers caps r n nonempty found
  case variants =>
    exact {
      remove := fun choice => alike_remove offers caps s nonempty choice n
      replace_char := fun c d choice => alike_replace_char offers caps s c d choice n
      remove_char := fun c choice => alike_remove_char offers caps s c choice n
      search_char := fun c => alike_search_char offers caps s c
      remove_all_char := fun c => exists_answers_remove_all_char offers caps s c }

/-- Of overlapping candidates every second one is a match. The number `-3` is that of the last of
two, and the first is at character one, which is not its byte. -/
theorem replacing_consistent_overlapping :
    core.Offers (.exec :: searchStacks) searchNames ∧ "éaé" ≠ "" ∧
      core.Gives {} "str_occurrences_of_str" [(.str, .str "ééaéaéaéaé"), (.str, .str "éaé")]
        .int (.int 2) ∧
      core.Gives {} "str_index_of_str" [(.str, .str "ééaéaéaéaé"), (.str, .str "éaé")]
        .int (.int 1) ∧
      core.Gives {} "str_replace_n_str"
        [(.str, .str "ééaéaéaéaé"), (.str, .str "éaé"), (.str, .str "ß"), (.int, .int (-3))]
        .str (.str "ééaéaßaé") := by
  have offers := offers_core (.exec :: searchStacks) searchNames
  have hfound : Text.Matches "éaé".toList "ééaéaéaéaé".toList 0 [1, 5] := by
    refine .next (by decide) (by decide) ?_ (.next (by decide) (by decide) ?_ (.ends ?_))
    · intro earlier _ hearlier
      obtain rfl : earlier = 0 := by omega
      decide
    · intro earlier hstart hearlier
      obtain rfl : earlier = 4 := Nat.le_antisymm (Nat.le_of_lt_succ hearlier) hstart
      decide
    · intro place hplace hmatch
      -- Too little of the text is left.
      have hend : place + 3 ≤ 10 := Text.add_length_le (by decide) hmatch
      have hstart : 8 ≤ place := hplace
      omega
  obtain ⟨⟨starts, found, hcount, -, hpresent⟩, -⟩ :=
    replacing_consistent core offers {} "ééaéaéaéaé" "éaé" "ß" (-3) (by decide)
  obtain rfl := found.unique hfound
  obtain ⟨first, nth, hreplaces⟩ := hpresent (List.cons_ne_nil _ _)
  obtain rfl : 1 = first := Option.some.inj hreplaces.first_eq
  obtain rfl : 5 = nth := Option.some.inj hreplaces.nth_eq
  exact ⟨offers, by decide, hcount, hreplaces.index, hreplaces.replace_nth⟩

end Library

end PushMachine
