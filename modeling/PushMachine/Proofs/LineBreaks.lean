import PushMachine.Proofs.Computations
import PushMachine.Proofs.PrintedText
import PushMachine.Proofs.Rearrangement
import PushMachine.Proofs.TextReplacement
import PushMachine.Samples

/-! # A program that breaks lines

A sample program prints a text with a line break for every space, and counts the other characters.
It copies the text, since replacing and removing both take it. What it prints and counts is told
character by character (`Text.replaceAll_singleton`), and its steps are put together around the one
that prints (`Library.leadsIn_print`). -/

namespace PushMachine

/-! ## Replacing one character -/

namespace Text

variable {pieces : List (List Char)}

/-- A text has one piece at least: `piecesFrom` is not empty. -/
theorem piecesFrom_ne_nil (pattern : List Char) (skip : Nat) (text : List Char) :
    piecesFrom pattern skip text ≠ [] := by
  fun_induction piecesFrom pattern skip text with
  | case1 => exact List.cons_ne_nil _ _
  | case2 skip c rest ih => exact ih
  | case3 c rest here ih => exact List.cons_ne_nil _ _
  | case4 c rest absent ih =>
    obtain ⟨piece, others, hpieces⟩ := List.exists_cons_of_ne_nil ih
    rw [hpieces]
    exact List.cons_ne_nil _ _

/-- A character in front of the first piece, by `consPiece`, is in front of all. -/
theorem joinWith_consPiece (separator : List Char) (c : Char) (some : pieces ≠ []) :
    joinWith separator (consPiece c pieces) = c :: joinWith separator pieces := by
  obtain ⟨piece, others, rfl⟩ := List.exists_cons_of_ne_nil some
  cases others with
  | nil => rfl
  | cons next others => simp [consPiece, joinWith]

/-- **A character is replaced** wherever it stands: `replaceAll [c]` works character by character.
-/
theorem replaceAll_singleton (c : Char) (replacement text : List Char) :
    replaceAll [c] replacement text = text.flatMap fun x => if x = c then replacement else [x] := by
  rw [replaceAll, Text.pieces]
  induction text with
  | nil => rfl
  | cons x text ih =>
    have hmore := piecesFrom_ne_nil [c] 0 text
    rw [List.flatMap_cons, ← ih, piecesFrom]
    -- A match of one character skips nothing of the text behind it.
    by_cases hx : x = c
    · have hhere : [c].isPrefixOf (x :: text) = true := by simp [hx]
      rw [if_pos hhere, if_pos hx]
      exact joinWith_cons hmore [] replacement
    · have habsent : ¬[c].isPrefixOf (x :: text) = true := by simp [Ne.symm hx]
      rw [if_neg habsent, if_neg hx, joinWith_consPiece _ _ hmore]
      rfl

/-- A character in place of another one: `replaceAll [c] [d]` maps the characters. -/
theorem replaceAll_char (c d : Char) (text : List Char) :
    replaceAll [c] [d] text = text.map fun x => if x = c then d else x := by
  have hone : (fun x => if x = c then [d] else [x]) = fun x => [if x = c then d else x] := by
    funext x
    split <;> rfl
  rw [replaceAll_singleton, hone, ← List.map_eq_flatMap]

/-- Nothing in place of a character leaves the others: `replaceAll [c] []` filters the characters.
-/
theorem replaceAll_nothing (c : Char) (text : List Char) :
    replaceAll [c] [] text = text.filter (· ≠ c) := by
  rw [replaceAll_singleton]
  induction text with
  | nil => rfl
  | cons x text ih =>
    rw [List.flatMap_cons, ih]
    by_cases hx : x = c <;> simp [hx]

end Text

/-! ## Printing -/

namespace Config

variable {config : Config} {id : StackId}

/-- The configuration with `text` printed behind what is in `stdout`. -/
def printing (config : Config) (text : String) : Config :=
  { config with
    rest :=
      { config.rest with
        stdout := config.rest.stdout ++ text
        stdoutLength := config.rest.stdoutLength + text.length } }

/-- Printing does not change the stacks: `config.printing text` has those of `config`. -/
theorem stack?_printing (text : String) : (config.printing text).stack? id = config.stack? id := rfl

theorem stdout_printing (text : String) :
    (config.printing text).rest.stdout = config.rest.stdout ++ text := rfl

theorem printing_ahead (text : String) (code : Block) :
    (config.ahead code).printing text = (config.printing text).ahead code := rfl

/-- Values may be pushed before or after: `printing` commutes with `topped`. -/
theorem printing_topped (text : String) (value : Value) :
    (config.topped id value).printing text = (config.printing text).topped id value := by
  simp only [topped, stack?_printing, setStack]
  split <;> rfl

theorem Hosts.printing {registry : Registry} {inputs : List Value}
    (hosts : config.Hosts registry inputs) (text : String) :
    (config.printing text).Hosts registry inputs :=
  ⟨fun registered => hosts.has registered, hosts.inputs_eq⟩

end Config

namespace Script

/-- Printing a text that fits leads from `config` to `config.printing text`. -/
theorem does_print {config : Config} {text : String} {cap : Nat}
    (fits : config.rest.stdoutLength + text.length ≤ cap) :
    (Script.print text cap).Does config () (config.printing text) 0 := by
  intro state shown
  have hlength : state.stdoutLength = config.rest.stdoutLength :=
    (show state.settled.stdoutLength = _ from congrArg State.stdoutLength shown.rest)
  have happly : ∃ next, state.apply (.print text cap) = .ok ((), next) ∧
      next.Shows (config.printing text) ∧ next.pushed = state.pushed := by
    rw [State.apply, State.print, if_neg (by omega)]
    refine ⟨_, rfl, ?_, State.pushed_note _⟩
    have hnoted := shown.note (.printed state.stdout.utf8ByteSize)
    refine ⟨hnoted.pending, ?_⟩
    rw [Config.printing, ← hnoted.rest]
    rfl
  obtain ⟨next, hnext, hshown, hpushed⟩ := happly
  exact ⟨next, run_act_of_apply hnext, hshown, hpushed⟩

end Script

/-! ## The instructions of the program -/

namespace Library

open Instruction Script

set_option maxRecDepth 1500 in
/-- Among the core instructions, which are looked up from the end, `"str_dup"` is far away. -/
theorem get?_core_strDup : (InstructionSet.core .core).get? "str_dup" =
    some (ofVerb .str "str" "dup" [.str] [.str] 1 fun _ => copyTop .str) :=
  InstructionSet.get?_core rfl rfl

set_option maxRecDepth 1500 in
theorem get?_core_printStr : (InstructionSet.core .core).get? "print_str" =
    some (printing .str "str") :=
  InstructionSet.get?_core rfl rfl

theorem get?_core_strLength : (InstructionSet.core .core).get? "str_length" =
    some { name := "str_length", inputs := [.str], outputs := [.int]
           body := fun _ => textLength } :=
  InstructionSet.get?_core rfl rfl

section Pieces

variable {limits : Limits} {inputs : List Value} {e : Expr} {config : Config} {s : String}
  {c d : Char}

/-- A character computes itself: the code `[.char c]` leaves `c`. -/
theorem computes_char (limits : Limits) (inputs : List Value) (c : Char) :
    core.Computes limits inputs 1 [.char c] [] [(.char, .char c)] :=
  computes_literal rfl (by decide) rfl

/-- Every stack in `searchStacks` is there. -/
theorem has_searchStacks (hosts : config.Hosts core.registry inputs) :
    ∀ id ∈ searchStacks, config.Has id := by
  have hcore : ∀ id ∈ searchStacks, Registry.core.contains id = true := by decide
  exact fun id hid => hosts.has (hcore id hid)

/-- **The step that prints** a text with `"print_str"`, if there is room for it. -/
theorem leadsIn_print (called : (Atom.expr e).called? = some "print_str")
    (hosts : config.Hosts core.registry inputs)
    (room : config.rest.stdoutLength + s.length ≤ limits.collectionSizeCap) :
    core.LeadsIn limits (·.From (.ofRegistry core.registry)) 1
      ((config.holding [(.str, .str s)]).ahead [e]) (config.printing s) := by
  have hstr := has_searchStacks hosts .str (by decide)
  obtain ⟨texts, found⟩ := hstr
  refine leadsIn_call (core.realm_of_registry limits) called get?_core_printStr ?_
    (.bind (m := 0) (does_pop_topped ⟨texts, found⟩ _) (does_print room)) (Nat.zero_le _)
  refine Config.readies_of_nodup (by decide) fun id hid => ?_
  obtain rfl := List.mem_singleton.mp hid
  exact ⟨_, _, Config.stack?_topped_self found _⟩

variable (cap : 1 ≤ limits.growthCap)
include cap

/-- Copying a text with `"str_dup"`. -/
theorem computes_copyText (called : (Atom.expr e).called? = some "str_dup") (s : String) :
    core.Computes limits inputs 1 [e] [(.str, .str s)] [(.str, .str s), (.str, .str s)] := by
  refine computes_call called get?_core_strDup (by decide) (.refl _) (by simp +decide)
    (by simp +decide) cap fun config hosts => ?_
  obtain ⟨texts, found⟩ := has_searchStacks hosts .str (by decide)
  have hheld := Config.stack?_topped_self found (.str s)
  exact .bind (m := 1) (does_peek hheld rfl) (does_push_topped ⟨_, hheld⟩ _)

/-- Replacing a character everywhere with `"str_replace_all_char"`. -/
theorem computes_replaceChar (called : (Atom.expr e).called? = some "str_replace_all_char")
    (fits : s.length ≤ limits.collectionSizeCap) (inputs : List Value) (c d : Char) :
    core.Computes limits inputs 1 [e] [(.str, .str s), (.char, .char c), (.char, .char d)]
      [(.str, .str (String.ofList (s.toList.map fun x => if x = c then d else x)))] := by
  have hmember : _ ∈ searching .char := mem_searching .all List.mem_cons_self
  refine computes_call ?_ (get?_searching (offers_core _ _) hmember) (by decide) (.refl _)
    (by simp +decide) (by simp +decide) cap fun config hosts => ?_
  · exact called
  have hreplaced : replaceMatches? .all 0 [c] [d] s.toList =
      some (s.toList.map fun x => if x = c then d else x) := by
    rw [← Text.replaceAll_char]
    rfl
  have hanswers := (Needle.Reads.char c).answers_replaceText (has_searchStacks hosts) (.char d) .all
    0 limits.toSizeCaps hreplaced
  rw [answerText, List.length_map, String.length_toList, if_pos fits] at hanswers
  exact hanswers

/-- Removing a character everywhere with `"str_remove_all_char"`. -/
theorem computes_removeChar (called : (Atom.expr e).called? = some "str_remove_all_char")
    (fits : s.length ≤ limits.collectionSizeCap) (c : Char) :
    core.Computes limits inputs 1 [e] [(.str, .str s), (.char, .char c)]
      [(.str, .str (String.ofList (s.toList.filter (· ≠ c))))] := by
  have hmember : _ ∈ searching .char :=
    mem_searching .all (List.mem_cons_of_mem _ List.mem_cons_self)
  refine computes_call ?_ (get?_searching (offers_core _ _) hmember) (by decide) (.refl _)
    (by simp +decide) (by simp +decide) cap fun config hosts => ?_
  · exact called
  have hremoved : replaceMatches? .all 0 [c] [] s.toList = some (s.toList.filter (· ≠ c)) := by
    rw [← Text.replaceAll_nothing]
    rfl
  have hanswers := (Needle.Reads.char c).answers_removeText (has_searchStacks hosts) .all 0
    limits.toSizeCaps hremoved
  -- The limit is on what is left, which is not longer than the text.
  have hshorter := List.length_filter_le (· ≠ c) s.toList
  rw [String.length_toList] at hshorter
  rw [answerText, if_pos (hshorter.trans fits)] at hanswers
  exact hanswers

/-- Counting the characters of a text with `"str_length"`. -/
theorem computes_textLength (called : (Atom.expr e).called? = some "str_length")
    (countable : s.length < 2 ^ 63) :
    core.Computes limits inputs 1 [e] [(.str, .str s)]
      [(.int, .int (Int64.ofNat s.length))] := by
  refine computes_call called get?_core_strLength (by decide) (.refl _) (by simp +decide)
    (by simp +decide) cap fun config hosts => ?_
  have has := has_searchStacks hosts
  have hanswers : textLength.Answers (config.holding [(.str, .str s)]) config
      (answerCount s.toList.length) :=
    (does_popText (has .str (by decide)) s).bind_answers (answers_pushNat (has .int (by decide)) _)
  rw [String.length_toList, answerCount, if_pos countable] at hanswers
  exact hanswers

/-- The first part of the program copies the text and breaks the copy. -/
theorem computes_broken (set : InstructionSet) (fits : s.length ≤ limits.collectionSizeCap) :
    core.Computes limits [.str s] 6
      [.input 0, set.toExpr "str_dup", .char ' ', .char '\n', set.toExpr "str_replace_all_char"] []
      [(.str, .str s),
        (.str, .str (String.ofList (s.toList.map fun c => if c = ' ' then '\n' else c)))] := by
  have hinput : core.Computes limits [.str s] 2 [.input 0] [] [(.str, .str s)] :=
    computes_input rfl (fun _ => Value.noConfusion) rfl rfl (by decide) rfl
  have hspace := (computes_char limits [.str s] ' ').frame [(.str, .str s), (.str, .str s)]
    (by simp +decide)
  have hbreak := (computes_char limits [.str s] '\n').frame
    [(.str, .str s), (.str, .str s), (.char, .char ' ')] (by simp +decide)
  have hreplace := (computes_replaceChar cap (set.called?_toExpr _) fits [.str s] ' ' '\n').frame
    [(.str, .str s)] (by simp +decide)
  exact hinput.append ((computes_copyText cap (set.called?_toExpr _) s).append
    (hspace.append (hbreak.append hreplace)))

/-- The second part counts the characters that are no spaces. -/
theorem computes_count (set : InstructionSet) (fits : s.length ≤ limits.collectionSizeCap)
    (countable : s.toList.countP (· ≠ ' ') < 2 ^ 63) :
    core.Computes limits inputs 3
      [.char ' ', set.toExpr "str_remove_all_char", set.toExpr "str_length"] [(.str, .str s)]
      [(.int, .int (Int64.ofNat (s.toList.countP (· ≠ ' '))))] := by
  have hspace := (computes_char limits inputs ' ').frame [(.str, .str s)] (by simp +decide)
  have hlength : (String.ofList (s.toList.filter (· ≠ ' '))).length =
      s.toList.countP (· ≠ ' ') := by
    rw [String.length_ofList, List.countP_eq_length_filter]
  rw [← hlength] at countable ⊢
  exact hspace.append ((computes_removeChar cap (set.called?_toExpr _) fits ' ').append
    (computes_textLength cap (set.called?_toExpr _) countable))

/-- **The steps of the program** break the text, print it, and count. -/
theorem leadsIn_spacesToLines (set : InstructionSet)
    (hosts : config.Hosts core.registry [.str s])
    (room : config.rest.stdoutLength + s.length ≤ limits.collectionSizeCap)
    (countable : s.toList.countP (· ≠ ' ') < 2 ^ 63) :
    core.LeadsIn limits (·.From (.ofRegistry core.registry)) 10
      (config.ahead (Samples.spacesToLines set))
      ((config.printing (String.ofList (s.toList.map fun c => if c = ' ' then '\n' else c))).topped
        .int (.int (Int64.ofNat (s.toList.countP (· ≠ ' '))))) := by
  let text := String.ofList (s.toList.map fun c => if c = ' ' then '\n' else c)
  let counting := [.char ' ', set.toExpr "str_remove_all_char", set.toExpr "str_length"]
  have reigns := core.realm_of_registry limits
  have hlength : text.length = s.length := by
    rw [String.length_ofList, List.length_map, String.length_toList]
  have fits : s.length ≤ limits.collectionSizeCap := by omega
  -- The part that counts waits while the text is broken and printed.
  have hbroken := (computes_broken cap set fits).leads
    (config.ahead (set.toExpr "print_str" :: counting)) (hosts.ahead _)
  rw [Config.holding_ahead beside_nil, ← Config.ahead_append,
    Config.holding_ahead (by simp +decide)] at hbroken
  have hroom : ((config.topped .str (.str s)).ahead counting).rest.stdoutLength + text.length ≤
      limits.collectionSizeCap := by
    show (config.topped .str (.str s)).rest.stdoutLength + text.length ≤ _
    rwa [Config.stdoutLength_topped, hlength]
  have hprint := leadsIn_print (set.called?_toExpr "print_str")
    ((hosts.topped .str (.str s)).ahead counting) hroom
  rw [Config.holding_ahead (by simp +decide), ← Config.ahead_append, Config.printing_ahead,
    Config.printing_topped] at hprint
  have hcount := (computes_count cap set fits countable).leads (config.printing text)
    (hosts.printing text)
  exact hbroken.trans reigns (hprint.trans reigns hcount)

end Pieces

end Library

namespace Machine

/-- **The program that breaks lines runs to its end**: `Samples.spacesToLines`, on every machine of
the core library that is given eleven steps, the time for them and room for the text. It prints the
text with a line break for every space, and leaves the number of the other characters as the only
item on any stack. As every count, the number has to be an integer of the machine. -/
theorem spacesToLines_finishes (machine : Machine) (madeOf : machine.MadeOf .core)
    (set : InstructionSet) (s : String) (outputs : List String) (limits : Limits) (clock : Clock)
    (fits : s.length ≤ limits.collectionSizeCap) (countable : s.toList.countP (· ≠ ' ') < 2 ^ 63)
    (steps : 11 ≤ limits.stepLimit) (lasts : clock.Lasts limits 0 11)
    (cap : 1 ≤ limits.growthCap) :
    Finished (machine.run (Samples.spacesToLines set) [.str s] outputs limits clock) 11
      (String.ofList (s.toList.map fun c => if c = ' ' then '\n' else c)) .int
      [.int (Int64.ofNat (s.toList.countP (· ≠ ' ')))] := by
  have hosts := Library.core.blank_hosts [.str s]
  have hroom : (Library.core.blank [.str s]).rest.stdoutLength + s.length ≤
      limits.collectionSizeCap := by
    rwa [show (Library.core.blank [.str s]).rest.stdoutLength = 0 from rfl, Nat.zero_add]
  have hfinished := finished_of_leadsIn madeOf rfl
    (Library.leadsIn_spacesToLines cap set hosts hroom countable) (by decide)
    ((hosts.printing _).has rfl) (fun other left found => ?_) steps outputs lasts
  · rwa [Config.stdout_printing, show (Library.core.blank [.str s]).rest.stdout = "" from rfl,
      String.empty_append] at hfinished
  · rw [Config.stack?_printing] at found
    exact Library.stack?_blank found

/-- A text that just fits, with two spaces and letters of more than one byte. -/
theorem spacesToLines_finishes_accented :
    core.MadeOf .core ∧
      Finished (core.run (Samples.spacesToLines (.core .core)) [.str "é  ß"] []
        { stepLimit := 11, growthCap := 1, collectionSizeCap := 4 } .still) 11 "é\n\nß" .int
        [.int 2] := by
  have hmade : core.MadeOf .core := core_madeOf
  refine ⟨hmade, ?_⟩
  exact spacesToLines_finishes core hmade _ "é  ß" [] _ _ (by decide) (by decide) (by decide)
    (Clock.lasts_still _ _ _) (by decide)

end Machine

end PushMachine
