import Mathlib.Data.Nat.Find
import Mathlib.Tactic.Linarith
import PushMachine.Text.Search

/-! # Matches and pieces

The matches of a pattern are found from left to right and do not overlap: the first is at the first
place where the pattern stands, and the search goes on behind it. `Matches` says so by places in the
text, without cutting anything. The pieces of a text are the gaps between these matches
(`Matches.pieces_eq`), so what is read off the pieces is told by the places of the matches: counting
and finding them, and putting a replacement at all of them or at one. -/

namespace PushMachine.Text

variable {pattern replacement text : List Char} {start place : Nat} {places : List Nat}

/-! ## Matches -/

/-- **The matches of a pattern** from `start` on: the first place at which the pattern stands, and
then those behind it. -/
inductive Matches (pattern text : List Char) : Nat → List Nat → Prop where
  /-- The pattern stands nowhere. -/
  | ends {start : Nat} (absent : ∀ place, start ≤ place → ¬pattern <+: text.drop place) :
    Matches pattern text start []
  /-- The pattern stands at a place and at none before it. -/
  | next {start place : Nat} {places : List Nat} (within : start ≤ place)
      (here : pattern <+: text.drop place)
      (first : ∀ earlier, start ≤ earlier → earlier < place → ¬pattern <+: text.drop earlier)
      (rest : Matches pattern text (place + pattern.length) places) :
    Matches pattern text start (place :: places)

/-- A pattern that stands at a place ends within the text: `place + pattern.length ≤ text.length`.
-/
theorem add_length_le (nonempty : pattern ≠ []) (here : pattern <+: text.drop place) :
    place + pattern.length ≤ text.length := by
  have hlength := here.length_le
  have hpositive := List.length_pos_iff.mpr nonempty
  rw [List.length_drop] at hlength
  omega

/-- The text from a match on is `pattern` and what follows. -/
theorem drop_eq_append (here : pattern <+: text.drop place) :
    text.drop place = pattern ++ text.drop (place + pattern.length) := by
  obtain ⟨after, hafter⟩ := here
  rw [← List.drop_drop, ← hafter, List.drop_left]

/-- A stretch of the text that goes beyond a match holds the pattern there. -/
theorem take_past_match {near : Nat} (within : start ≤ near) (here : pattern <+: text.drop near)
    (behind : near + pattern.length ≤ place) :
    (text.drop start).take (place - start) =
      (text.drop start).take (near - start) ++ pattern ++
        (text.drop (near + pattern.length)).take (place - (near + pattern.length)) := by
  have hplace : place - start =
      near - start + (pattern.length + (place - (near + pattern.length))) := by omega
  have hnear : start + (near - start) = near := Nat.add_sub_cancel' within
  rw [hplace, List.take_add, List.drop_drop, hnear, drop_eq_append here,
    List.take_length_add_append, List.append_assoc]

/-- **Every text has its matches.** -/
theorem exists_matches (nonempty : pattern ≠ []) (text : List Char) (start : Nat) :
    ∃ places, Matches pattern text start places := by
  -- Each match leaves less of the text to search.
  induction hleft : text.length - start using Nat.strong_induction_on generalizing start with
  | h left ih =>
    by_cases hfound : ∃ place, start ≤ place ∧ pattern <+: text.drop place
    · classical
      obtain ⟨hwithin, hhere⟩ := Nat.find_spec hfound
      have hend := add_length_le nonempty hhere
      have hpositive := List.length_pos_iff.mpr nonempty
      obtain ⟨places, hplaces⟩ := ih _ (by omega) (Nat.find hfound + pattern.length) rfl
      refine ⟨_, .next hwithin hhere (fun earlier hstart hearlier hmatch => ?_) hplaces⟩
      exact Nat.find_min hfound hearlier ⟨hstart, hmatch⟩
    · exact ⟨[], .ends fun place hplace hmatch => hfound ⟨place, hplace, hmatch⟩⟩

namespace Matches

/-- There is one list of `Matches` only. -/
theorem unique {others : List Nat} (found : Matches pattern text start places)
    (again : Matches pattern text start others) : places = others := by
  induction found generalizing others with
  | ends absent =>
    cases again with
    | ends => rfl
    | next within here => exact absurd here (absent _ within)
  | @next start place places within here first rest ih =>
    cases again with
    | ends absent => exact absurd here (absent _ within)
    | @next _ place' places' within' here' first' rest' =>
      -- Neither of the two first matches can be before the other.
      obtain hlt | rfl | hlt := Nat.lt_trichotomy place place'
      · exact absurd here (first' _ within hlt)
      · rw [ih rest']
      · exact absurd here' (first _ within' hlt)

/-- No match lies before the start. -/
theorem le_of_mem (found : Matches pattern text start places) :
    ∀ place ∈ places, start ≤ place := by
  induction found with
  | ends => exact List.forall_mem_nil _
  | next within here first rest ih =>
    refine List.forall_mem_cons.mpr ⟨within, fun place hplace => ?_⟩
    have := ih place hplace
    omega

/-- At every match stands the pattern: it is a prefix of `text.drop place`. -/
theorem prefix_of_mem (found : Matches pattern text start places) :
    ∀ place ∈ places, pattern <+: text.drop place := by
  induction found with
  | ends => exact List.forall_mem_nil _
  | next within here first rest ih => exact List.forall_mem_cons.mpr ⟨here, ih⟩

end Matches

/-! ## Pieces -/

/-- **The gaps** between matches at `places`, and those before and behind them. -/
def gaps (pattern text : List Char) : Nat → List Nat → List (List Char)
  | start, [] => [text.drop start]
  | start, place :: places =>
    (text.drop start).take (place - start) :: gaps pattern text (place + pattern.length) places

/-- There is one gap more than there are matches. -/
theorem length_gaps (pattern text : List Char) (start : Nat) (places : List Nat) :
    (gaps pattern text start places).length = places.length + 1 := by
  induction places generalizing start with
  | nil => rfl
  | cons place places ih => rw [gaps, List.length_cons, List.length_cons, ih]

theorem gaps_ne_nil (pattern text : List Char) (start : Nat) (places : List Nat) :
    gaps pattern text start places ≠ [] := by
  cases places <;> exact List.cons_ne_nil _ _

/-- Characters that belong to a match are skipped: `piecesFrom pattern skip` drops `skip` of them.
-/
theorem piecesFrom_eq_drop (pattern text : List Char) (skip : Nat) :
    piecesFrom pattern skip text = piecesFrom pattern 0 (text.drop skip) := by
  induction text generalizing skip with
  | nil => cases skip <;> rfl
  | cons c rest ih =>
    cases skip with
    | zero => rfl
    | succ skip => rw [piecesFrom, List.drop_succ_cons, ih]

/-- A text without a match is one piece. -/
theorem piecesFrom_of_absent (absent : ∀ place, ¬pattern <+: text.drop place) :
    piecesFrom pattern 0 text = [text] := by
  induction text with
  | nil => rfl
  | cons c rest ih =>
    have hhere : ¬pattern.isPrefixOf (c :: rest) = true := by
      rw [List.isPrefixOf_iff_prefix]
      exact absent 0
    rw [piecesFrom, if_neg hhere, ih fun place => absent (place + 1)]
    rfl

/-- The first match, at `place`, ends the first piece. -/
theorem piecesFrom_of_first (nonempty : pattern ≠ []) (here : pattern <+: text.drop place)
    (first : ∀ earlier < place, ¬pattern <+: text.drop earlier) :
    piecesFrom pattern 0 text =
      text.take place :: piecesFrom pattern 0 (text.drop (place + pattern.length)) := by
  have hend := add_length_le nonempty here
  have hpositive := List.length_pos_iff.mpr nonempty
  induction place generalizing text with
  | zero =>
    cases text with
    | nil => exact absurd hend (by simpa using nonempty)
    | cons c rest =>
      -- All characters of the match but the first are skipped.
      have hhere : pattern.isPrefixOf (c :: rest) = true := List.isPrefixOf_iff_prefix.mpr here
      rw [piecesFrom, if_pos hhere, piecesFrom_eq_drop, List.take_zero, Nat.zero_add]
      obtain ⟨length, hlength⟩ := Nat.exists_eq_add_of_le' hpositive
      rw [hlength, Nat.add_sub_cancel, List.drop_succ_cons]
  | succ place ih =>
    cases text with
    | nil => exact absurd hend (by simp)
    | cons c rest =>
      -- The first character belongs to the piece, and the match is one place nearer behind it.
      have hhere : ¬pattern.isPrefixOf (c :: rest) = true := by
        rw [List.isPrefixOf_iff_prefix]
        exact first 0 (Nat.succ_pos place)
      rw [List.length_cons] at hend
      have hrest := ih here (fun earlier hlt => first (earlier + 1) (Nat.succ_lt_succ hlt))
        (by omega)
      rw [piecesFrom, if_neg hhere, hrest, Nat.succ_add, List.drop_succ_cons]
      rfl

/-- The pieces from `start` on are the `gaps` from there. -/
theorem Matches.piecesFrom_eq (found : Matches pattern text start places)
    (nonempty : pattern ≠ []) :
    piecesFrom pattern 0 (text.drop start) = gaps pattern text start places := by
  induction found with
  | @ends start absent =>
    refine piecesFrom_of_absent fun place => ?_
    rw [List.drop_drop]
    exact absent _ (Nat.le_add_right _ _)
  | @next start place places within here first rest ih =>
    have hplace : start + (place - start) = place := Nat.add_sub_cancel' within
    have hcut := @piecesFrom_of_first pattern (text.drop start) (place - start) nonempty
    rw [List.drop_drop, List.drop_drop, ← Nat.add_assoc, hplace, ih] at hcut
    refine hcut here fun earlier hearlier => ?_
    rw [List.drop_drop]
    exact first _ (Nat.le_add_right _ _) (by omega)

/-- **The pieces of a text**, `Text.pieces`, are the gaps between the matches. -/
theorem Matches.pieces_eq (found : Matches pattern text 0 places) (nonempty : pattern ≠ []) :
    pieces pattern text = gaps pattern text 0 places :=
  found.piecesFrom_eq nonempty

/-- No gap contains the `pattern`. -/
theorem Matches.not_infix_of_mem_gaps (found : Matches pattern text start places)
    (nonempty : pattern ≠ []) : ∀ gap ∈ gaps pattern text start places, ¬pattern <:+: gap := by
  -- The pattern inside a gap would be a match that the search has passed over.
  induction found with
  | @ends start absent =>
    rintro gap hgap ⟨before, after, hinfix⟩
    rw [gaps, List.mem_singleton] at hgap
    refine absent (start + before.length) (Nat.le_add_right _ _) ⟨after, ?_⟩
    rw [← List.drop_drop, ← hgap, ← hinfix, List.append_assoc, List.drop_left]
  | @next start place places within here first rest ih =>
    rw [gaps, List.forall_mem_cons]
    refine ⟨?_, ih⟩
    rintro ⟨before, after, hinfix⟩
    have hpositive := List.length_pos_iff.mpr nonempty
    have hlength := congrArg List.length hinfix
    rw [List.length_take, List.length_append, List.length_append] at hlength
    refine first (start + before.length) (Nat.le_add_right _ _) (by omega) ?_
    -- What the gap holds behind `before` stands in the text as well.
    have hbehind : pattern ++ after = (text.drop (start + before.length)).take
        (place - start - before.length) := by
      rw [← List.drop_drop, ← List.drop_take, ← hinfix, List.append_assoc, List.drop_left]
    exact (List.prefix_append pattern after).trans (hbehind ▸ List.take_prefix _ _)

/-! ## Counting and finding -/

section Searches

variable (found : Matches pattern text 0 places) (nonempty : pattern ≠ [])

include found nonempty

/-- **The matches are counted**: `occurrences` is their number. -/
theorem Matches.occurrences_eq : occurrences pattern text = places.length := by
  rw [occurrences, if_neg nonempty, found.pieces_eq nonempty, length_gaps, Nat.add_sub_cancel]

/-- **The first match is found**: `indexOf?` is the first of `places`. -/
theorem Matches.indexOf?_eq : indexOf? pattern text = places.head? := by
  rw [indexOf?, if_neg nonempty, found.pieces_eq nonempty]
  cases found with
  | ends => rfl
  | @next _ place places within here first rest =>
    have hend := add_length_le nonempty here
    obtain ⟨gap, others, hgaps⟩ :=
      List.exists_cons_of_ne_nil (gaps_ne_nil pattern text (place + pattern.length) places)
    rw [gaps, hgaps, List.head?_cons, List.drop_zero, Nat.sub_zero]
    simp only [List.length_take]
    rw [Nat.min_eq_left (by omega)]

end Searches

/-! ## Replacing -/

/-- **The text from a place on**, with `replacement` in place of the matches at `places`. -/
def substitute (pattern replacement text : List Char) : Nat → List Nat → List Char
  | start, [] => text.drop start
  | start, place :: places =>
    (text.drop start).take (place - start) ++ replacement ++
      substitute pattern replacement text (place + pattern.length) places

/-- One match replaced. -/
theorem substitute_singleton (pattern replacement text : List Char) (start place : Nat) :
    substitute pattern replacement text start [place] =
      (text.drop start).take (place - start) ++ replacement ++
        text.drop (place + pattern.length) :=
  rfl

section Joining

variable {pieces : List (List Char)} (more : pieces ≠ []) (piece : List Char)
include more

theorem joinWith_cons (separator : List Char) :
    joinWith separator (piece :: pieces) = piece ++ separator ++ joinWith separator pieces := by
  obtain ⟨next, rest, rfl⟩ := List.exists_cons_of_ne_nil more
  rfl

theorem joinAt_zero_cons (pattern replacement : List Char) :
    joinAt pattern replacement 0 (piece :: pieces) =
      piece ++ replacement ++ joinWith pattern pieces := by
  obtain ⟨next, rest, rfl⟩ := List.exists_cons_of_ne_nil more
  rfl

theorem joinAt_succ_cons (pattern replacement : List Char) (gap : Nat) :
    joinAt pattern replacement (gap + 1) (piece :: pieces) =
      piece ++ pattern ++ joinAt pattern replacement gap pieces := by
  obtain ⟨next, rest, rfl⟩ := List.exists_cons_of_ne_nil more
  rfl

end Joining

/-- The gaps joined by a replacement are the text with all matches replaced: `joinWith` is
`substitute`. -/
theorem joinWith_gaps (pattern replacement text : List Char) (start : Nat) (places : List Nat) :
    joinWith replacement (gaps pattern text start places) =
      substitute pattern replacement text start places := by
  induction places generalizing start with
  | nil => rfl
  | cons place places ih =>
    rw [substitute, ← ih, gaps, joinWith_cons (gaps_ne_nil pattern text _ places)]

/-- With nothing in place of the matches, the `gaps` are joined. -/
theorem substitute_empty (pattern text : List Char) (start : Nat) (places : List Nat) :
    substitute pattern [] text start places = (gaps pattern text start places).flatten := by
  induction places generalizing start with
  | nil => simp [substitute, gaps]
  | cons place places ih => simp [substitute, gaps, ih]

/-- The pattern in place of itself leaves the text: `substitute pattern pattern` is
`text.drop start`. -/
theorem Matches.substitute_self (found : Matches pattern text start places) :
    substitute pattern pattern text start places = text.drop start := by
  induction found with
  | ends => rfl
  | @next start place places within here first rest ih =>
    have hplace : start + (place - start) = place := Nat.add_sub_cancel' within
    calc substitute pattern pattern text start (place :: places)
        = (text.drop start).take (place - start) ++
            (pattern ++ text.drop (place + pattern.length)) := by
          rw [substitute, ih, List.append_assoc]
      _ = (text.drop start).take (place - start) ++ (text.drop start).drop (place - start) := by
          rw [← drop_eq_append here, List.drop_drop, hplace]
      _ = text.drop start := List.take_append_drop _ _

/-- The gaps joined by the pattern but for one replacement, `joinAt`, are the text with one match
replaced. -/
theorem Matches.joinAt_gaps (found : Matches pattern text start places) (replacement : List Char)
    {index : Nat} (chosen : places[index]? = some place) :
    joinAt pattern replacement index (gaps pattern text start places) =
      substitute pattern replacement text start [place] := by
  induction found generalizing index with
  | ends => simp at chosen
  | @next start near places within here first rest ih =>
    have hne := gaps_ne_nil pattern text (near + pattern.length) places
    cases index with
    | zero =>
      -- Behind the match that is replaced, all others are put back.
      obtain rfl : near = place := by simpa using chosen
      rw [gaps, joinAt_zero_cons hne, joinWith_gaps, rest.substitute_self]
      rfl
    | succ index =>
      -- The first match is put back, and the text up to the chosen one goes across it.
      rw [List.getElem?_cons_succ] at chosen
      have hbehind := rest.le_of_mem place (List.mem_of_getElem? chosen)
      rw [gaps, joinAt_succ_cons hne, ih chosen, substitute_singleton, substitute_singleton,
        take_past_match within here hbehind]
      simp only [List.append_assoc]

/-- **Every match is replaced**: `replaceAll` is `substitute` at all `places`. -/
theorem Matches.replaceAll_eq (found : Matches pattern text 0 places) (nonempty : pattern ≠ [])
    (replacement : List Char) :
    replaceAll pattern replacement text = substitute pattern replacement text 0 places := by
  rw [replaceAll, found.pieces_eq nonempty, joinWith_gaps]

/-- **The match of an index is replaced**: `replaceAt` is `substitute` at one place. -/
theorem Matches.replaceAt_eq (found : Matches pattern text 0 places) (nonempty : pattern ≠ [])
    (replacement : List Char) {index : Nat} (chosen : places[index]? = some place) :
    replaceAt pattern replacement index text = substitute pattern replacement text 0 [place] := by
  rw [replaceAt, found.pieces_eq nonempty, found.joinAt_gaps replacement chosen]

/-- Nothing is replaced in a text without a match: `replaceAt` leaves it. -/
theorem Matches.replaceAt_of_nil (found : Matches pattern text 0 []) (nonempty : pattern ≠ [])
    (replacement : List Char) (index : Nat) : replaceAt pattern replacement index text = text := by
  rw [replaceAt, found.pieces_eq nonempty]
  cases index <;> rfl

/-- Replacing one match changes the length by the difference between replacement and pattern. -/
theorem length_substitute_singleton (nonempty : pattern ≠ []) (replacement : List Char)
    (within : start ≤ place) (here : pattern <+: text.drop place) :
    ((substitute pattern replacement text start [place]).length : Int) =
      (text.drop start).length + (replacement.length - pattern.length) := by
  have hend := add_length_le nonempty here
  simp only [substitute_singleton, List.length_append, List.length_take, List.length_drop]
  omega

/-- **Replacing all matches** changes the length by the difference for each. -/
theorem Matches.length_substitute (found : Matches pattern text start places)
    (nonempty : pattern ≠ []) (replacement : List Char) :
    ((substitute pattern replacement text start places).length : Int) =
      (text.drop start).length + places.length * (replacement.length - pattern.length) := by
  induction found with
  | ends => simp [substitute]
  | @next start place places within here first rest ih =>
    -- The step is one replacement whose text behind the match is replaced further.
    have hone := length_substitute_singleton nonempty replacement within here
    simp only [substitute_singleton, List.length_append, Nat.cast_add] at hone
    simp only [substitute, List.length_append, List.length_cons, Nat.cast_add, Nat.cast_one,
      ih]
    linarith

end PushMachine.Text
