import PushMachine.Genome

/-! # From genomes to code and back

Flattening the code of a genome gives the genome's normal form, unless a gene is an open marker for
two groups or more: such a marker begins several blocks, each of which gets a marker of its own when
the code is flattened.

The genes that a draft stands for are read back off its frames (`Draft.outline`). Every gene that is
added leaves the outline followed by the balanced rest of the genome as it was (`Draft.Follows`),
and when all groups are closed the outline is the flattened code. That a wide marker is lost for
good is seen by counting such markers. -/

namespace PushMachine

/-- An open marker for two groups or more: `.instr openMarkerName groups` with `2 ≤ groups`. -/
def Expr.isWideMarker : Expr → Bool
  | .instr name groups => name == openMarkerName && 2 ≤ groups
  | _ => false

/-- A wide marker is an open marker: `isWideMarker` implies `isOpenMarker`. -/
theorem Expr.isOpenMarker_of_isWideMarker {e : Expr} (h : e.isWideMarker = true) :
    e.isOpenMarker = true := by
  cases e with
  | instr name groups =>
    simp only [isWideMarker, isOpenMarker, Bool.and_eq_true, decide_eq_true_eq] at h ⊢
    exact ⟨h.1, UInt8.lt_of_lt_of_le (by decide) h.2⟩
  | _ => cases h

/-- An open marker that is not wide is `.instr openMarkerName 1`. -/
theorem Expr.eq_of_isOpenMarker {e : Expr} (hmarker : e.isOpenMarker = true)
    (hnarrow : e.isWideMarker = false) : e = .instr openMarkerName 1 := by
  cases e with
  | instr name groups =>
    simp only [isOpenMarker, Bool.and_eq_true, beq_iff_eq, decide_eq_true_eq] at hmarker
    obtain ⟨rfl, hpos⟩ := hmarker
    have hlt : ¬ 2 ≤ groups := by simpa [isWideMarker] using hnarrow
    have hlower : 0 < groups.toNat := UInt8.lt_iff_toNat_lt.mp hpos
    have hupper : groups.toNat < 2 := UInt8.lt_iff_toNat_lt.mp (UInt8.not_le.mp hlt)
    obtain rfl : groups = 1 := UInt8.toNat_inj.mp (show groups.toNat = 1 by omega)
    rfl
  | _ => cases hmarker

/-- A gene that adds an open marker for two groups or more. -/
def Gene.isWideMarker (gene : Gene) : Bool :=
  match gene.atom with
  | .closer => false
  | .expr e => e.isWideMarker

/-- A gene that adds `.instr openMarkerName groups` is wide if `2 ≤ groups`. -/
theorem Gene.isWideMarker_eq {gene : Gene} {groups : UInt8}
    (hatom : gene.atom = .expr (.instr openMarkerName groups)) :
    gene.isWideMarker = decide (2 ≤ groups) := by
  rw [isWideMarker, hatom]
  exact Bool.true_and _

/-- A wide marker is an open marker for some groups. -/
theorem Gene.exists_of_isWideMarker {gene : Gene} (h : gene.isWideMarker = true) :
    ∃ groups, gene.atom = .expr (.instr openMarkerName groups) := by
  obtain ⟨atom, silent, closes⟩ := gene
  cases atom with
  | closer => cases h
  | expr e =>
    cases e with
    | instr name groups =>
      have hname : name = openMarkerName := beq_iff_eq.mp (Bool.and_eq_true_iff.mp h).1
      exact ⟨groups, by rw [hname]⟩
    | _ => cases h

/-! ## Writing code part by part -/

namespace Block

/-- The groups still owed behind a part, when `owed` were owed in front of it. -/
def afterPart (owed : UInt8) : Expr → UInt8
  | .block _ => if owed = 0 then 0 else owed - 1
  | e => e.groupCount

/-- The groups still owed behind some parts: `afterPart` folded over them. -/
def owedAfter (owed : UInt8) (parts : Block) : UInt8 := parts.foldl afterPart owed

/-- The genes of one part: a block is a group that is `owed` or gets an open marker, and in front of
any other part the groups that are `owed` are closed. -/
def writePart (owed : UInt8) : Expr → Genome
  | .block body => (if owed = 0 then [Gene.openMarker] else []) ++ flatten body ++ [Gene.closer]
  | e => List.replicate owed.toNat Gene.closer ++ [{ atom := .expr e }]

/-- The genes of some parts (`writePart` of each), without the closers behind the last one. -/
def write (owed : UInt8) : Block → Genome
  | [] => []
  | e :: rest => writePart owed e ++ write (afterPart owed e) rest

/-- One more part: `owedAfter` of `parts ++ [e]` is `afterPart` of what `parts` owe. -/
theorem owedAfter_concat (owed : UInt8) (parts : Block) (e : Expr) :
    owedAfter owed (parts ++ [e]) = afterPart (owedAfter owed parts) e := by
  rw [owedAfter, List.foldl_append]
  rfl

/-- One more part is written behind the others: `writePart` with what is `owedAfter` them. -/
theorem write_concat (owed : UInt8) (parts : Block) (e : Expr) :
    write owed (parts ++ [e]) = write owed parts ++ writePart (owedAfter owed parts) e := by
  induction parts generalizing owed with
  | nil => exact List.append_nil _
  | cons first rest ih =>
    rw [List.cons_append, write, write, ih, List.append_assoc]
    rfl

/-- One group less is owed. -/
theorem toNat_sub_one {k : UInt8} (h : k ≠ 0) : (k - 1).toNat + 1 = k.toNat := by
  have hpos : k.toNat ≠ 0 := fun hzero => h (UInt8.toNat_inj.mp hzero)
  have hle : 1 ≤ k := UInt8.le_iff_toNat_le.mpr (Nat.one_le_iff_ne_zero.mpr hpos)
  rw [UInt8.toNat_sub_of_le k 1 hle]
  exact Nat.sub_add_cancel (Nat.one_le_iff_ne_zero.mpr hpos)

/-- Flattening goes part by part: `writePart` of the first, then `flattenFrom` on the rest. -/
theorem flattenFrom_cons (owed : UInt8) (e : Expr) (rest : Block) :
    flattenFrom owed.toNat (e :: rest) =
      writePart owed e ++ flattenFrom (afterPart owed e).toNat rest := by
  cases e with
  | block body =>
    by_cases hzero : owed = 0
    · subst hzero
      simp [flattenFrom, writePart, afterPart, Expr.flattenParts, flatten]
    · rw [← toNat_sub_one hzero]
      simp [flattenFrom, writePart, afterPart, Expr.flattenParts, flatten, hzero]
  | _ => simp [flattenFrom, writePart, afterPart]

/-- Flattening is `write` and a closer for each group that is `owedAfter` the parts. -/
theorem flattenFrom_eq (owed : UInt8) (parts : Block) :
    flattenFrom owed.toNat parts =
      write owed parts ++ List.replicate (owedAfter owed parts).toNat Gene.closer := by
  induction parts generalizing owed with
  | nil => rfl
  | cons e rest ih =>
    rw [flattenFrom_cons, ih, write, List.append_assoc]
    rfl

/-- A block with `owedAfter 0 body = 0` is flattened as it is written. -/
theorem flatten_eq_write {body : Block} (h : owedAfter 0 body = 0) :
    flatten body = write 0 body := by
  have hfrom := flattenFrom_eq 0 body
  rw [h] at hfrom
  exact hfrom.trans (List.append_nil _)

end Block

/-! ## Balancing -/

namespace Owed

/-- What `close?` leaves owed when the innermost group is closed: `openFirst rest outer`. -/
theorem close?_cons (rest : UInt8) (outer : List UInt8) :
    close? (rest :: outer) = some (decide (0 < rest), openFirst rest outer) := by
  rw [close?, openFirst]
  by_cases hzero : rest = 0
  · subst hzero
    rfl
  · have hpos : 0 < rest := UInt8.pos_iff_ne_zero.mpr hzero
    rw [if_pos hpos, if_neg hzero, decide_eq_true hpos]

/-- With `k ≠ 0` groups to open, the first is opened and `k - 1` are owed. -/
theorem openFirst_of_ne_zero {k : UInt8} (h : k ≠ 0) (owed : List UInt8) :
    openFirst k owed = (k - 1) :: owed :=
  if_neg h

/-- Closing a group takes one closer. -/
theorem pendingCloses_cons_eq (rest : UInt8) (outer : List UInt8) :
    pendingCloses (rest :: outer) = pendingCloses (openFirst rest outer) + 1 := by
  by_cases hzero : rest = 0
  · subst hzero
    rw [pendingCloses_cons, openFirst, if_pos rfl, Nat.add_comm]
    rfl
  · rw [openFirst_of_ne_zero hzero, pendingCloses_cons, pendingCloses_cons,
      ← Block.toNat_sub_one hzero]
    omega

end Owed

namespace Genome

open Block Owed

/-- A closer ends the innermost group: `balance` keeps it and goes on with `openFirst k owed`. -/
theorem balance_cons_closer (k : UInt8) (owed : List UInt8) (rest : Genome) :
    balance (k :: owed) (Gene.closer :: rest) = Gene.closer :: balance (openFirst k owed) rest := by
  rw [balance]
  simp only [Gene.closer, close?_cons]

/-- As many closers as groups end the groups of an instruction, and `balance` keeps them all. -/
theorem balance_replicate_closer (k : UInt8) (owed : List UInt8) (rest : Genome) :
    balance (openFirst k owed) (List.replicate k.toNat Gene.closer ++ rest) =
      List.replicate k.toNat Gene.closer ++ balance owed rest := by
  -- The induction is on the number behind the word `k`, which does not wrap unless it is zero.
  induction hn : k.toNat generalizing k with
  | zero =>
    obtain rfl : k = 0 := UInt8.toNat_inj.mp hn
    rfl
  | succ n ih =>
    have hne : k ≠ 0 := by
      rintro rfl
      cases hn
    have hprev : (k - 1).toNat = n := by
      have := toNat_sub_one hne
      omega
    rw [openFirst_of_ne_zero hne, List.replicate_succ, List.cons_append, balance_cons_closer,
      ih (k - 1) hprev, List.cons_append]

/-- Balancing leaves `writePart k e` alone, if it does so for the parts of a block, and goes on with
the groups that are owed behind it. -/
theorem balance_writePart {e : Expr}
    (hparts : ∀ owed rest, balance owed (e.flattenParts ++ rest) =
      e.flattenParts ++ balance owed rest) (k : UInt8) (owed : List UInt8) (rest : Genome) :
    balance (openFirst k owed) (writePart k e ++ rest) =
      writePart k e ++ balance (openFirst (afterPart k e) owed) rest := by
  cases e with
  | block body =>
    have hbody : ∀ owed rest, balance owed (flatten body ++ rest) =
        flatten body ++ balance owed rest := hparts
    -- A block that nobody owes gets a marker, whose only group the closer ends.
    by_cases hzero : k = 0
    · subst hzero
      calc balance owed (Gene.openMarker :: (flatten body ++ [Gene.closer]) ++ rest)
          = Gene.openMarker :: balance (0 :: owed) (flatten body ++ [Gene.closer] ++ rest) := rfl
        _ = Gene.openMarker :: (flatten body ++ balance (0 :: owed) (Gene.closer :: rest)) := by
          rw [List.append_assoc, hbody, List.singleton_append]
        _ = Gene.openMarker :: (flatten body ++ [Gene.closer]) ++ balance owed rest := by
          rw [balance_cons_closer, List.cons_append, List.append_assoc]
          rfl
    · have hopening : (if k = 0 then [Gene.openMarker] else []) = [] := if_neg hzero
      rw [writePart, hopening, List.nil_append, openFirst_of_ne_zero hzero, List.append_assoc,
        hbody, List.singleton_append, balance_cons_closer, afterPart, if_neg hzero,
        List.append_assoc, List.singleton_append]
  | _ =>
    simp only [writePart, afterPart, List.append_assoc, List.singleton_append]
    rw [balance_replicate_closer]
    rfl

mutual

/-- Balancing leaves `e.flattenParts` alone, whatever is owed. -/
theorem balance_flattenParts : (e : Expr) → (owed : List UInt8) → (rest : Genome) →
    balance owed (e.flattenParts ++ rest) = e.flattenParts ++ balance owed rest
  | .block body, owed, rest => balance_flattenFrom body 0 owed rest
  | .literal _ _, _, _ => rfl
  | .input _, _, _ => rfl
  | .instr _ _, _, _ => rfl
  | .deferred _, _, _ => rfl

/-- Balancing leaves the genes of some parts alone, and the groups that were owed are closed behind
them. -/
theorem balance_flattenFrom : (parts : List Expr) → (k : UInt8) → (owed : List UInt8) →
    (rest : Genome) →
    balance (openFirst k owed) (flattenFrom k.toNat parts ++ rest) =
      flattenFrom k.toNat parts ++ balance owed rest
  | [], k, owed, rest => balance_replicate_closer k owed rest
  | e :: parts, k, owed, rest => by
    rw [flattenFrom_cons, List.append_assoc, balance_writePart (balance_flattenParts e),
      balance_flattenFrom parts, List.append_assoc]

end

end Genome

/-! ## Drafts -/

namespace Draft

open Block Genome Owed

/-- The genes of the blocks around the innermost one, each up to the group that is open in it. A
group that no instruction owes (`owedAfter 0 frame = 0`) has an open marker. -/
def entered : List Block → Genome
  | [] => []
  | frame :: outer =>
    entered outer ++ write 0 frame ++ if owedAfter 0 frame = 0 then [Gene.openMarker] else []

/-- **The outline** of a draft: the genes of what was built so far, `entered` and then the innermost
block. -/
def outline : List Block → Genome
  | [] => []
  | frame :: outer => entered outer ++ write 0 frame

/-- The blocks around the innermost one owe what the open groups say: `owedAfter 0 frame - 1` beside
the open group of an instruction, or `0` beside the only group of an open marker. -/
inductive Accounted : List Block → List UInt8 → Prop where
  /-- No group is open. -/
  | nil : Accounted [] []
  /-- A group of an instruction is open: `owedAfter 0 frame ≠ 0`. -/
  | claimed {frame : Block} {outer : List Block} {owed : List UInt8}
      (owes : owedAfter 0 frame ≠ 0) (rest : Accounted outer owed) :
    Accounted (frame :: outer) ((owedAfter 0 frame - 1) :: owed)
  /-- The group of an open marker is open: `owedAfter 0 frame = 0`. -/
  | marked {frame : Block} {outer : List Block} {owed : List UInt8}
      (owes : owedAfter 0 frame = 0) (rest : Accounted outer owed) :
    Accounted (frame :: outer) (0 :: owed)

/-- **A sound draft**: nothing is owed in the innermost block (`owedAfter 0 frame = 0`), and the
blocks around it are `Accounted` for the open groups. -/
inductive Sound : Draft → Prop where
  /-- The innermost block and those around it. -/
  | mk {frame : Block} {outer : List Block} {owed : List UInt8} (settled : owedAfter 0 frame = 0)
      (accounted : Accounted outer owed) : Sound ⟨frame :: outer, owed⟩

/-! ### Closing groups -/

/-- Closing an open group is `closeFrame`, and begins the next group if `k ≠ 0` are owed. -/
theorem close_cons (frames : List Block) (k : UInt8) (owed : List UInt8) :
    close ⟨frames, k :: owed⟩ =
      ⟨if k = 0 then closeFrame frames else [] :: closeFrame frames, openFirst k owed⟩ := by
  rw [close]
  simp only [close?_cons, decide_eq_true_eq]
  by_cases hzero : k = 0
  · subst hzero
    rfl
  · rw [if_pos (UInt8.pos_iff_ne_zero.mpr hzero), if_neg hzero]

/-- The block that `closeFrame` makes of the innermost frame adds a closer to the outline. -/
theorem outline_closeFrame {frame : Block} (settled : owedAfter 0 frame = 0) (around : Block)
    (outer : List Block) :
    outline (closeFrame (frame :: around :: outer)) =
      outline (frame :: around :: outer) ++ [Gene.closer] := by
  rw [closeFrame, addPart, outline, outline, entered, write_concat, writePart,
    flatten_eq_write settled]
  simp only [List.append_assoc]

/-- A frame that was just begun adds nothing to the outline, if a group is owed around it. -/
theorem outline_nil_cons {around : Block} (owes : owedAfter 0 around ≠ 0) (outer : List Block) :
    outline ([] :: around :: outer) = outline (around :: outer) := by
  rw [outline, entered, if_neg owes, outline, List.append_nil]
  exact List.append_nil _

/-- Closing an open group keeps a draft sound and adds a closer to its outline. -/
theorem Sound.close_cons {frames : List Block} {k : UInt8} {owed : List UInt8}
    (sound : Sound ⟨frames, k :: owed⟩) :
    (close ⟨frames, k :: owed⟩).Sound ∧
      outline (close ⟨frames, k :: owed⟩).frames = outline frames ++ [Gene.closer] := by
  rw [Draft.close_cons]
  obtain ⟨settled, accounted⟩ := sound
  rename_i frame outer
  cases accounted with
  | @claimed around outer owed owes rest =>
    have hafter : owedAfter 0 (around ++ [.block frame]) = owedAfter 0 around - 1 := by
      rw [owedAfter_concat, afterPart, if_neg owes]
    have houtline := outline_closeFrame settled around outer
    -- The group just closed was the last of its instruction, or the next one begins in its place.
    by_cases hlast : owedAfter 0 around - 1 = 0
    · simp only [hlast, if_pos, openFirst]
      exact ⟨.mk (hafter.trans hlast) rest, houtline⟩
    · simp only [if_neg hlast, openFirst]
      rw [← hafter] at hlast ⊢
      exact ⟨.mk rfl (.claimed hlast rest), (outline_nil_cons hlast outer).trans houtline⟩
  | @marked around outer owed owes rest =>
    have hafter : owedAfter 0 (around ++ [.block frame]) = 0 := by
      rw [owedAfter_concat, afterPart, if_pos owes]
    exact ⟨.mk hafter rest, outline_closeFrame settled around outer⟩

/-- **A draft follows another by some genes** if its outline goes as far as these genes lead:
whatever `rest` comes behind them, the `outline` and the balanced `rest` are the same. -/
def Follows (before : Draft) (genes : Genome) (after : Draft) : Prop :=
  ∀ rest, outline before.frames ++ balance before.owed (genes ++ rest) =
    outline after.frames ++ balance after.owed rest

/-- Without genes a draft `Follows` itself. -/
theorem Follows.refl (draft : Draft) : draft.Follows [] draft := fun _ => rfl

/-- Genes lead on from where others lead to. -/
theorem Follows.trans {before middle after : Draft} {genes others : Genome}
    (first : before.Follows genes middle) (second : middle.Follows others after) :
    before.Follows (genes ++ others) after := by
  intro rest
  rw [List.append_assoc, first, second]

/-- A closer leads to `draft.close`. -/
theorem Sound.close {draft : Draft} (sound : draft.Sound) :
    draft.close.Sound ∧ draft.Follows [Gene.closer] draft.close := by
  obtain ⟨frames, owed⟩ := draft
  cases owed with
  | nil =>
    -- Without an open group the draft stays as it is, and balancing drops the closer.
    exact ⟨sound, fun rest => rfl⟩
  | cons k owed =>
    obtain ⟨hsound, houtline⟩ := sound.close_cons
    refine ⟨hsound, fun rest => ?_⟩
    rw [houtline, List.append_assoc, List.singleton_append, List.singleton_append,
      balance_cons_closer, Draft.close_cons]

/-- As many as `n` closers lead to `draft.closeTimes n`. -/
theorem Sound.closeTimes {draft : Draft} (sound : draft.Sound) (n : Nat) :
    (draft.closeTimes n).Sound ∧
      draft.Follows (List.replicate n Gene.closer) (draft.closeTimes n) := by
  induction n generalizing draft with
  | zero => exact ⟨sound, .refl draft⟩
  | succ n ih =>
    obtain ⟨hclosed, hfollows⟩ := sound.close
    obtain ⟨hsound, hrest⟩ := ih hclosed
    exact ⟨hsound, hfollows.trans hrest⟩

/-! ### Adding genes -/

/-- Behind a part where nothing was owed, the part's own groups are owed: `e.groupCount`. -/
theorem afterPart_zero (e : Expr) : afterPart 0 e = e.groupCount := by
  cases e <;> rfl

/-- An expression other than a wide marker leads to `draft.add e`. -/
theorem Sound.add {draft : Draft} (sound : draft.Sound) {e : Expr}
    (hnarrow : e.isWideMarker = false) :
    (draft.add e).Sound ∧ draft.Follows (writePart 0 e) (draft.add e) := by
  obtain ⟨settled, accounted⟩ := sound
  rename_i frame outer owed
  by_cases hmarker : e.isOpenMarker = true
  · -- The marker itself is not added, but the group it opens is one that nobody owes.
    obtain rfl := Expr.eq_of_isOpenMarker hmarker hnarrow
    refine ⟨.mk rfl (.marked settled accounted), fun rest => ?_⟩
    calc outline (frame :: outer) ++ balance owed (Gene.openMarker :: rest)
        = entered outer ++ write 0 frame ++ [Gene.openMarker] ++ balance (0 :: owed) rest := by
          rw [List.append_assoc _ [Gene.openMarker]]
          rfl
      _ = outline ([] :: frame :: outer) ++ balance (0 :: owed) rest := by
          rw [outline, entered, if_pos settled, write, List.append_nil]
  · have hafter : owedAfter 0 (frame ++ [e]) = e.groupCount := by
      rw [owedAfter_concat, settled, afterPart_zero]
    have hfollows (rest : Genome) :
        outline (frame :: outer) ++ balance owed (writePart 0 e ++ rest) =
        outline ((frame ++ [e]) :: outer) ++ balance (openFirst e.groupCount owed) rest := by
      have hbalance := balance_writePart (balance_flattenParts e) 0 owed rest
      rw [afterPart_zero] at hbalance
      rw [outline, outline, write_concat, settled, List.append_assoc, List.append_assoc,
        List.append_assoc, ← hbalance]
      rfl
    rw [Draft.add, if_neg hmarker]
    by_cases hgroups : e.groupCount = 0
    · rw [if_pos hgroups]
      rw [hgroups] at hafter hfollows
      exact ⟨.mk hafter accounted, hfollows⟩
    · rw [if_neg hgroups]
      rw [← hafter] at hgroups hfollows ⊢
      refine ⟨?_, fun rest => ?_⟩
      · rw [openFirst_of_ne_zero hgroups]
        exact .mk rfl (.claimed hgroups accounted)
      · exact (hfollows rest).trans (by rw [addPart, outline_nil_cons hgroups])

/-- What a gene is written out to by `expandGene`: its atom and `gene.closes` closers. -/
theorem expandGene_eq (gene : Gene) :
    expandGene gene = (match gene.atom with
      | .closer => [Gene.closer]
      | .expr e => writePart 0 e) ++ List.replicate gene.closes.toNat Gene.closer := by
  obtain ⟨atom, silent, closes⟩ := gene
  cases atom with
  | closer => rfl
  | expr e => cases e <;> rfl

/-- A gene that is neither silent nor a wide marker leads to `draft.addGene gene`. -/
theorem Sound.addGene {draft : Draft} (sound : draft.Sound) {gene : Gene}
    (hnarrow : gene.isWideMarker = false) (haloud : gene.silent = false) :
    (draft.addGene gene).Sound ∧ draft.Follows (expandGene gene) (draft.addGene gene) := by
  obtain ⟨atom, silent, closes⟩ := gene
  cases haloud
  rw [expandGene_eq]
  cases atom with
  | closer =>
    obtain ⟨hclosed, hfollows⟩ := sound.close
    obtain ⟨hsound, hrest⟩ := hclosed.closeTimes closes.toNat
    exact ⟨hsound, hfollows.trans hrest⟩
  | expr e =>
    obtain ⟨hadded, hfollows⟩ := sound.add hnarrow
    obtain ⟨hsound, hrest⟩ := hadded.closeTimes closes.toNat
    exact ⟨hsound, hfollows.trans hrest⟩

/-- A genome without wide markers leads to the draft with all its genes added, `foldl addGene`. -/
theorem Sound.foldl_addGene {draft : Draft} (sound : draft.Sound) {genome : Genome}
    (hnarrow : ∀ gene ∈ genome, gene.silent = false → gene.isWideMarker = false) :
    (genome.foldl Draft.addGene draft).Sound ∧
      draft.Follows genome.expand (genome.foldl Draft.addGene draft) := by
  induction genome generalizing draft with
  | nil => exact ⟨sound, .refl draft⟩
  | cons gene rest ih =>
    obtain ⟨hgene, hrest⟩ := List.forall_mem_cons.mp hnarrow
    -- A silent gene is neither added nor written out.
    cases hsilent : gene.silent with
    | true =>
      have hskip : draft.addGene gene = draft := by rw [Draft.addGene, if_pos hsilent]
      rw [List.foldl_cons, hskip, expand, List.filter_cons_of_neg (by simp [hsilent])]
      exact ih sound hrest
    | false =>
      obtain ⟨hadded, hfollows⟩ := sound.addGene (hgene hsilent) hsilent
      obtain ⟨hsound, hlater⟩ := ih hadded hrest
      rw [expand, List.filter_cons_of_pos (by simp [hsilent]), List.flatMap_cons]
      exact ⟨hsound, hfollows.trans hlater⟩

/-! ### Completing the code -/

/-- A draft with one frame for every open group and one for the program: `frames` are one more than
`owed`. -/
def Shaped (draft : Draft) : Prop := draft.frames.length = draft.owed.length + 1

/-- A sound draft is shaped. -/
theorem Sound.shaped {draft : Draft} (sound : draft.Sound) : draft.Shaped := by
  obtain ⟨settled, accounted⟩ := sound
  clear settled
  induction accounted with
  | nil => rfl
  | claimed owes rest ih => exact congrArg (· + 1) ih
  | marked owes rest ih => exact congrArg (· + 1) ih

/-- Making a block, `closeFrame`, of two frames or more leaves one frame less. -/
theorem length_closeFrame : {frames : List Block} → 2 ≤ frames.length →
    (closeFrame frames).length + 1 = frames.length
  | _ :: _ :: _, _ => rfl

/-- Closing a group keeps a draft shaped. -/
theorem Shaped.close {draft : Draft} (shaped : draft.Shaped) : draft.close.Shaped := by
  obtain ⟨frames, owed⟩ := draft
  cases owed with
  | nil => exact shaped
  | cons k owed =>
    have hlength : frames.length = owed.length + 2 := shaped
    have hclosed := length_closeFrame (hlength ▸ Nat.le_add_left 2 owed.length)
    rw [close_cons, Shaped]
    by_cases hzero : k = 0
    · simp only [hzero, if_pos, openFirst]
      omega
    · simp only [if_neg hzero, openFirst, List.length_cons]
      omega

/-- Closing all groups, `pendingCloses draft.owed` times, leaves the program as the only frame. -/
theorem Shaped.closeTimes_pendingCloses {draft : Draft} (shaped : draft.Shaped) :
    ∃ program, draft.closeTimes (pendingCloses draft.owed) = ⟨[program], []⟩ := by
  -- By induction on the closers that are missing: each close takes one of them.
  induction hn : pendingCloses draft.owed generalizing draft with
  | zero =>
    obtain ⟨frames, owed⟩ := draft
    cases owed with
    | nil =>
      obtain ⟨program, rfl⟩ := List.length_eq_one_iff.mp shaped
      exact ⟨program, rfl⟩
    | cons k owed =>
      rw [pendingCloses_cons_eq] at hn
      cases hn
  | succ n ih =>
    obtain ⟨frames, owed⟩ := draft
    cases owed with
    | nil => cases hn
    | cons k owed =>
      refine ih shaped.close ?_
      rw [pendingCloses_cons_eq] at hn
      rw [close_cons]
      exact Nat.succ.inj hn

/-- Closing all groups adds `pendingCloses draft.owed` closers to the outline. -/
theorem Sound.outline_closeTimes {draft : Draft} (sound : draft.Sound) :
    outline (draft.closeTimes (pendingCloses draft.owed)).frames =
      outline draft.frames ++ List.replicate (pendingCloses draft.owed) Gene.closer := by
  -- Each group that is closed takes one of the pending closers.
  induction hn : pendingCloses draft.owed generalizing draft with
  | zero => exact (List.append_nil _).symm
  | succ n ih =>
    obtain ⟨frames, owed⟩ := draft
    cases owed with
    | nil => cases hn
    | cons k owed =>
      obtain ⟨hsound, houtline⟩ := sound.close_cons
      have hpending : pendingCloses (Draft.close ⟨frames, k :: owed⟩).owed = n := by
        rw [pendingCloses_cons_eq] at hn
        rw [Draft.close_cons]
        exact Nat.succ.inj hn
      rw [Draft.closeTimes, ih hsound hpending, houtline, List.append_assoc, List.replicate_succ,
        List.singleton_append]

/-- The completed code of a sound draft is flattened to its `outline` and the missing closers. -/
theorem Sound.flatten_complete {draft : Draft} (sound : draft.Sound) :
    flatten draft.complete = outline draft.frames ++ balance draft.owed [] := by
  obtain ⟨program, hprogram⟩ := sound.shaped.closeTimes_pendingCloses
  have hsound := (sound.closeTimes (pendingCloses draft.owed)).1
  have houtline := sound.outline_closeTimes
  rw [hprogram] at hsound houtline
  obtain ⟨settled, -⟩ := hsound
  rw [complete, hprogram, balance, ← houtline]
  exact flatten_eq_write settled

/-! ### Counting wide markers -/

/-- Number of wide markers in `write 0 parts`. -/
def wideMarkers (parts : Block) : Nat := (write 0 parts).countP Gene.isWideMarker

/-- Number of wide markers in all frames. -/
def wideMarkersIn : List Block → Nat
  | [] => 0
  | frame :: outer => wideMarkers frame + wideMarkersIn outer

/-- Closers are no wide markers: their `countP Gene.isWideMarker` is `0`. -/
theorem countP_replicate_closer (n : Nat) :
    (List.replicate n Gene.closer).countP Gene.isWideMarker = 0 :=
  List.countP_eq_zero.mpr fun gene hgene => by
    rw [List.eq_of_mem_replicate hgene]
    exact Bool.false_ne_true

/-- Flattened code has the wide markers of its parts. -/
theorem countP_flatten (body : Block) :
    (flatten body).countP Gene.isWideMarker = wideMarkers body := by
  have hfrom := flattenFrom_eq 0 body
  have hflatten : flatten body = flattenFrom (0 : UInt8).toNat body := rfl
  rw [hflatten, hfrom, List.countP_append, countP_replicate_closer, Nat.add_zero, wideMarkers]

/-- The block `.block body` has the `wideMarkers` of `body`, whether it is owed or gets a marker of
its own. -/
theorem countP_writePart_block (owed : UInt8) (body : Block) :
    (writePart owed (.block body)).countP Gene.isWideMarker = wideMarkers body := by
  have hopening : (if owed = 0 then [Gene.openMarker] else []).countP Gene.isWideMarker = 0 := by
    split <;> rfl
  rw [writePart, List.countP_append, List.countP_append, countP_flatten, hopening]
  exact Nat.zero_add _

/-- The wide markers of `writePart owed e` do not depend on `owed`. -/
theorem countP_writePart (owed : UInt8) (e : Expr) :
    (writePart owed e).countP Gene.isWideMarker = (writePart 0 e).countP Gene.isWideMarker := by
  cases e with
  | block body => rw [countP_writePart_block, countP_writePart_block]
  | _ => simp only [writePart, List.countP_append, countP_replicate_closer]

/-- A part adds its wide markers. -/
theorem wideMarkers_concat (parts : Block) (e : Expr) :
    wideMarkers (parts ++ [e]) =
      wideMarkers parts + (writePart 0 e).countP Gene.isWideMarker := by
  rw [wideMarkers, write_concat, List.countP_append, countP_writePart, wideMarkers]

/-- A part adds its wide markers to the frames, in `addPart e frames` as in a block. -/
theorem wideMarkersIn_addPart (e : Expr) (frames : List Block) :
    wideMarkersIn (addPart e frames) =
      wideMarkersIn frames + (writePart 0 e).countP Gene.isWideMarker := by
  cases frames with
  | nil => exact wideMarkers_concat [] e
  | cons frame outer =>
    rw [addPart, wideMarkersIn, wideMarkers_concat, wideMarkersIn]
    omega

/-- Making a block, `closeFrame`, moves the wide markers of the innermost frame outward and loses
none. -/
theorem wideMarkersIn_closeFrame (frames : List Block) :
    wideMarkersIn (closeFrame frames) = wideMarkersIn frames := by
  cases frames with
  | nil => rfl
  | cons frame outer =>
    rw [closeFrame, wideMarkersIn_addPart, countP_writePart_block, Nat.add_comm, wideMarkersIn]

/-- Closing a group, `Draft.close`, neither adds nor loses wide markers. -/
theorem wideMarkersIn_close (draft : Draft) :
    wideMarkersIn draft.close.frames = wideMarkersIn draft.frames := by
  obtain ⟨frames, owed⟩ := draft
  cases owed with
  | nil => rfl
  | cons k owed =>
    rw [close_cons]
    split
    · exact wideMarkersIn_closeFrame frames
    · exact (Nat.zero_add _).trans (wideMarkersIn_closeFrame frames)

/-- Closing groups neither adds nor loses wide markers. -/
theorem wideMarkersIn_closeTimes (n : Nat) (draft : Draft) :
    wideMarkersIn (draft.closeTimes n).frames = wideMarkersIn draft.frames := by
  induction n generalizing draft with
  | zero => rfl
  | succ n ih => rw [closeTimes, ih, wideMarkersIn_close]

/-- The wide markers of an expression that is no block: itself, if it `isWideMarker`. -/
theorem countP_writePart_leaf {e : Expr} (hleaf : ∀ body, e ≠ .block body) :
    (writePart 0 e).countP Gene.isWideMarker = if e.isWideMarker then 1 else 0 := by
  rw [writePart]
  · exact List.countP_singleton
  · exact hleaf

/-- Adding `e` to a draft brings its wide markers into the frames, but not `e` itself if it is one.
-/
theorem wideMarkersIn_add (draft : Draft) (e : Expr) :
    wideMarkersIn (draft.add e).frames + (if e.isWideMarker then 1 else 0) =
      wideMarkersIn draft.frames + (writePart 0 e).countP Gene.isWideMarker := by
  have hframes : wideMarkersIn (draft.add e).frames = wideMarkersIn
      (if e.isOpenMarker then draft.frames else addPart e draft.frames) := by
    rw [add]
    split
    · rfl
    · exact Nat.zero_add _
  rw [hframes]
  by_cases hmarker : e.isOpenMarker = true
  · -- An open marker leaves the frames alone, so its own gene is what is missing.
    rw [if_pos hmarker, countP_writePart_leaf]
    rintro body rfl
    cases hmarker
  · have hnarrow : e.isWideMarker = false :=
      Bool.eq_false_iff.mpr fun hwide => hmarker (Expr.isOpenMarker_of_isWideMarker hwide)
    rw [if_neg hmarker, wideMarkersIn_addPart, hnarrow]
    rfl

/-- A gene that is not silent brings the wide markers of `expandGene gene`, but not itself if it is
one. -/
theorem wideMarkersIn_addGene (draft : Draft) {gene : Gene} (haloud : gene.silent = false) :
    wideMarkersIn (draft.addGene gene).frames + (if gene.isWideMarker then 1 else 0) =
      wideMarkersIn draft.frames + (expandGene gene).countP Gene.isWideMarker := by
  obtain ⟨atom, silent, closes⟩ := gene
  cases haloud
  rw [expandGene_eq, List.countP_append, countP_replicate_closer, Nat.add_zero]
  cases atom with
  | closer =>
    exact (wideMarkersIn_closeTimes closes.toNat draft.close).trans (wideMarkersIn_close draft)
  | expr e =>
    rw [← wideMarkersIn_add]
    exact congrArg (· + _) (wideMarkersIn_closeTimes closes.toNat (draft.add e))

/-- Number of wide markers among the genes that are not silent. -/
def lostMarkers (genome : Genome) : Nat :=
  genome.countP fun gene => !gene.silent && gene.isWideMarker

/-- A genome brings the wide markers of `genome.expand`, but not the `lostMarkers` among its own
genes. -/
theorem wideMarkersIn_foldl_addGene (draft : Draft) (genome : Genome) :
    wideMarkersIn (genome.foldl addGene draft).frames + lostMarkers genome =
      wideMarkersIn draft.frames + genome.expand.countP Gene.isWideMarker := by
  induction genome generalizing draft with
  | nil => rfl
  | cons gene rest ih =>
    have hrest := ih (draft.addGene gene)
    rw [List.foldl_cons, lostMarkers, List.countP_cons]
    rw [lostMarkers] at hrest
    -- A silent gene brings no marker and loses none.
    cases hsilent : gene.silent with
    | true =>
      have hskip : draft.addGene gene = draft := by rw [addGene, if_pos hsilent]
      rw [hskip] at hrest ⊢
      rw [expand, List.filter_cons_of_neg (by simp [hsilent])]
      exact hrest
    | false =>
      have hgene := wideMarkersIn_addGene draft hsilent
      rw [expand, List.filter_cons_of_pos (by simp [hsilent]), List.flatMap_cons,
        List.countP_append, Bool.not_false, Bool.true_and]
      rw [expand] at hrest
      omega

/-- Adding a part keeps the number of frames. -/
theorem length_addPart (e : Expr) : {frames : List Block} → 1 ≤ frames.length →
    (addPart e frames).length = frames.length
  | _ :: _, _ => rfl

/-- Closing groups keeps a draft shaped. -/
theorem Shaped.closeTimes {draft : Draft} (shaped : draft.Shaped) (n : Nat) :
    (draft.closeTimes n).Shaped := by
  induction n generalizing draft with
  | zero => exact shaped
  | succ n ih => exact ih shaped.close

/-- Adding an expression keeps a draft shaped. -/
theorem Shaped.add {draft : Draft} (shaped : draft.Shaped) (e : Expr) : (draft.add e).Shaped := by
  have hlength : draft.frames.length = draft.owed.length + 1 := shaped
  have hframes : (if e.isOpenMarker then draft.frames else addPart e draft.frames).length =
      draft.owed.length + 1 := by
    split
    · exact hlength
    · rw [length_addPart e (hlength ▸ Nat.le_add_left 1 draft.owed.length), hlength]
  rw [Draft.add]
  split
  · exact hframes
  next hgroups =>
    rw [Shaped, openFirst_of_ne_zero hgroups]
    exact congrArg (· + 1) hframes

/-- Adding genes keeps a draft shaped. -/
theorem Shaped.foldl_addGene {draft : Draft} (shaped : draft.Shaped) (genome : Genome) :
    (genome.foldl Draft.addGene draft).Shaped := by
  induction genome generalizing draft with
  | nil => exact shaped
  | cons gene rest ih =>
    refine ih ?_
    rw [Draft.addGene]
    split
    · exact shaped
    · cases gene.atom with
      | closer => exact shaped.close.closeTimes _
      | expr e => exact (shaped.add e).closeTimes _

/-- The completed code has as many wide markers as all frames: `wideMarkersIn draft.frames`. -/
theorem Shaped.countP_flatten_complete {draft : Draft} (shaped : draft.Shaped) :
    (flatten draft.complete).countP Gene.isWideMarker = wideMarkersIn draft.frames := by
  obtain ⟨program, hprogram⟩ := shaped.closeTimes_pendingCloses
  have hcount := wideMarkersIn_closeTimes (pendingCloses draft.owed) draft
  rw [hprogram] at hcount
  rw [complete, hprogram, countP_flatten, ← hcount]
  rfl

end Draft

/-! ## Genomes -/

namespace Genome

open Block Draft Owed

/-- Balancing keeps every wide marker. -/
theorem countP_balance (owed : List UInt8) (genome : Genome) :
    (balance owed genome).countP Gene.isWideMarker = genome.countP Gene.isWideMarker := by
  fun_induction balance owed genome with
  | case1 owed => exact countP_replicate_closer _
  | case2 owed gene rest hatom hclose ih =>
    have hgene : gene.isWideMarker = false := by rw [Gene.isWideMarker, hatom]
    rw [ih, List.countP_cons_of_neg (by rw [hgene]; exact Bool.false_ne_true)]
  | case3 owed gene rest hatom reopened next hclose ih =>
    rw [List.countP_cons, List.countP_cons, ih]
  | case4 owed gene rest e hatom ih => rw [List.countP_cons, List.countP_cons, ih]

/-- **Without wide markers** the code of a genome is flattened to its normal form:
`flatten genome.toBlock = genome.normalize`. -/
theorem flatten_toBlock {genome : Genome}
    (hnarrow : ∀ gene ∈ genome, gene.silent = false → gene.isWideMarker = false) :
    flatten genome.toBlock = genome.normalize := by
  have hempty : Draft.empty.Sound := .mk rfl .nil
  obtain ⟨hsound, hfollows⟩ := hempty.foldl_addGene hnarrow
  -- Behind the whole genome there is no rest, so only the missing closers are balanced.
  have hwhole := hfollows []
  rw [List.append_nil] at hwhole
  exact hsound.flatten_complete.trans hwhole.symm

/-- **Wide markers are lost**: `flatten genome.toBlock` lacks the `lostMarkers` that the normal form
has. -/
theorem countP_flatten_toBlock (genome : Genome) :
    (flatten genome.toBlock).countP Gene.isWideMarker + lostMarkers genome =
      genome.normalize.countP Gene.isWideMarker := by
  have hshaped : Draft.empty.Shaped := rfl
  rw [toBlock, (hshaped.foldl_addGene genome).countP_flatten_complete,
    wideMarkersIn_foldl_addGene, normalize, countP_balance]
  exact Nat.zero_add _

/-- **Genomes round-trip up to normal form**, except for wide markers: `flatten` of the code of a
genome gives `genome.normalize` exactly if no gene that is not silent is an open marker for two
groups or more. -/
theorem flatten_toBlockWithin_eq_normalize_iff (genome : Genome) (maxPoints : Nat)
    (fits : genome.toBlock.size ≤ maxPoints) :
    flatten (genome.toBlockWithin maxPoints) = genome.normalize ↔
      ∀ gene ∈ genome, gene.silent = false →
        ∀ groups, gene.atom = .expr (.instr openMarkerName groups) → groups < 2 := by
  have hwithin : genome.toBlockWithin maxPoints = genome.toBlock :=
    if_neg (Nat.not_lt.mpr fits)
  rw [hwithin]
  constructor
  · intro hequal gene hmem haloud groups hatom
    -- Equal genomes have equally many wide markers, so none was lost.
    have hlost := countP_flatten_toBlock genome
    rw [hequal] at hlost
    have hnone : lostMarkers genome = 0 := by omega
    have hgene := List.countP_eq_zero.mp hnone gene hmem
    rw [haloud, Gene.isWideMarker_eq hatom] at hgene
    exact UInt8.not_le.mp fun hle => hgene (by rw [decide_eq_true hle]; rfl)
  · intro hnarrow
    refine flatten_toBlock fun gene hmem haloud => Bool.eq_false_iff.mpr fun hwide => ?_
    obtain ⟨groups, hatom⟩ := Gene.exists_of_isWideMarker hwide
    rw [Gene.isWideMarker_eq hatom, decide_eq_true_eq] at hwide
    exact UInt8.not_le.mpr (hnarrow gene hmem haloud groups hatom) hwide

/-- An instruction with two groups, a closer too many, a silent marker for three groups, a block and
a marker for one group make the round trip; the same marker aloud does not. -/
theorem flatten_toBlockWithin_eq_normalize_of_mixed :
    let wide : Gene := ⟨.expr (.instr openMarkerName 3), true, 4⟩
    let genome : Genome := [Gene.closer, ⟨.expr (.instr "exec_if" 2), false, 1⟩, wide,
      ⟨.expr (.block [.instr "exec_dup" 1, .block [.input 0]]), false, 0⟩, Gene.openMarker,
      ⟨.expr (.literal (.int 5) .int), false, 9⟩, ⟨.expr (.instr "exec_rot" 3), false, 0⟩]
    flatten (genome.toBlockWithin 14) = genome.normalize ∧
      flatten (toBlockWithin ({ wide with silent := false } :: genome) 17) ≠
        normalize ({ wide with silent := false } :: genome) := by
  intro wide genome
  constructor
  · refine (flatten_toBlockWithin_eq_normalize_iff genome 14 (by decide)).mpr ?_
    have hnarrow : ∀ gene ∈ genome, gene.silent = false → gene.isWideMarker = false := by decide
    intro gene hmem haloud groups hatom
    have hgene := hnarrow gene hmem haloud
    rw [Gene.isWideMarker_eq hatom, decide_eq_false_iff_not] at hgene
    exact UInt8.not_le.mp hgene
  · intro hequal
    have hnarrow := (flatten_toBlockWithin_eq_normalize_iff
      ({ wide with silent := false } :: genome) 17 (by decide)).mp hequal
    exact absurd (hnarrow _ List.mem_cons_self rfl 3 rfl) (by decide)

end Genome

end PushMachine
