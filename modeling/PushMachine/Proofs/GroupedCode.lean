import Mathlib.Data.List.Forall2
import PushMachine.Proofs.CodeRoundTrip

/-! # The code of a genome is grouped

Whatever a genome without blocks says, its code is grouped throughout: every instruction that opens
groups has them behind it, and no open marker is left. Such code comes back from flattening as it
was, so making code a second time changes nothing.

While code is under construction an instruction still lacks some of its groups. The frame around an
open group is therefore looked at with as many empty blocks behind it as groups are still to come
(`Draft.foreseen`), and with these it is grouped at all times (`Draft.Promising`). A group that is
closed takes the place of the first of the empty blocks, so it does not matter whether the genome
closed it, or reaching the end did. -/

namespace PushMachine

namespace Block

/-- **A block that is grouped throughout**: it and all blocks `Within` it are `Grouped`. -/
def WellGrouped (code : Block) : Prop := ∀ inner : Block, inner.Within code → inner.Grouped

variable {before after first second body code : Block} {e : Expr} {n : Nat}

/-- A block is `WellGrouped` if it is `Grouped`, and the blocks among its parts are `WellGrouped`.
-/
theorem wellGrouped_iff :
    WellGrouped code ↔ Grouped code ∧ ∀ body, .block body ∈ code → WellGrouped body := by
  constructor
  · intro h
    exact ⟨h code .refl, fun body hmem inner hinner => h inner (.part hmem hinner)⟩
  · rintro ⟨hgrouped, hparts⟩ inner hinner
    cases hinner with
    | refl => exact hgrouped
    | part hmem hrest => exact hparts _ hmem inner hrest

/-- Without parts nothing is asked. -/
theorem wellGrouped_nil : WellGrouped [] :=
  wellGrouped_iff.mpr ⟨by simp [Grouped], nofun⟩

/-! ## Putting blocks together -/

/-- More parts behind them do not take blocks away. -/
theorem BeginsWithBlocks.append (h : BeginsWithBlocks n first) (second : Block) :
    BeginsWithBlocks n (first ++ second) := by
  obtain ⟨hle, hblocks⟩ := h
  refine ⟨by rw [List.length_append]; omega, ?_⟩
  rwa [List.take_append_of_le_length hle]

/-- Grouped parts one behind the other, `first ++ second`, are grouped. -/
theorem Grouped.append (hfirst : Grouped first) (hsecond : Grouped second) :
    Grouped (first ++ second) := by
  induction first with
  | nil => exact hsecond
  | cons e rest ih =>
    obtain ⟨hmarker, hblocks, hrest⟩ := grouped_cons_iff.mp hfirst
    exact grouped_cons_iff.mpr ⟨hmarker, hblocks.append second, ih hrest⟩

/-- So are parts that are grouped throughout. -/
theorem WellGrouped.append (hfirst : WellGrouped first) (hsecond : WellGrouped second) :
    WellGrouped (first ++ second) := by
  obtain ⟨hgrouped, hparts⟩ := wellGrouped_iff.mp hfirst
  obtain ⟨hgrouped', hparts'⟩ := wellGrouped_iff.mp hsecond
  refine wellGrouped_iff.mpr ⟨hgrouped.append hgrouped', fun body hmem => ?_⟩
  rcases List.mem_append.mp hmem with hin | hin
  · exact hparts body hin
  · exact hparts' body hin

/-- How many blocks come first does not depend on what is in them: `first` may be `second`. -/
theorem beginsWithBlocks_replace :
    BeginsWithBlocks n (before ++ .block first :: after) ↔
      BeginsWithBlocks n (before ++ .block second :: after) := by
  induction before generalizing n with
  | nil =>
    rw [List.nil_append, List.nil_append, beginsWithBlocks_block_cons, beginsWithBlocks_block_cons]
  | cons e rest ih =>
    rw [List.cons_append, List.cons_append]
    by_cases hblock : ∃ body, e = .block body
    · obtain ⟨body, rfl⟩ := hblock
      rw [beginsWithBlocks_block_cons, beginsWithBlocks_block_cons, ih]
    · have hleaf : ∀ body, e ≠ .block body := fun body he => hblock ⟨body, he⟩
      rw [beginsWithBlocks_leaf_cons hleaf, beginsWithBlocks_leaf_cons hleaf]

/-- Nor does whether parts are `Grouped`. -/
theorem grouped_replace :
    Grouped (before ++ .block first :: after) ↔ Grouped (before ++ .block second :: after) := by
  induction before with
  | nil =>
    rw [List.nil_append, List.nil_append, grouped_cons_iff, grouped_cons_iff]
    rfl
  | cons e rest ih =>
    rw [List.cons_append, List.cons_append, grouped_cons_iff, grouped_cons_iff, ih,
      beginsWithBlocks_replace]

/-- A block that is `WellGrouped` may take the place of another one. -/
theorem WellGrouped.replace (h : WellGrouped (before ++ .block first :: after))
    (hsecond : WellGrouped second) : WellGrouped (before ++ .block second :: after) := by
  obtain ⟨hgrouped, hparts⟩ := wellGrouped_iff.mp h
  refine wellGrouped_iff.mpr ⟨grouped_replace.mp hgrouped, fun body hmem => ?_⟩
  rcases List.mem_append.mp hmem with hin | hin
  · exact hparts body (List.mem_append_left _ hin)
  · rcases List.mem_cons.mp hin with heq | hin
    · rw [Expr.block.inj heq]
      exact hsecond
    · exact hparts body (List.mem_append_right _ (List.mem_cons_of_mem _ hin))

/-- Empty blocks, `.block []`, are grouped throughout. -/
theorem wellGrouped_replicate (n : Nat) : WellGrouped (List.replicate n (.block [])) := by
  refine wellGrouped_iff.mpr ⟨?_, fun body hmem => ?_⟩
  · induction n with
    | zero => simp [Grouped]
    | succ n ih => exact grouped_cons_iff.mpr ⟨rfl, beginsWithBlocks_zero _, ih⟩
  · rw [Expr.block.inj (List.eq_of_mem_replicate hmem)]
    exact wellGrouped_nil

/-- An expression that is neither a block nor an open marker is grouped with `e.groupCount` empty
blocks behind it. -/
theorem wellGrouped_cons_replicate (hleaf : ∀ body, e ≠ .block body)
    (hmarker : e.isOpenMarker = false) :
    WellGrouped (e :: List.replicate e.groupCount.toNat (.block [])) := by
  obtain ⟨hgrouped, hparts⟩ := wellGrouped_iff.mp (wellGrouped_replicate e.groupCount.toNat)
  refine wellGrouped_iff.mpr ⟨grouped_cons_iff.mpr ⟨hmarker, ?_, hgrouped⟩, fun body hmem => ?_⟩
  · refine ⟨Nat.le_of_eq List.length_replicate.symm, fun part hpart => ?_⟩
    exact ⟨[], List.eq_of_mem_replicate (List.mem_of_mem_take hpart)⟩
  · rcases List.mem_cons.mp hmem with heq | hin
    · exact absurd heq.symm (hleaf body)
    · exact hparts body hin

end Block

/-! ## Code under construction -/

namespace Draft

open Block Owed

/-- A frame with the blocks that are still to come: the group that is open in it, and the `owed`
ones behind that one. -/
def foreseen (frame : Block) (owed : UInt8) : Block :=
  frame ++ List.replicate (owed.toNat + 1) (.block [])

/-- **A promising draft**: the innermost frame is `WellGrouped`, and so are the frames around it
once the blocks have come that are still owed in them (`foreseen`). -/
inductive Promising : Draft → Prop where
  /-- The innermost frame and those around it. -/
  | mk {frame : Block} {outer : List Block} {owed : List UInt8} (inner : WellGrouped frame)
      (around : List.Forall₂ (fun frame k => WellGrouped (foreseen frame k)) outer owed) :
    Promising ⟨frame :: outer, owed⟩

/-- Nothing built yet is promising. -/
theorem promising_empty : Promising empty := .mk wellGrouped_nil .nil

/-- Opening the first of `k` groups in the innermost frame, if it is grouped with all of them. -/
theorem promising_opened {frame : Block} {outer : List Block} {owed : List UInt8} {k : UInt8}
    (hframe : WellGrouped (frame ++ List.replicate k.toNat (.block [])))
    (around : List.Forall₂ (fun frame k => WellGrouped (foreseen frame k)) outer owed) :
    Promising ⟨opened k (frame :: outer), openFirst k owed⟩ := by
  by_cases hzero : k = 0
  · subst hzero
    rw [UInt8.toNat_zero, List.replicate_zero, List.append_nil] at hframe
    exact .mk hframe around
  · rw [opened, if_neg hzero, openFirst_of_ne_zero hzero]
    refine .mk wellGrouped_nil (.cons ?_ around)
    rwa [foreseen, toNat_sub_one hzero]

namespace Promising

variable {draft : Draft}

/-- Closing a group keeps a draft promising: the group takes the place of the first block that was
`foreseen`. -/
theorem close (promising : draft.Promising) : draft.close.Promising := by
  obtain ⟨inner, around⟩ := promising
  cases around with
  | nil => exact .mk inner .nil
  | @cons frame k outer owed hframe around =>
    rw [close_cons]
    refine promising_opened ?_ around
    rw [List.append_assoc, List.singleton_append]
    exact hframe.replace inner

/-- Closing groups keeps a draft promising. -/
theorem closeTimes (promising : draft.Promising) (n : Nat) : (draft.closeTimes n).Promising := by
  induction n generalizing draft with
  | zero => exact promising
  | succ n ih => exact ih promising.close

/-- Adding an expression that is no block, `draft.add e`, keeps a draft promising. An open marker
leaves no trace, but its groups will come as blocks of their own. -/
theorem add (promising : draft.Promising) {e : Expr} (hleaf : ∀ body, e ≠ .block body) :
    (draft.add e).Promising := by
  obtain ⟨inner, around⟩ := promising
  rename_i frame outer owed
  have hadded : Draft.add ⟨frame :: outer, owed⟩ e =
      ⟨opened e.groupCount ((frame ++ if e.isOpenMarker then [] else [e]) :: outer),
        openFirst e.groupCount owed⟩ := addGene_expr e frame outer owed
  rw [hadded]
  refine promising_opened ?_ around
  rw [List.append_assoc]
  refine inner.append ?_
  cases hmarker : e.isOpenMarker with
  | true => exact wellGrouped_replicate _
  | false => exact wellGrouped_cons_replicate hleaf hmarker

/-- Adding a gene that holds no block, `draft.addGene gene`, keeps a draft promising. -/
theorem addGene (promising : draft.Promising) {gene : Gene}
    (hleaf : gene.silent = false → ∀ body, gene.atom ≠ .expr (.block body)) :
    (draft.addGene gene).Promising := by
  obtain ⟨atom, silent, closes⟩ := gene
  cases silent with
  | true => exact promising
  | false =>
    cases atom with
    | closer => exact promising.close.closeTimes _
    | expr e =>
      refine (promising.add fun body he => ?_).closeTimes _
      exact hleaf rfl body (congrArg Atom.expr he)

/-- **The whole genome** keeps a draft promising. -/
theorem foldl_addGene (promising : draft.Promising) {genome : Genome}
    (hleaf : ∀ gene ∈ genome, gene.silent = false → ∀ body, gene.atom ≠ .expr (.block body)) :
    (genome.foldl Draft.addGene draft).Promising := by
  induction genome generalizing draft with
  | nil => exact promising
  | cons gene rest ih =>
    obtain ⟨hgene, hrest⟩ := List.forall_mem_cons.mp hleaf
    exact ih (promising.addGene hgene) hrest

/-- A promising draft has one frame for every open group and one for the program. -/
theorem shaped (promising : draft.Promising) : draft.Shaped := by
  obtain ⟨-, around⟩ := promising
  exact congrArg (· + 1) around.length_eq

/-- **The promise is kept**: `draft.complete` is grouped throughout. -/
theorem complete (promising : draft.Promising) : WellGrouped draft.complete := by
  obtain ⟨program, hprogram⟩ := promising.shaped.closeTimes_pendingCloses
  have hclosed := promising.closeTimes (pendingCloses draft.owed)
  rw [hprogram] at hclosed
  rw [Draft.complete, hprogram]
  obtain ⟨inner, -⟩ := hclosed
  exact inner

end Promising

end Draft

/-! ## Genomes -/

namespace Genome

open Block Draft

variable {genome : Genome}

/-- The code of a genome, `genome.toBlock`, is grouped throughout, if no gene that is not silent
holds a block. -/
theorem wellGrouped_toBlock
    (hleaf : ∀ gene ∈ genome, gene.silent = false → ∀ body, gene.atom ≠ .expr (.block body)) :
    WellGrouped genome.toBlock :=
  (promising_empty.foldl_addGene hleaf).complete

/-- So is the code within a limit, `toBlockWithin maxPoints`, which is this code or none. -/
theorem wellGrouped_toBlockWithin
    (hleaf : ∀ gene ∈ genome, gene.silent = false → ∀ body, gene.atom ≠ .expr (.block body))
    (maxPoints : Nat) : WellGrouped (genome.toBlockWithin maxPoints) := by
  rw [toBlockWithin]
  split
  · exact wellGrouped_nil
  · exact wellGrouped_toBlock hleaf

/-- **The code of a genome is a fixed point**, if no gene that is not silent holds a block. In the
code and in every block nested in it each instruction that opens groups is followed by as many
blocks and is no open marker, no atom is a closer, and `flatten` and `toBlockWithin`, with the same
limit of points, give the same code. All this also holds of the empty program that code of too many
points is replaced by. -/
theorem toBlockWithin_grouped (genome : Genome)
    (leaves : ∀ gene ∈ genome, gene.silent = false → ∀ body, gene.atom ≠ .expr (.block body))
    (maxPoints : Nat) :
    let code := genome.toBlockWithin maxPoints
    (∀ inner : Block, inner.Within code →
        inner.Grouped ∧ Atom.closer ∉ inner.map Atom.expr) ∧
      toBlockWithin (flatten code) maxPoints = code := by
  intro code
  have hgrouped : WellGrouped code := wellGrouped_toBlockWithin leaves maxPoints
  refine ⟨fun inner hinner => ⟨hgrouped inner hinner, by simp⟩, ?_⟩
  rw [toBlockWithin, toBlock_flatten, (rebuildFrom_zero_eq_self_iff code).mpr hgrouped]
  -- The second time the code is found too large only where it is empty already.
  by_cases hlarge : maxPoints < genome.toBlock.size
  · have hcode : code = [] := if_pos hlarge
    rw [hcode, ite_self]
  · have hcode : code = genome.toBlock := if_neg hlarge
    rw [hcode, if_neg hlarge]

/-- Groups left open at the end, a marker for three groups, closers too many and a silent block: the
code has ten points. With a limit of ten it is a fixed point, and with nine the empty program is. -/
theorem toBlockWithin_grouped_of_open :
    let genome : Genome := [Gene.closer, ⟨.expr (.instr openMarkerName 3), false, 1⟩,
      ⟨.expr (.block [.instr "exec_if" 2]), true, 0⟩, ⟨.expr (.instr "exec_if" 2), false, 1⟩,
      ⟨.expr (.literal (.int 5) .int), false, 0⟩, ⟨.expr (.instr "exec_dup" 1), false, 0⟩]
    (∀ gene ∈ genome, gene.silent = false → ∀ body, gene.atom ≠ .expr (.block body)) ∧
      Block.size (genome.toBlockWithin 10) = 10 ∧
      toBlockWithin (flatten (genome.toBlockWithin 10)) 10 = genome.toBlockWithin 10 ∧
      genome.toBlockWithin 9 = [] ∧ toBlockWithin (flatten (genome.toBlockWithin 9)) 9 = [] := by
  intro genome
  have hleaves : ∀ gene ∈ genome, gene.silent = false →
      ∀ body, gene.atom ≠ .expr (.block body) := by
    intro gene hmem haloud body hatom
    simp only [genome, List.mem_cons, List.not_mem_nil, or_false] at hmem
    -- The only gene with a block is the silent one.
    rcases hmem with rfl | rfl | rfl | rfl | rfl | rfl
    · cases hatom
    · cases hatom
    · cases haloud
    · cases hatom
    · cases hatom
    · cases hatom
  refine ⟨hleaves, by decide +kernel, (toBlockWithin_grouped genome hleaves 10).2, rfl, ?_⟩
  exact (toBlockWithin_grouped genome hleaves 9).2

end Genome

end PushMachine
