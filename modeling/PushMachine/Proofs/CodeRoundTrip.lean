import PushMachine.Proofs.GenomeRoundTrip

/-! # From code to genomes and back

Making code of flattened code gives the code again exactly if, in it and in every block nested in
it, each instruction that opens groups is followed by as many blocks and none is an open marker
(`Block.Grouped`).

What comes back in any case is told by `Block.rebuildFrom`: a group that is missing comes back as an
empty block, and an open marker does not come back at all. The draft is followed through the genes
part by part (`Draft.foldl_addGene_flattenFrom`). Whether the parts come back as they were is then
seen from left to right, because the parts that come back contain no open marker: what is lost in
one place is never made up for in another. -/

namespace PushMachine

namespace Block

/-! ## Code that is grouped -/

/-- **A block within another**: `outer` itself, or one that is nested in it at any depth. -/
inductive Within (inner : Block) : Block → Prop where
  /-- The block itself. -/
  | refl : Within inner inner
  /-- A block within one of the parts. -/
  | part {body outer : Block} (mem : Expr.block body ∈ outer) (rest : Within inner body) :
    Within inner outer

/-- Some parts begin with `n` blocks. -/
def BeginsWithBlocks (n : Nat) (parts : Block) : Prop :=
  n ≤ parts.length ∧ ∀ e ∈ parts.take n, ∃ group, e = .block group

/-- **A grouped block**: each instruction `.instr name groups` that opens groups is no open marker,
and at least as many blocks follow it. Nested blocks are not looked into. -/
def Grouped (body : Block) : Prop :=
  ∀ before name groups after, body = before ++ .instr name groups :: after → 0 < groups →
    name ≠ openMarkerName ∧ BeginsWithBlocks groups.toNat after

/-- No blocks are asked for. -/
@[simp] theorem beginsWithBlocks_zero (parts : Block) : BeginsWithBlocks 0 parts :=
  ⟨Nat.zero_le _, by simp⟩

/-- Without parts there are no blocks. -/
theorem beginsWithBlocks_nil {n : Nat} : BeginsWithBlocks n [] ↔ n = 0 := by
  simp [BeginsWithBlocks]

/-- A block in front counts: `n - 1` are left to ask for. -/
theorem beginsWithBlocks_block_cons {n : Nat} {body rest : Block} :
    BeginsWithBlocks n (.block body :: rest) ↔ BeginsWithBlocks (n - 1) rest := by
  cases n with
  | zero => simp
  | succ n => simp [BeginsWithBlocks]

/-- Any other expression in front ends the blocks, so that `n = 0`. -/
theorem beginsWithBlocks_leaf_cons {n : Nat} {e : Expr} {rest : Block}
    (hleaf : ∀ body, e ≠ .block body) : BeginsWithBlocks n (e :: rest) ↔ n = 0 := by
  cases n with
  | zero => simp
  | succ n => simp [BeginsWithBlocks, hleaf]

/-- A grouped block is one whose first part has its groups and whose other parts are grouped. -/
theorem grouped_cons {e : Expr} {rest : Block} :
    Grouped (e :: rest) ↔
      (∀ name groups, e = .instr name groups → 0 < groups →
        name ≠ openMarkerName ∧ BeginsWithBlocks groups.toNat rest) ∧ Grouped rest := by
  constructor
  · intro h
    refine ⟨fun name groups he => h [] name groups rest (by rw [he]; rfl), ?_⟩
    intro before name groups after hrest
    exact h (e :: before) name groups after (by rw [hrest]; rfl)
  · rintro ⟨hfirst, hrest⟩ before name groups after hbody
    -- The instruction is the first part or one of the others.
    cases before with
    | nil =>
      obtain ⟨rfl, rfl⟩ := List.cons.inj hbody
      exact hfirst name groups rfl
    | cons first before =>
      obtain ⟨rfl, htail⟩ := List.cons.inj hbody
      exact hrest before name groups after htail

/-- The first part of a grouped block told by the groups that it opens, `e.groupCount`. -/
theorem grouped_cons_iff {e : Expr} {rest : Block} :
    Grouped (e :: rest) ↔
      e.isOpenMarker = false ∧ BeginsWithBlocks e.groupCount.toNat rest ∧ Grouped rest := by
  rw [grouped_cons, ← and_assoc]
  refine and_congr_left fun _ => ?_
  cases e with
  | instr name groups =>
    by_cases hzero : groups = 0
    · subst hzero
      simp [Expr.isOpenMarker, Expr.groupCount]
    · have hpos : 0 < groups := UInt8.pos_iff_ne_zero.mpr hzero
      simp [Expr.isOpenMarker, Expr.groupCount, hpos]
  | _ => simp [Expr.isOpenMarker, Expr.groupCount]

/-! ## What comes back -/

/-- The empty blocks that come back in front of a part for the groups that are `owed` there. -/
def missingGroups (owed : UInt8) : Expr → Block
  | .block _ => []
  | _ => List.replicate owed.toNat (.block [])

end Block

mutual

/-- An expression as it comes back. -/
def Expr.rebuild : Expr → Expr
  | .block body => .block (Block.rebuildFrom 0 body)
  | e => e

/-- **Parts as they come back** where `owed` groups are owed: with empty blocks for the groups that
are missing, and without open markers. -/
def Block.rebuildFrom : (owed : UInt8) → List Expr → Block
  | owed, [] => List.replicate owed.toNat (.block [])
  | owed, e :: rest =>
    Block.missingGroups owed e ++
      ((if e.isOpenMarker then [] else [Expr.rebuild e]) ++
        Block.rebuildFrom (Block.afterPart owed e) rest)

end

/-- An expression that is no block comes back as it was: `e.rebuild = e`. -/
theorem Expr.rebuild_of_leaf {e : Expr} (hleaf : ∀ body, e ≠ .block body) : e.rebuild = e := by
  rw [rebuild]
  exact hleaf

/-- A block is no open marker. -/
theorem Expr.isOpenMarker_rebuild {e : Expr} (h : e.isOpenMarker = false) :
    e.rebuild.isOpenMarker = false := by
  cases e with
  | block body => rfl
  | _ => exact h

namespace Block

/-- A part that is a block comes back as a block, `rebuildFrom 0 body`, and takes one of the groups
that are owed. -/
theorem rebuildFrom_block_cons (owed : UInt8) (body rest : Block) :
    rebuildFrom owed (.block body :: rest) =
      .block (rebuildFrom 0 body) :: rebuildFrom (afterPart owed (.block body)) rest := by
  rw [rebuildFrom]
  rfl

/-- A block takes one of the groups that are owed: `owed.toNat - 1` are left. -/
theorem toNat_afterPart_block (owed : UInt8) (body : Block) :
    (afterPart owed (.block body)).toNat = owed.toNat - 1 := by
  by_cases hzero : owed = 0
  · simp [afterPart, hzero]
  · have := toNat_sub_one hzero
    simp only [afterPart, if_neg hzero]
    omega

/-- In front of any other part the groups that are `owed` come back empty. -/
theorem rebuildFrom_leaf_cons (owed : UInt8) {e : Expr} (hleaf : ∀ body, e ≠ .block body)
    (rest : Block) :
    rebuildFrom owed (e :: rest) = List.replicate owed.toNat (.block []) ++
      ((if e.isOpenMarker then [] else [e]) ++ rebuildFrom e.groupCount rest) := by
  have hmissing : missingGroups owed e = List.replicate owed.toNat (.block []) := by
    rw [missingGroups]
    exact hleaf
  have hafter : afterPart owed e = e.groupCount := by
    rw [afterPart]
    exact hleaf
  rw [rebuildFrom, hmissing, hafter, Expr.rebuild_of_leaf hleaf]

/-- No open marker comes back: nothing in `rebuildFrom owed parts` is one. -/
theorem isOpenMarker_of_mem_rebuildFrom {owed : UInt8} {parts : Block} {e : Expr}
    (h : e ∈ rebuildFrom owed parts) : e.isOpenMarker = false := by
  have hempty (n : Nat) (hmem : e ∈ List.replicate n (Expr.block [])) :
      e.isOpenMarker = false := by
    rw [List.eq_of_mem_replicate hmem]
    rfl
  induction parts generalizing owed with
  | nil => exact hempty _ h
  | cons first rest ih =>
    rw [rebuildFrom, List.mem_append, List.mem_append] at h
    -- What comes back is an empty group, the first part, or from the rest.
    rcases h with hmissing | hfirst | hrest
    · unfold missingGroups at hmissing
      split at hmissing
      · cases hmissing
      · exact hempty _ hmissing
    · split at hfirst
      next => cases hfirst
      next hmarker =>
        rw [List.mem_singleton.mp hfirst]
        exact Expr.isOpenMarker_rebuild (Bool.eq_false_iff.mpr hmarker)
    · exact ih hrest

/-- Behind an expression that is no block, parts come back as they were only if no group is owed in
front of it and it is no open marker. -/
theorem rebuildFrom_leaf_cons_eq_self_iff {owed : UInt8} {e : Expr} {rest : Block}
    (hleaf : ∀ body, e ≠ .block body) :
    rebuildFrom owed (e :: rest) = e :: rest ↔
      owed.toNat = 0 ∧ e.isOpenMarker = false ∧ rebuildFrom e.groupCount rest = rest := by
  rw [rebuildFrom_leaf_cons owed hleaf]
  cases howed : owed.toNat with
  | succ n =>
    -- A group that is owed would come back as a block in front of the expression.
    refine iff_of_false (fun hback => ?_) nofun
    rw [List.replicate_succ, List.cons_append] at hback
    exact hleaf [] (List.cons.inj hback).1.symm
  | zero =>
    rw [List.replicate_zero, List.nil_append]
    cases hmarker : e.isOpenMarker with
    | true =>
      -- An open marker would have to come back from the parts behind it.
      refine iff_of_false (fun hback => ?_) nofun
      rw [if_pos rfl, List.nil_append] at hback
      have hmem : e ∈ rebuildFrom e.groupCount rest := hback ▸ List.mem_cons_self
      rw [isOpenMarker_of_mem_rebuildFrom hmem] at hmarker
      cases hmarker
    | false => simp

/-- **Parts come back as they were** exactly if they begin with the groups that are owed
(`BeginsWithBlocks`), they are `Grouped`, and the blocks among them come back as they were. -/
theorem rebuildFrom_eq_self_iff (owed : UInt8) (parts : Block) :
    rebuildFrom owed parts = parts ↔
      BeginsWithBlocks owed.toNat parts ∧ Grouped parts ∧
        ∀ body, .block body ∈ parts → rebuildFrom 0 body = body := by
  induction parts generalizing owed with
  | nil => simp [rebuildFrom, beginsWithBlocks_nil, Grouped]
  | cons e rest ih =>
    rw [grouped_cons_iff]
    -- A block in front takes one of the groups that are owed; anything else ends them.
    by_cases hblock : ∃ body, e = .block body
    · obtain ⟨body, rfl⟩ := hblock
      rw [rebuildFrom_block_cons, beginsWithBlocks_block_cons, ← toNat_afterPart_block owed body,
        List.cons.injEq, Expr.block.injEq, ih]
      simp only [List.mem_cons, forall_eq_or_imp, Expr.block.injEq, Expr.isOpenMarker,
        Expr.groupCount, UInt8.toNat_zero, beginsWithBlocks_zero, true_and]
      exact and_left_comm.trans (and_congr_right fun _ => and_left_comm)
    · have hleaf : ∀ body, e ≠ .block body := fun body he => hblock ⟨body, he⟩
      have hmem (body : Block) : .block body ∈ e :: rest ↔ .block body ∈ rest := by
        rw [List.mem_cons, or_iff_right fun heq => hleaf body heq.symm]
      rw [rebuildFrom_leaf_cons_eq_self_iff hleaf, beginsWithBlocks_leaf_cons hleaf, ih]
      simp only [hmem, and_assoc]

/-- A block comes back as it was, `rebuildFrom 0 code = code`, exactly if it and the blocks nested
in it are grouped. -/
theorem rebuildFrom_zero_eq_self_iff (code : Block) :
    rebuildFrom 0 code = code ↔ ∀ inner : Block, inner.Within code → inner.Grouped := by
  constructor
  · intro hback inner hinner
    induction hinner with
    | refl => exact ((rebuildFrom_eq_self_iff 0 inner).mp hback).2.1
    | part hmem _ ih => exact ih (((rebuildFrom_eq_self_iff 0 _).mp hback).2.2 _ hmem)
  · -- By induction on the number of points, which a nested block has fewer of.
    induction hn : partsSize code using Nat.strongRecOn generalizing code with
    | ind n ih =>
      intro hgrouped
      refine (rebuildFrom_eq_self_iff 0 code).mpr
        ⟨beginsWithBlocks_zero code, hgrouped code .refl, fun body hmem => ?_⟩
      have hlt : partsSize body < n := by
        have hle := size_le_partsSize hmem
        rw [Expr.size] at hle
        omega
      exact ih (partsSize body) hlt body rfl fun inner hinner => hgrouped inner (.part hmem hinner)

end Block

/-! ## Following the draft -/

namespace Draft

open Block Owed

/-- The frames in which the first of `k` groups is open. -/
def opened (k : UInt8) (frames : List Block) : List Block :=
  if k = 0 then frames else [] :: frames

/-- Closing a group with `Gene.closer` makes a part of the innermost frame. -/
theorem addGene_closer (inner frame : Block) (outer : List Block) (k : UInt8) (owed : List UInt8) :
    addGene ⟨inner :: frame :: outer, k :: owed⟩ Gene.closer =
      ⟨opened k ((frame ++ [.block inner]) :: outer), openFirst k owed⟩ :=
  close_cons (inner :: frame :: outer) k owed

/-- As many closers as groups are owed, `k.toNat`, add as many empty blocks. -/
theorem foldl_addGene_replicate_closer (k : UInt8) (frame : Block) (outer : List Block)
    (owed : List UInt8) :
    (List.replicate k.toNat Gene.closer).foldl addGene
        ⟨opened k (frame :: outer), openFirst k owed⟩ =
      ⟨(frame ++ List.replicate k.toNat (.block [])) :: outer, owed⟩ := by
  -- The induction is on the number behind the word `k`, which does not wrap unless it is zero.
  induction hn : k.toNat generalizing k frame with
  | zero =>
    obtain rfl : k = 0 := UInt8.toNat_inj.mp hn
    simp [opened, openFirst]
  | succ n ih =>
    have hne : k ≠ 0 := by
      rintro rfl
      cases hn
    have hprev : (k - 1).toNat = n := by
      have := toNat_sub_one hne
      omega
    rw [opened, if_neg hne, openFirst_of_ne_zero hne, List.replicate_succ, List.foldl_cons,
      addGene_closer, ih (k - 1) _ hprev, List.append_assoc, List.replicate_succ]
    rfl

/-- An expression's gene adds the expression, unless it `isOpenMarker`, and opens its groups. -/
theorem addGene_expr (e : Expr) (frame : Block) (outer : List Block) (owed : List UInt8) :
    addGene ⟨frame :: outer, owed⟩ { atom := .expr e } =
      ⟨opened e.groupCount ((frame ++ if e.isOpenMarker then [] else [e]) :: outer),
        openFirst e.groupCount owed⟩ := by
  have hadd : addGene ⟨frame :: outer, owed⟩ { atom := .expr e } =
      add ⟨frame :: outer, owed⟩ e := rfl
  have hframes : (if e.isOpenMarker then frame :: outer else addPart e (frame :: outer)) =
      (frame ++ if e.isOpenMarker then [] else [e]) :: outer := by
    by_cases hmarker : e.isOpenMarker = true
    · simp [hmarker]
    · simp [hmarker, addPart]
  rw [hadd, add, hframes, opened, openFirst]
  split <;> rfl

/-- The genes of one part, `writePart`, lead to the draft with the part as it comes back, if this
holds for the parts of a block. -/
theorem foldl_addGene_writePart {e : Expr}
    (hparts : ∀ body, e = .block body → ∀ frame outer owed,
      (flatten body).foldl addGene ⟨frame :: outer, owed⟩ =
        ⟨(frame ++ rebuildFrom 0 body) :: outer, owed⟩)
    (k : UInt8) (frame : Block) (outer : List Block) (owed : List UInt8) :
    (writePart k e).foldl addGene ⟨opened k (frame :: outer), openFirst k owed⟩ =
      ⟨opened (afterPart k e)
        ((frame ++ (missingGroups k e ++ if e.isOpenMarker then [] else [e.rebuild])) :: outer),
        openFirst (afterPart k e) owed⟩ := by
  by_cases hblock : ∃ body, e = .block body
  · obtain ⟨body, rfl⟩ := hblock
    -- With an open marker in front or without, a frame for the block is open then.
    have hopening : (if k = 0 then [Gene.openMarker] else []).foldl addGene
          ⟨opened k (frame :: outer), openFirst k owed⟩ =
        ⟨[] :: frame :: outer, (afterPart k (.block body)) :: owed⟩ := by
      by_cases hzero : k = 0
      · subst hzero
        have hmarker := addGene_expr (.instr openMarkerName 1) frame outer owed
        simpa [opened, openFirst, afterPart, Expr.groupCount, Expr.isOpenMarker,
          Gene.openMarker] using hmarker
      · simp [opened, openFirst, afterPart, hzero]
    rw [writePart, List.foldl_append, List.foldl_append, hopening, hparts body rfl, List.nil_append,
      List.foldl_cons, List.foldl_nil, addGene_closer]
    rfl
  · have hleaf : ∀ body, e ≠ .block body := fun body he => hblock ⟨body, he⟩
    have hwrite : writePart k e =
        List.replicate k.toNat Gene.closer ++ [{ atom := .expr e }] := by
      rw [writePart]
      exact hleaf
    have hmissing : missingGroups k e = List.replicate k.toNat (.block []) := by
      rw [missingGroups]
      exact hleaf
    have hafter : afterPart k e = e.groupCount := by
      rw [afterPart]
      exact hleaf
    rw [hwrite, List.foldl_append, foldl_addGene_replicate_closer, List.foldl_cons, List.foldl_nil,
      addGene_expr, hmissing, hafter, Expr.rebuild_of_leaf hleaf, List.append_assoc]

mutual

/-- The genes of a block's parts lead to the draft with the parts as they come back. -/
theorem foldl_addGene_flatten : (e : Expr) → (body : Block) → e = .block body → (frame : Block) →
    (outer : List Block) → (owed : List UInt8) →
    (flatten body).foldl addGene ⟨frame :: outer, owed⟩ =
      ⟨(frame ++ rebuildFrom 0 body) :: outer, owed⟩
  | .block body, _, rfl, frame, outer, owed => foldl_addGene_flattenFrom body 0 frame outer owed

/-- **The genes of some parts**, `flattenFrom`, lead to the draft with the parts as they come back.
-/
theorem foldl_addGene_flattenFrom : (parts : List Expr) → (k : UInt8) → (frame : Block) →
    (outer : List Block) → (owed : List UInt8) →
    (flattenFrom k.toNat parts).foldl addGene ⟨opened k (frame :: outer), openFirst k owed⟩ =
      ⟨(frame ++ rebuildFrom k parts) :: outer, owed⟩
  | [], k, frame, outer, owed => foldl_addGene_replicate_closer k frame outer owed
  | e :: parts, k, frame, outer, owed => by
    rw [flattenFrom_cons, List.foldl_append, foldl_addGene_writePart (foldl_addGene_flatten e),
      foldl_addGene_flattenFrom parts, rebuildFrom]
    simp only [List.append_assoc]

end

end Draft

/-! ## The round trip -/

namespace Block

open Draft

/-- The code of flattened code is the code as it comes back: `rebuildFrom 0 code`. -/
theorem toBlock_flatten (code : Block) :
    Genome.toBlock (flatten code) = rebuildFrom 0 code := by
  have hdraft := foldl_addGene_flattenFrom code 0 [] [] []
  calc Genome.toBlock (flatten code)
      = Draft.complete ((flattenFrom (0 : UInt8).toNat code).foldl addGene
          ⟨opened 0 [[]], Owed.openFirst 0 []⟩) := rfl
    _ = Draft.complete ⟨[rebuildFrom 0 code], []⟩ := by rw [hdraft]; rfl
    _ = rebuildFrom 0 code := rfl

/-- **Code round-trips exactly if it is grouped**: `toBlockWithin` of `flatten code`, within a limit
that the code fits, gives the code again if and only if in it and in every block nested in it each
instruction that opens groups is followed by as many blocks, and none is an open marker. -/
theorem toBlockWithin_flatten_eq_iff (code : Block) (maxPoints : Nat)
    (fits : code.size ≤ maxPoints) :
    Genome.toBlockWithin (flatten code) maxPoints = code ↔
      ∀ inner : Block, inner.Within code → inner.Grouped := by
  rw [← rebuildFrom_zero_eq_self_iff, Genome.toBlockWithin, toBlock_flatten]
  constructor
  · intro hback
    split at hback
    next hlarge =>
      -- Only the empty program could have been replaced by itself, and it comes back.
      subst hback
      rfl
    next => exact hback
  · intro hback
    rw [hback]
    exact if_neg (Nat.not_lt.mpr fits)

/-- Nested code whose instructions all have their groups makes the round trip. It does not with an
instruction before it that misses its second group, and neither does code with an open marker. -/
theorem toBlockWithin_flatten_eq_iff_of_nested :
    let grouped : Block := [.instr "exec_if" 2, .block [.instr "exec_dup" 1, .block [.input 0]],
      .block [], .block [.literal (.int 5) .int]]
    let lacking : Block := [.instr "exec_if" 2, .block grouped, .input 1]
    let marked : Block := [.instr openMarkerName 1, .block grouped]
    (∀ inner : Block, inner.Within grouped → inner.Grouped) ∧
      Genome.toBlockWithin (flatten lacking) 12 ≠ lacking ∧
      Genome.toBlockWithin (flatten marked) 11 ≠ marked := by
  intro grouped lacking marked
  refine ⟨(toBlockWithin_flatten_eq_iff grouped 9 (by decide)).mp rfl, fun hback => ?_,
    fun hback => ?_⟩
  -- The input stands where the second group would have to be.
  · have hgrouped := (toBlockWithin_flatten_eq_iff lacking 12 (by decide)).mp hback lacking .refl
    obtain ⟨-, -, hblocks⟩ := hgrouped [] "exec_if" 2 _ rfl (by decide)
    obtain ⟨group, hgroup⟩ := hblocks (.input 1) (.tail _ (.head _))
    cases hgroup
  · have hgrouped := (toBlockWithin_flatten_eq_iff marked 11 (by decide)).mp hback marked .refl
    exact (hgrouped [] openMarkerName 1 _ rfl (by decide)).1 rfl

end Block

end PushMachine
