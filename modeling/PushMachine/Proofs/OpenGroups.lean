import Mathlib.Algebra.GroupWithZero.Nat
import PushMachine.Proofs.NormalForm

/-! # Frames and open groups

A draft keeps two lists: the frames of the blocks under construction, and for each open group the
number of groups that are owed behind it. Parts, openers and closers change the two in different
places, yet there is always one frame for every open group and one for the program
(`Draft.Shaped`). So the frame of the program is never made into a block, and no part is added
where there is no frame (`Draft.InStep`).

Closing all groups is written here as the loop it is, for a draft (`Draft.drain`) and for a genome
that is balanced (`Owed.drain`). A close may begin the next group, so neither list gets shorter at
every turn. What does is the number of closers pending, by exactly one, and this number is how many
turns the loops take. -/

namespace PushMachine

/-! ## Owed groups -/

namespace Owed

/-- The closers pending are one for every open group and `rest` for the groups owed behind it. -/
theorem pendingCloses_eq_sum (owed : List UInt8) :
    pendingCloses owed = (owed.map fun rest => rest.toNat + 1).sum := by
  induction owed with
  | nil => rfl
  | cons rest outer ih => rw [pendingCloses_cons, ih, List.map_cons, List.sum_cons]

/-- Opening the first of `k ≠ 0` groups owes one less, without borrowing:
`rest.toNat + 1 = k.toNat`. -/
theorem exists_openFirst {k : UInt8} (h : k ≠ 0) (owed : List UInt8) :
    ∃ rest, openFirst k owed = rest :: owed ∧ rest.toNat + 1 = k.toNat :=
  ⟨k - 1, openFirst_of_ne_zero h owed, Block.toNat_sub_one h⟩

/-- Closing a group with `rest ≠ 0` owes one less, without borrowing: `less.toNat + 1 = rest.toNat`.
-/
theorem exists_close? {rest : UInt8} (h : rest ≠ 0) (outer : List UInt8) :
    ∃ less, close? (rest :: outer) = some (true, less :: outer) ∧ less.toNat + 1 = rest.toNat := by
  obtain ⟨less, hopen, hless⟩ := exists_openFirst h outer
  refine ⟨less, ?_, hless⟩
  rw [close?_cons, hopen, decide_eq_true (UInt8.pos_iff_ne_zero.mpr h)]

/-- Closes groups as long as `close?` finds one open, with a closer for each. -/
def drain (owed : List UInt8) : Genome :=
  match _h : close? owed with
  | none => []
  | some (_, next) => Gene.closer :: drain next
termination_by pendingCloses owed
decreasing_by
  rw [Genome.pendingCloses_of_close? _h]
  exact Nat.lt_succ_self _

/-- **Draining takes the closers that are pending**, `pendingCloses owed` of them and no more. -/
theorem drain_eq_replicate (owed : List UInt8) :
    drain owed = List.replicate (pendingCloses owed) Gene.closer := by
  fun_induction drain owed with
  | case1 owed hclose => rw [Genome.pendingCloses_of_close?_eq_none hclose, List.replicate_zero]
  | case2 owed reopened next hclose ih =>
    rw [ih, Genome.pendingCloses_of_close? hclose, List.replicate_succ]

end Owed

namespace Genome

open Owed

/-- Drops closers without an open group: the genes that are kept, and the groups that they leave
open. -/
def sift : (owed : List UInt8) → Genome → Genome × List UInt8
  | owed, [] => ([], owed)
  | owed, gene :: rest =>
    match gene.atom with
    | .closer =>
      match close? owed with
      | none => sift owed rest
      | some (_, next) => (sift next rest).map (gene :: ·) id
    | .expr e => (sift (openFirst e.groupCount owed) rest).map (gene :: ·) id

/-- **Balancing is sifting and draining**: `balance` is `sift` and then `drain` of what it leaves
open. -/
theorem balance_eq_sift_append_drain (owed : List UInt8) (genome : Genome) :
    balance owed genome = (sift owed genome).1 ++ drain (sift owed genome).2 := by
  fun_induction balance owed genome with
  | case1 owed => rw [sift, List.nil_append, drain_eq_replicate]
  | case2 owed gene rest hatom hclose ih =>
    rw [ih, sift]
    simp only [hatom, hclose]
  | case3 owed gene rest hatom reopened next hclose ih =>
    rw [ih, sift]
    simp only [hatom, hclose, Prod.map_fst, Prod.map_snd, id, List.cons_append]
  | case4 owed gene rest e hatom ih =>
    rw [ih, sift]
    simp only [hatom, Prod.map_fst, Prod.map_snd, id, List.cons_append]

end Genome

/-! ## Building a draft call by call -/

namespace Draft

open Block Owed

variable {draft : Draft} {frames : List Block} {program : Block}

/-- A call that goes on with a draft. -/
inductive Call where
  /-- Add an atom. -/
  | atom (atom : Atom)
  /-- Close a group. -/
  | close

/-- Carries a call out. The atom `.closer` leaves no trace in a block. -/
def call (draft : Draft) : Call → Draft
  | .atom .closer => draft
  | .atom (.expr e) => draft.add e
  | .close => draft.close

/-- Carries calls out, one after the other: `call` folded over them. -/
def callAll (draft : Draft) (calls : List Call) : Draft := calls.foldl call draft

/-- A call keeps a draft shaped. -/
theorem Shaped.call (shaped : draft.Shaped) : (call : Call) → (draft.call call).Shaped
  | .atom .closer => shaped
  | .atom (.expr e) => shaped.add e
  | .close => shaped.close

/-- Calls keep a draft shaped. -/
theorem Shaped.callAll (shaped : draft.Shaped) (calls : List Call) :
    (draft.callAll calls).Shaped := by
  induction calls generalizing draft with
  | nil => exact shaped
  | cons call rest ih => exact ih (shaped.call call)

/-! ### The calls of a genome -/

/-- The calls that add a gene: none if it is `silent`, else one for its atom and as many as it
`closes` groups. -/
def geneCalls (gene : Gene) : List Call :=
  if gene.silent then []
  else
    (match gene.atom with
      | .closer => .close
      | .expr e => .atom (.expr e)) :: List.replicate gene.closes.toNat .close

/-- Calls that only close groups are `Draft.closeTimes`. -/
theorem callAll_replicate_close (n : Nat) (draft : Draft) :
    draft.callAll (List.replicate n .close) = draft.closeTimes n := by
  induction n generalizing draft with
  | zero => rfl
  | succ n ih => exact ih draft.close

/-- A gene is added by its calls: `callAll (geneCalls gene)` is `addGene gene`. -/
theorem callAll_geneCalls (gene : Gene) (draft : Draft) :
    draft.callAll (geneCalls gene) = draft.addGene gene := by
  rw [geneCalls, addGene]
  split
  · rfl
  · cases gene.atom with
    | closer => exact callAll_replicate_close _ draft.close
    | expr e => exact callAll_replicate_close _ (draft.add e)

/-- A genome is added by the calls of its genes, as `foldl addGene` adds it. -/
theorem callAll_flatMap_geneCalls (genome : Genome) (draft : Draft) :
    draft.callAll (genome.flatMap geneCalls) = genome.foldl addGene draft := by
  induction genome generalizing draft with
  | nil => rfl
  | cons gene rest ih =>
    rw [List.flatMap_cons, callAll, List.foldl_append, List.foldl_cons, ← ih,
      ← callAll_geneCalls gene draft]
    rfl

/-! ### The frame of the program -/

/-- Adding a part only adds to the frame of the program, `frames.getLast?`. -/
theorem getLast?_addPart (e : Expr) (h : frames.getLast? = some program) :
    ∃ more, (addPart e frames).getLast? = some (program ++ more) := by
  match frames, h with
  | [frame], h =>
    obtain rfl : frame = program := Option.some.inj h
    exact ⟨[e], rfl⟩
  | _ :: around :: outer, h =>
    refine ⟨[], ?_⟩
    rw [List.append_nil]
    exact h

/-- A frame that is begun leaves the frame of the program alone. -/
theorem getLast?_nil_cons (h : frames.getLast? = some program) :
    (([] : Block) :: frames).getLast? = some program := by
  rw [List.getLast?_cons, h]
  rfl

/-- Adding an expression only adds to the frame of the program: `program` becomes `program ++ more`.
-/
theorem getLast?_add (e : Expr) (h : draft.frames.getLast? = some program) :
    ∃ more, (draft.add e).frames.getLast? = some (program ++ more) := by
  have hadded : ∃ more, (if e.isOpenMarker then draft.frames
      else addPart e draft.frames).getLast? = some (program ++ more) := by
    split
    · exact ⟨[], by rw [List.append_nil, h]⟩
    · exact getLast?_addPart e h
  obtain ⟨more, hmore⟩ := hadded
  refine ⟨more, ?_⟩
  rw [add]
  split
  · exact hmore
  · exact getLast?_nil_cons hmore

/-- Closing a group only adds to the frame of the program. -/
theorem Shaped.getLast?_close (shaped : draft.Shaped)
    (h : draft.frames.getLast? = some program) :
    ∃ more, draft.close.frames.getLast? = some (program ++ more) := by
  obtain ⟨frames, owed⟩ := draft
  match frames, owed, shaped with
  | frames, [], _ => exact ⟨[], by rw [List.append_nil]; exact h⟩
  | frame :: around :: outer, k :: owed, _ =>
    -- The innermost frame is not that of the program, which is the same without it.
    have hlast : (around :: outer).getLast? = some program := h
    obtain ⟨more, hmore⟩ := getLast?_addPart (.block frame) hlast
    refine ⟨more, ?_⟩
    rw [close_cons]
    by_cases hzero : k = 0
    · rw [if_pos hzero]
      exact hmore
    · rw [if_neg hzero]
      exact getLast?_nil_cons hmore

/-- **The frame of the program stays**: a call makes of `program` some `program ++ more`. -/
theorem Shaped.getLast?_call (shaped : draft.Shaped)
    (h : draft.frames.getLast? = some program) :
    (call : Call) → ∃ more, (draft.call call).frames.getLast? = some (program ++ more)
  | .atom .closer => ⟨[], by rw [List.append_nil]; exact h⟩
  | .atom (.expr e) => getLast?_add e h
  | .close => shaped.getLast?_close h

/-! ### Closing all groups -/

/-- Closing an open group takes one of the pending closers: `pendingCloses` goes down by one. -/
theorem pendingCloses_close (h : draft.owed ≠ []) :
    pendingCloses draft.owed = pendingCloses draft.close.owed + 1 := by
  obtain ⟨frames, owed⟩ := draft
  cases owed with
  | nil => exact absurd rfl h
  | cons k owed =>
    rw [close_cons]
    exact pendingCloses_cons_eq k owed

/-- Closes groups as long as one is open: how many turns that takes, and the draft it leaves. Each
turn takes one of the `pendingCloses`. -/
def drain (draft : Draft) : Nat × Draft :=
  if _h : draft.owed = [] then (0, draft)
  else draft.close.drain.map (· + 1) id
termination_by pendingCloses draft.owed
decreasing_by
  rw [pendingCloses_close _h]
  exact Nat.lt_succ_self _

/-- Draining is `closeTimes`, with as many turns as there are `pendingCloses`. -/
theorem drain_eq_closeTimes (draft : Draft) :
    draft.drain =
      (pendingCloses draft.owed, draft.closeTimes (pendingCloses draft.owed)) := by
  fun_induction drain draft with
  | case1 draft hnone =>
    rw [hnone]
    rfl
  | case2 draft hopen ih =>
    -- The turn that was taken is the one by which more closers were pending.
    rw [ih, pendingCloses_close hopen]
    rfl

/-- **Draining leaves the completed program**, `draft.complete`, as the only frame, after as many
turns as closers were pending. -/
theorem Shaped.drain_eq (shaped : draft.Shaped) :
    draft.drain = (pendingCloses draft.owed, ⟨[draft.complete], []⟩) := by
  obtain ⟨program, hprogram⟩ := shaped.closeTimes_pendingCloses
  rw [drain_eq_closeTimes, complete, hprogram]
  rfl

/-! ### Frames and groups in step -/

/-- **The first of `k` groups is begun** behind a draft. With no group the draft stays as it is;
else it has a frame more, and owes one group less than `k`, without borrowing. -/
def Begins (k : UInt8) (before after : Draft) : Prop :=
  (k = 0 → after = before) ∧
    (k ≠ 0 → ∃ rest, rest.toNat + 1 = k.toNat ∧ after = ⟨[] :: before.frames, rest :: before.owed⟩)

/-- **Frames and open groups are in step**, and no call can get them out of it. -/
structure InStep (draft : Draft) : Prop where
  /-- There is one frame for every open group and one for the program: `frames` are one more than
  `owed`. -/
  shaped : draft.frames.length = draft.owed.length + 1
  /-- The frame of the program is there and stays; a `call` only adds to it. -/
  rooted : ∃ program, draft.frames.getLast? = some program ∧
    ∀ call, ∃ more, (draft.call call).frames.getLast? = some (program ++ more)
  /-- An expression goes to the innermost frame, unless it `isOpenMarker`, and the first of its
  groups is begun. -/
  adds : ∀ e, ∃ frame outer, draft.frames = frame :: outer ∧
    Begins e.groupCount ⟨(frame ++ if e.isOpenMarker then [] else [e]) :: outer, draft.owed⟩
      (draft.add e)
  /-- Without an open group (`draft.owed = []`) nothing is closed. -/
  idle : draft.owed = [] → draft.close = draft
  /-- With one, the innermost frame goes as `.block frame` to the frame around it, and the next
  group that is owed is begun. -/
  closes : ∀ k owed, draft.owed = k :: owed → ∃ frame around outer,
    draft.frames = frame :: around :: outer ∧
      Begins k ⟨(around ++ [.block frame]) :: outer, owed⟩ draft.close
  /-- Closing groups as long as one is open takes a turn for every group that is open or owed, and
  leaves `draft.complete` as the only frame. -/
  drains : draft.drain =
    ((draft.owed.map fun rest => rest.toNat + 1).sum, ⟨[draft.complete], []⟩)

/-- The draft with `opened k` and `openFirst k` is the one in which the first of `k` groups is
begun. -/
theorem begins_opened (k : UInt8) (before : Draft) :
    Begins k before ⟨opened k before.frames, openFirst k before.owed⟩ := by
  constructor
  · rintro rfl
    rfl
  · intro hne
    obtain ⟨rest, hopen, hrest⟩ := exists_openFirst hne before.owed
    exact ⟨rest, hrest, by rw [opened, if_neg hne, hopen]⟩

/-- Adding an expression to a shaped draft finds a frame for it. -/
theorem Shaped.adds (shaped : draft.Shaped) (e : Expr) :
    ∃ frame outer, draft.frames = frame :: outer ∧
      Begins e.groupCount ⟨(frame ++ if e.isOpenMarker then [] else [e]) :: outer, draft.owed⟩
        (draft.add e) := by
  obtain ⟨frames, owed⟩ := draft
  match frames, shaped with
  | frame :: outer, _ =>
    have hadd : Draft.add ⟨frame :: outer, owed⟩ e =
        ⟨opened e.groupCount ((frame ++ if e.isOpenMarker then [] else [e]) :: outer),
          openFirst e.groupCount owed⟩ := addGene_expr e frame outer owed
    refine ⟨frame, outer, rfl, ?_⟩
    rw [hadd]
    exact begins_opened _ _

/-- Closing an open group of a shaped draft finds its frame and the one around it. -/
theorem Shaped.closes (shaped : draft.Shaped) (k : UInt8) (owed : List UInt8)
    (h : draft.owed = k :: owed) :
    ∃ frame around outer, draft.frames = frame :: around :: outer ∧
      Begins k ⟨(around ++ [.block frame]) :: outer, owed⟩ draft.close := by
  obtain ⟨frames, _⟩ := draft
  cases h
  match frames, shaped with
  | frame :: around :: outer, _ =>
    have hclose : Draft.close ⟨frame :: around :: outer, k :: owed⟩ =
        ⟨opened k ((around ++ [.block frame]) :: outer), openFirst k owed⟩ :=
      addGene_closer frame around outer k owed
    refine ⟨frame, around, outer, rfl, ?_⟩
    rw [hclose]
    exact begins_opened _ _

/-- A shaped draft is `InStep`. -/
theorem Shaped.inStep (shaped : draft.Shaped) : draft.InStep where
  shaped := shaped
  rooted := by
    have hne : draft.frames ≠ [] := List.ne_nil_of_length_eq_add_one shaped
    have hprogram := List.getLast?_eq_some_getLast hne
    exact ⟨_, hprogram, shaped.getLast?_call hprogram⟩
  adds := shaped.adds
  idle := by
    intro hnone
    rw [Draft.close, hnone]
    rfl
  closes := shaped.closes
  drains := by rw [shaped.drain_eq, pendingCloses_eq_sum]

/-- **Frames and open groups move together.** After any calls, in any order, there is one frame for
every open group and one for the program, every further call finds the frames it works on and owes
groups without borrowing, and closing what is open ends, after a turn for every group that is open
or owed, with the program as the only frame. The code of a genome is what this leaves of its calls.
Where a genome is normalized no groups are borrowed either, and the loop at its end adds a closer
for every group that is open or owed. -/
theorem frames_in_step :
    (∀ calls, (Draft.empty.callAll calls).InStep) ∧
      (∀ genome : Genome,
        (Draft.empty.callAll (genome.flatMap geneCalls)).drain.2.frames = [genome.toBlock]) ∧
      (∀ (k : UInt8) (owed : List UInt8), k ≠ 0 →
        (∃ rest, openFirst k owed = rest :: owed ∧ rest.toNat + 1 = k.toNat) ∧
        ∃ rest, close? (k :: owed) = some (true, rest :: owed) ∧ rest.toNat + 1 = k.toNat) ∧
      ∀ genome : Genome,
        let (kept, owed) := Genome.sift [] genome.expand
        genome.normalize = kept ++ Owed.drain owed ∧
          Owed.drain owed =
            List.replicate (owed.map fun rest => rest.toNat + 1).sum Gene.closer := by
  have hempty : Draft.empty.Shaped := rfl
  refine ⟨fun calls => (hempty.callAll calls).inStep, fun genome => ?_, fun k owed hne => ?_,
    fun genome => ⟨?_, ?_⟩⟩
  · rw [callAll_flatMap_geneCalls, (hempty.foldl_addGene genome).drain_eq, Genome.toBlock]
  · exact ⟨exists_openFirst hne owed, exists_close? hne owed⟩
  · exact Genome.balance_eq_sift_append_drain [] genome.expand
  · rw [drain_eq_replicate, pendingCloses_eq_sum]

/-- A closer too many, an instruction with three groups, one of them closed, a closer as a part, and
an open marker for as many groups as there can be: three frames, and 257 turns until only the
program is left. -/
theorem frames_in_step_nested :
    let draft := Draft.empty.callAll [.close, .atom (.expr (.instr "exec_rot" 3)), .close,
      .atom .closer, .atom (.expr (.instr openMarkerName 255))]
    draft.owed = [254, 1] ∧ draft.frames.length = 3 ∧
      draft.drain = (257, ⟨[draft.complete], []⟩) ∧
      (255 : UInt8) ≠ 0 ∧ ∃ rest, openFirst 255 [1] = [rest, 1] ∧ rest.toNat + 1 = 255 := by
  intro draft
  obtain ⟨hcalls, -, hborrows, -⟩ := frames_in_step
  have hstep : draft.InStep := hcalls _
  have howed : draft.owed = [254, 1] := by decide
  have hdrains := hstep.drains
  have hne : (255 : UInt8) ≠ 0 := by decide
  rw [howed] at hdrains
  exact ⟨howed, by rw [hstep.shaped, howed]; rfl, hdrains, hne, (hborrows 255 [1] hne).1⟩

end Draft

end PushMachine
