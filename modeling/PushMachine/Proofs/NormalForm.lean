import PushMachine.Proofs.CodeRoundTrip

/-! # The normal form of genomes

A genome is in normal form if its genes are plain (`Gene.Plain`) and its closers are balanced: each
one has an open group to close, and in the end no group is open (`Genome.Balanced`). These are
exactly the genomes that normalizing leaves as they are (`Genome.normalize_eq_self_iff`), and
normalizing brings every genome there.

Balance is told by counting, without the list of owed groups that `Genome.balance` keeps; the two
agree because each closer takes one from the closers that are pending. The code stays the same if no
gene holds a block: dropped closers did nothing to the draft, and the closers that are added at the
end are those that completing the draft would have made up for. -/

namespace PushMachine

namespace Gene

/-- Whether a gene closes a group (`gene.atom` is `.closer`) instead of adding an expression. -/
def isCloser (gene : Gene) : Bool :=
  match gene.atom with
  | .closer => true
  | .expr _ => false

/-- Number of groups that a gene opens. -/
def groupCount (gene : Gene) : Nat :=
  match gene.atom with
  | .closer => 0
  | .expr e => e.groupCount.toNat

/-- **A plain gene**: it is nothing but its atom, which is no block. -/
structure Plain (gene : Gene) : Prop where
  /-- It is not `silent`. -/
  aloud : gene.silent = false
  /-- It `closes` no groups behind its atom. -/
  closes : gene.closes = 0
  /-- It holds no block. -/
  leaf : ∀ body, gene.atom ≠ .expr (.block body)

/-- A closer of its own, `Gene.closer`, is plain. -/
theorem plain_closer : Gene.closer.Plain := ⟨rfl, rfl, nofun⟩

/-- An expression that is no block makes a plain gene. -/
theorem plain_expr {e : Expr} (hleaf : ∀ body, e ≠ .block body) : Plain { atom := .expr e } :=
  ⟨rfl, rfl, fun body heq => hleaf body (Atom.expr.inj heq)⟩

/-- A plain gene is nothing but its `atom`. -/
theorem Plain.exists_eq {gene : Gene} (plain : gene.Plain) :
    ∃ atom, gene = { atom := atom } ∧ ∀ body, atom ≠ .expr (.block body) := by
  obtain ⟨atom, silent, closes⟩ := gene
  obtain ⟨rfl, rfl, hleaf⟩ := plain
  exact ⟨atom, rfl, hleaf⟩

end Gene

namespace Genome

open Block Draft Owed

/-! ## Plain genes -/

/-- Genes that are copies of the closer are plain. -/
theorem plain_of_mem_replicate {n : Nat} {gene : Gene} (h : gene ∈ List.replicate n Gene.closer) :
    gene.Plain :=
  List.eq_of_mem_replicate h ▸ Gene.plain_closer

/-- The genes of `writePart owed e` are plain, if those of `e.flattenParts` are. -/
theorem plain_of_mem_writePart {owed : UInt8} {e : Expr} {gene : Gene}
    (hparts : ∀ gene ∈ e.flattenParts, gene.Plain) (h : gene ∈ writePart owed e) : gene.Plain := by
  -- A block is a group of its own, and any other part stands behind closers.
  by_cases hblock : ∃ body, e = .block body
  · obtain ⟨body, rfl⟩ := hblock
    rw [writePart, List.mem_append, List.mem_append, List.mem_singleton] at h
    rcases h with (hmarker | hbody) | rfl
    · split at hmarker
      · rw [List.mem_singleton.mp hmarker]
        exact Gene.plain_expr (by simp)
      · cases hmarker
    · exact hparts gene hbody
    · exact Gene.plain_closer
  · have hleaf : ∀ body, e ≠ .block body := fun body he => hblock ⟨body, he⟩
    have hwrite : writePart owed e =
        List.replicate owed.toNat Gene.closer ++ [{ atom := .expr e }] := by
      rw [writePart]
      exact hleaf
    rw [hwrite, List.mem_append, List.mem_singleton] at h
    rcases h with hcloser | rfl
    · exact plain_of_mem_replicate hcloser
    · exact Gene.plain_expr hleaf

mutual

/-- The genes of an expression's parts, `e.flattenParts`, are plain. -/
theorem plain_of_mem_flattenParts : (e : Expr) → ∀ gene ∈ e.flattenParts, gene.Plain
  | .block body => plain_of_mem_flattenFrom body 0
  | .literal _ _ => nofun
  | .input _ => nofun
  | .instr _ _ => nofun
  | .deferred _ => nofun

/-- The genes of flattened parts are plain. -/
theorem plain_of_mem_flattenFrom :
    (parts : List Expr) → (owed : UInt8) → ∀ gene ∈ flattenFrom owed.toNat parts, gene.Plain
  | [], _ => fun _ h => plain_of_mem_replicate h
  | e :: parts, owed => fun gene h => by
    rw [flattenFrom_cons, List.mem_append] at h
    rcases h with hpart | hrest
    · exact plain_of_mem_writePart (plain_of_mem_flattenParts e) hpart
    · exact plain_of_mem_flattenFrom parts _ gene hrest

end

/-- A genome is written out in plain genes: all of `genome.expand` are `Plain`. -/
theorem plain_of_mem_expand {genome : Genome} {gene : Gene} (h : gene ∈ genome.expand) :
    gene.Plain := by
  obtain ⟨source, -, hmem⟩ := List.mem_flatMap.mp h
  rw [expandGene_eq, List.mem_append] at hmem
  rcases hmem with hatom | hcloser
  · split at hatom
    · rw [List.mem_singleton.mp hatom]
      exact Gene.plain_closer
    · exact plain_of_mem_writePart (plain_of_mem_flattenParts _) hatom
  · exact plain_of_mem_replicate hcloser

/-- Plain genes are written out as they are: `genome.expand = genome`. -/
theorem expand_eq_self {genome : Genome} (hplain : ∀ gene ∈ genome, gene.Plain) :
    genome.expand = genome := by
  induction genome with
  | nil => rfl
  | cons gene rest ih =>
    obtain ⟨hgene, hrest⟩ := List.forall_mem_cons.mp hplain
    obtain ⟨atom, rfl, hleaf⟩ := hgene.exists_eq
    have hself : expandGene { atom := atom } = [{ atom := atom }] := by
      rw [expandGene]
      split
      next body hatom => exact absurd hatom (hleaf body)
      next => rfl
    rw [expand, List.filter_cons_of_pos rfl, List.flatMap_cons, hself]
    exact congrArg (_ :: ·) (ih hrest)

/-- Balancing adds nothing but `Gene.closer`. -/
theorem mem_or_eq_closer_of_mem_balance {owed : List UInt8} {genome : Genome} {gene : Gene}
    (h : gene ∈ balance owed genome) : gene ∈ genome ∨ gene = Gene.closer := by
  fun_induction balance owed genome with
  | case1 owed => exact .inr (List.eq_of_mem_replicate h)
  | case2 owed first rest hatom hclose ih => exact (ih h).imp_left (List.mem_cons_of_mem first)
  | case3 owed first rest hatom reopened next hclose ih =>
    rcases List.mem_cons.mp h with rfl | hrest
    · exact .inl List.mem_cons_self
    · exact (ih hrest).imp_left (List.mem_cons_of_mem first)
  | case4 owed first rest e hatom ih =>
    rcases List.mem_cons.mp h with rfl | hrest
    · exact .inl List.mem_cons_self
    · exact (ih hrest).imp_left (List.mem_cons_of_mem first)

/-- The genes of a normal form are plain. -/
theorem plain_of_mem_normalize {genome : Genome} {gene : Gene} (h : gene ∈ genome.normalize) :
    gene.Plain := by
  rcases mem_or_eq_closer_of_mem_balance h with hmem | rfl
  · exact plain_of_mem_expand hmem
  · exact Gene.plain_closer

/-! ## Balance -/

/-- Number of groups that the genes of a genome open: the sum of `Gene.groupCount`. -/
def groupsOpened : Genome → Nat
  | [] => 0
  | gene :: rest => gene.groupCount + groupsOpened rest

/-- Number of groups that the closers of a genome close: how many genes are `isCloser`. -/
def groupsClosed (genome : Genome) : Nat := genome.countP Gene.isCloser

/-- **A genome balanced behind `pending` groups**: in front of each closer more groups were pending
or opened than closed, and in the end all of them are closed. -/
structure BalancedBehind (pending : Nat) (genome : Genome) : Prop where
  /-- No closer is unmatched. -/
  matched : ∀ before gene after, genome = before ++ gene :: after → gene.isCloser = true →
    groupsClosed before < pending + groupsOpened before
  /-- No group is left open. -/
  settled : groupsClosed genome = pending + groupsOpened genome

/-- **A balanced genome**, `BalancedBehind 0`: each closer ends a group that was opened in front of
it, and each group is ended. -/
def Balanced (genome : Genome) : Prop := BalancedBehind 0 genome

/-- One more gene in front. -/
theorem groupsOpened_cons (gene : Gene) (rest : Genome) :
    groupsOpened (gene :: rest) = gene.groupCount + groupsOpened rest := rfl

/-- One more gene in front. -/
theorem groupsClosed_cons (gene : Gene) (rest : Genome) :
    groupsClosed (gene :: rest) = groupsClosed rest + if gene.isCloser then 1 else 0 :=
  List.countP_cons

/-- Without genes, no group may be pending: `BalancedBehind pending []` says `pending = 0`. -/
theorem balancedBehind_nil {pending : Nat} : BalancedBehind pending [] ↔ pending = 0 := by
  constructor
  · intro h
    exact h.settled.symm
  · rintro rfl
    exact ⟨fun before gene after heq => by simp at heq, rfl⟩

/-- A gene in front changes the number of pending groups from `pending` to `next`: those from before
and those that it opens, less the one that it closes. -/
theorem balancedBehind_cons {pending next : Nat} {gene : Gene} {rest : Genome}
    (hmatched : gene.isCloser = true → 0 < pending)
    (hnext : pending + gene.groupCount = next + if gene.isCloser then 1 else 0) :
    BalancedBehind pending (gene :: rest) ↔ BalancedBehind next rest := by
  constructor
  · intro h
    refine ⟨fun before other after hrest hother => ?_, ?_⟩
    · have hlater := h.matched (gene :: before) other after (by rw [hrest]; rfl) hother
      rw [groupsOpened_cons, groupsClosed_cons] at hlater
      omega
    · have hsettled := h.settled
      rw [groupsOpened_cons, groupsClosed_cons] at hsettled
      omega
  · intro h
    refine ⟨fun before other after hgenome hother => ?_, ?_⟩
    -- The closer in question is the gene in front or a later one.
    · cases before with
      | nil =>
        obtain ⟨rfl, -⟩ := List.cons.inj hgenome
        exact hmatched hother
      | cons first before =>
        obtain ⟨rfl, hrest⟩ := List.cons.inj hgenome
        have hlater := h.matched before other after hrest hother
        rw [groupsOpened_cons, groupsClosed_cons]
        omega
    · have hsettled := h.settled
      rw [groupsOpened_cons, groupsClosed_cons]
      omega

/-- A closer in front needs a pending group and ends it: from `pending + 1` to `pending`. -/
theorem balancedBehind_closer_cons {pending : Nat} {gene : Gene} {rest : Genome}
    (hatom : gene.atom = .closer) :
    BalancedBehind (pending + 1) (gene :: rest) ↔ BalancedBehind pending rest := by
  refine balancedBehind_cons (fun _ => Nat.succ_pos pending) ?_
  rw [Gene.groupCount, Gene.isCloser, hatom]
  rfl

/-- Without a pending group there is no closer in front: `BalancedBehind 0` fails. -/
theorem not_balancedBehind_zero {gene : Gene} {rest : Genome} (hatom : gene.atom = .closer) :
    ¬ BalancedBehind 0 (gene :: rest) := by
  intro h
  have hcloser : gene.isCloser = true := by rw [Gene.isCloser, hatom]
  exact absurd (h.matched [] gene rest rfl hcloser) (Nat.lt_irrefl 0)

/-- An expression in front adds the groups that it opens, `e.groupCount`. -/
theorem balancedBehind_expr_cons {pending : Nat} {gene : Gene} {e : Expr} {rest : Genome}
    (hatom : gene.atom = .expr e) :
    BalancedBehind pending (gene :: rest) ↔
      BalancedBehind (pending + e.groupCount.toNat) rest := by
  have hcloser : gene.isCloser = false := by rw [Gene.isCloser, hatom]
  refine balancedBehind_cons (fun h => by rw [hcloser] at h; cases h) ?_
  rw [Gene.groupCount, hcloser, hatom]
  rfl

/-- Opening `k` groups makes their closers pending, behind those of `owed`. -/
theorem pendingCloses_openFirst (k : UInt8) (owed : List UInt8) :
    pendingCloses (openFirst k owed) = pendingCloses owed + k.toNat := by
  have hcons := pendingCloses_cons_eq k owed
  rw [pendingCloses_cons] at hcons
  omega

/-- Closing a group takes one of the pending closers: `pendingCloses` goes down by one. -/
theorem pendingCloses_of_close? {owed next : List UInt8} {reopened : Bool}
    (h : close? owed = some (reopened, next)) :
    pendingCloses owed = pendingCloses next + 1 := by
  cases owed with
  | nil => cases h
  | cons k outer =>
    rw [close?_cons] at h
    cases h
    exact pendingCloses_cons_eq k outer

/-- Nothing is pending where `close? owed = none`. -/
theorem pendingCloses_of_close?_eq_none {owed : List UInt8} (h : close? owed = none) :
    pendingCloses owed = 0 := by
  cases owed with
  | nil => rfl
  | cons k outer => cases h

/-- As many closers as groups are pending are balanced. -/
theorem balancedBehind_replicate (n : Nat) : BalancedBehind n (List.replicate n Gene.closer) := by
  induction n with
  | zero => exact balancedBehind_nil.mpr rfl
  | succ n ih => exact (balancedBehind_closer_cons rfl).mpr ih

/-- **Balancing balances**: `balance owed genome` is `BalancedBehind (pendingCloses owed)`. -/
theorem balancedBehind_balance (owed : List UInt8) (genome : Genome) :
    BalancedBehind (pendingCloses owed) (balance owed genome) := by
  fun_induction balance owed genome with
  | case1 owed => exact balancedBehind_replicate _
  | case2 owed gene rest hatom hclose ih => exact ih
  | case3 owed gene rest hatom reopened next hclose ih =>
    rw [pendingCloses_of_close? hclose]
    exact (balancedBehind_closer_cons hatom).mpr ih
  | case4 owed gene rest e hatom ih =>
    rw [pendingCloses_openFirst] at ih
    exact (balancedBehind_expr_cons hatom).mpr ih

/-- Balancing leaves a balanced genome as it is: `balance owed genome = genome`. -/
theorem balance_eq_self {owed : List UInt8} {genome : Genome}
    (h : BalancedBehind (pendingCloses owed) genome) : balance owed genome = genome := by
  fun_induction balance owed genome with
  | case1 owed => rw [balancedBehind_nil.mp h, List.replicate_zero]
  | case2 owed gene rest hatom hclose ih =>
    rw [pendingCloses_of_close?_eq_none hclose] at h
    exact absurd h (not_balancedBehind_zero hatom)
  | case3 owed gene rest hatom reopened next hclose ih =>
    rw [pendingCloses_of_close? hclose] at h
    rw [ih ((balancedBehind_closer_cons hatom).mp h)]
  | case4 owed gene rest e hatom ih =>
    rw [ih (by rw [pendingCloses_openFirst]; exact (balancedBehind_expr_cons hatom).mp h)]

/-- A normal form is balanced. -/
theorem balanced_normalize (genome : Genome) : genome.normalize.Balanced :=
  balancedBehind_balance [] genome.expand

/-- **Normal forms** are the genomes of plain genes whose closers are balanced: `normalize` leaves
these and no others as they are. -/
theorem normalize_eq_self_iff {genome : Genome} :
    genome.normalize = genome ↔ (∀ gene ∈ genome, gene.Plain) ∧ genome.Balanced := by
  constructor
  · intro h
    rw [← h]
    exact ⟨fun gene => plain_of_mem_normalize, balanced_normalize genome⟩
  · rintro ⟨hplain, hbalanced⟩
    rw [normalize, expand_eq_self hplain]
    exact balance_eq_self hbalanced

/-! ## The code of a normal form -/

/-- As many as `n` closers do to a draft what `Draft.closeTimes n` does. -/
theorem foldl_addGene_closers (n : Nat) (draft : Draft) :
    (List.replicate n Gene.closer).foldl addGene draft = draft.closeTimes n := by
  induction n generalizing draft with
  | zero => rfl
  | succ n ih => exact ih draft.close

/-- A gene without a block does to a draft what the genes of `expandGene gene` do. -/
theorem foldl_addGene_expandGene {gene : Gene} (haloud : gene.silent = false)
    (hleaf : ∀ body, gene.atom ≠ .expr (.block body)) (draft : Draft) :
    (expandGene gene).foldl addGene draft = draft.addGene gene := by
  obtain ⟨atom, silent, closes⟩ := gene
  cases haloud
  have hexpand : expandGene ⟨atom, false, closes⟩ =
      { atom := atom } :: List.replicate closes.toNat Gene.closer := by
    rw [expandGene]
    split
    next body hatom => exact absurd hatom (hleaf body)
    next => rfl
  rw [hexpand, List.foldl_cons, foldl_addGene_closers]
  rfl

/-- A genome without blocks does to a draft what the genes of `genome.expand` do. -/
theorem foldl_addGene_expand {genome : Genome}
    (hleaf : ∀ gene ∈ genome, gene.silent = false → ∀ body, gene.atom ≠ .expr (.block body))
    (draft : Draft) : genome.expand.foldl addGene draft = genome.foldl addGene draft := by
  induction genome generalizing draft with
  | nil => rfl
  | cons gene rest ih =>
    obtain ⟨hgene, hrest⟩ := List.forall_mem_cons.mp hleaf
    -- A silent gene adds nothing and is written out to nothing.
    cases hsilent : gene.silent with
    | true =>
      have hskip : draft.addGene gene = draft := by rw [Draft.addGene, if_pos hsilent]
      rw [expand, List.filter_cons_of_neg (by simp [hsilent]), List.foldl_cons, hskip]
      exact ih hrest draft
    | false =>
      rw [expand, List.filter_cons_of_pos (by simp [hsilent]), List.flatMap_cons,
        List.foldl_append, foldl_addGene_expandGene hsilent (hgene hsilent), List.foldl_cons]
      exact ih hrest (draft.addGene gene)

/-- Closing the groups that are open leaves `Draft.complete` as it is. -/
theorem complete_closeTimes {draft : Draft} (shaped : draft.Shaped) :
    (draft.closeTimes (pendingCloses draft.owed)).complete = draft.complete := by
  obtain ⟨program, hprogram⟩ := shaped.closeTimes_pendingCloses
  rw [complete, complete, hprogram]
  rfl

/-- A draft owes the groups of an expression that is added: `openFirst e.groupCount draft.owed`. -/
theorem owed_add (draft : Draft) (e : Expr) :
    (draft.add e).owed = openFirst e.groupCount draft.owed := by
  rw [add, openFirst]
  split <;> rfl

/-- **Balancing plain genes keeps the code** that a draft is completed to:
`balance draft.owed genome` and `genome` lead to the same `complete`. -/
theorem complete_foldl_balance {genome : Genome} (hplain : ∀ gene ∈ genome, gene.Plain)
    {draft : Draft} (shaped : draft.Shaped) :
    ((balance draft.owed genome).foldl addGene draft).complete =
      (genome.foldl addGene draft).complete := by
  induction genome generalizing draft with
  | nil =>
    rw [balance, foldl_addGene_closers]
    exact complete_closeTimes shaped
  | cons gene rest ih =>
    obtain ⟨hgene, hrest⟩ := List.forall_mem_cons.mp hplain
    obtain ⟨atom, rfl, -⟩ := hgene.exists_eq
    cases atom with
    | closer =>
      obtain ⟨frames, owed⟩ := draft
      cases owed with
      | nil =>
        -- Without an open group the closer is dropped, and the draft would stay as it is.
        exact ih hrest shaped
      | cons k owed =>
        have hbalance : balance (k :: owed) ({ atom := .closer } :: rest) =
            Gene.closer :: balance (Draft.close ⟨frames, k :: owed⟩).owed rest := by
          rw [close_cons]
          exact balance_cons_closer k owed rest
        rw [hbalance]
        exact ih hrest shaped.close
    | expr e =>
      have hbalance : balance draft.owed ({ atom := .expr e } :: rest) =
          { atom := .expr e } :: balance (draft.add e).owed rest := by
        rw [owed_add]
        rfl
      rw [hbalance]
      exact ih hrest (shaped.add e)

/-- A normal form has the code of the genome, `genome.toBlock`, if no gene that is not silent holds
a block. -/
theorem toBlock_normalize {genome : Genome}
    (hleaf : ∀ gene ∈ genome, gene.silent = false → ∀ body, gene.atom ≠ .expr (.block body)) :
    genome.normalize.toBlock = genome.toBlock := by
  have hshaped : Draft.empty.Shaped := rfl
  calc genome.normalize.toBlock
      = (genome.expand.foldl addGene Draft.empty).complete :=
        complete_foldl_balance (fun _ => plain_of_mem_expand) hshaped
    _ = genome.toBlock := by rw [foldl_addGene_expand hleaf, toBlock]

/-- **Normalizing brings every genome into normal form and keeps its code.** `normalize` once more
changes nothing; no gene is silent, closes groups behind its atom or holds a block; each closer ends
a group that was opened in front of it, and each group is ended; and `toBlockWithin`, with any limit
of points, is that of the genome, if no gene of the genome that is not silent holds a block. -/
theorem normalize_normal (genome : Genome) :
    genome.normalize.normalize = genome.normalize ∧
      (∀ gene ∈ genome.normalize, gene.Plain) ∧ genome.normalize.Balanced ∧
      ((∀ gene ∈ genome, gene.silent = false → ∀ body, gene.atom ≠ .expr (.block body)) →
        ∀ maxPoints,
          genome.normalize.toBlockWithin maxPoints = genome.toBlockWithin maxPoints) := by
  have hplain : ∀ gene ∈ genome.normalize, gene.Plain := fun _ => plain_of_mem_normalize
  have hbalanced := balanced_normalize genome
  refine ⟨normalize_eq_self_iff.mpr ⟨hplain, hbalanced⟩, hplain, hbalanced, ?_⟩
  intro hleaf maxPoints
  rw [toBlockWithin, toBlock_normalize hleaf, toBlockWithin]

/-- A closer too many, an instruction with two groups, far too many closes, a silent block and a
marker for three groups: five genes become eight, with the same code. The same block aloud is not
code as it was, because the groups that its instruction lacks are written out. -/
theorem normalize_normal_of_mixed :
    let hidden : Gene := ⟨.expr (.block [.instr "exec_if" 2]), true, 1⟩
    let genome : Genome := [Gene.closer, ⟨.expr (.instr "exec_if" 2), false, 0⟩,
      ⟨.expr (.literal (.int 5) .int), false, 200⟩, hidden,
      ⟨.expr (.instr openMarkerName 3), false, 1⟩]
    genome.normalize.normalize = genome.normalize ∧ genome.normalize.length = 8 ∧
      genome.toBlock.size = 8 ∧ genome.normalize.toBlockWithin 8 = genome.toBlockWithin 8 ∧
      toBlock (normalize [{ hidden with silent := false }]) ≠
        toBlock [{ hidden with silent := false }] := by
  intro hidden genome
  obtain ⟨hagain, -, -, hcode⟩ := normalize_normal genome
  refine ⟨hagain, rfl, by decide +kernel, hcode (fun gene hmem haloud body hatom => ?_) 8, ?_⟩
  · simp only [genome, List.mem_cons, List.not_mem_nil, or_false] at hmem
    -- The only gene with a block is the silent one.
    rcases hmem with rfl | rfl | rfl | rfl | rfl
    · cases hatom
    · cases hatom
    · cases hatom
    · cases haloud
    · cases hatom
  · intro hequal
    exact absurd (congrArg Block.size hequal) (by decide)

end Genome

end PushMachine
