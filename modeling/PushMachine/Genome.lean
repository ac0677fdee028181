import PushMachine.Code

/-! # Genomes

A genome is a flat list of genes that stands for nested code. An instruction that opens `k` groups
is followed by them one after another: each closer ends the current group and begins the next one
the instruction still owes. Groups that the end of the genome leaves open are closed there. An open
marker begins a group without adding anything to the code.

`Genome.toBlock` makes code of a genome, `Block.flatten` makes a genome of code, and
`Genome.normalize` brings a genome into the form that `Block.flatten` writes. -/

namespace PushMachine

/-- **A gene** of a genome. -/
structure Gene where
  /-- The atom that it adds to the code. -/
  atom : Atom
  /-- A silent gene is skipped, with its `closes`. -/
  silent : Bool := false
  /-- Number of groups closed right behind the atom. -/
  closes : UInt8 := 0

/-- A list of genes. -/
abbrev Genome := List Gene

namespace Gene

/-- Equality of genes. -/
def beq (a b : Gene) : Bool := a.atom == b.atom && a.silent == b.silent && a.closes == b.closes

instance : BEq Gene := ⟨beq⟩

/-- The gene that only closes a group, by the atom `Atom.closer`. -/
def closer : Gene := ⟨.closer, false, 0⟩

end Gene

/-- The name of the open marker. -/
def openMarkerName : String := "noop_open_paren"

namespace Expr

/-- Number of groups that an expression opens in a genome; only `.instr` opens any. -/
def groupCount : Expr → UInt8
  | .instr _ groups => groups
  | _ => 0

/-- Whether an expression is an instruction of the name `openMarkerName` that opens groups. -/
def isOpenMarker : Expr → Bool
  | .instr name groups => name == openMarkerName && 0 < groups
  | _ => false

end Expr

/-- The gene of the open marker. -/
def Gene.openMarker : Gene := ⟨.expr (.instr openMarkerName 1), false, 0⟩

/-! ## Open groups -/

namespace Owed

/-- Opens the first of `k` groups; with none, nothing is opened. Each entry of the list is the
number of groups that are still owed when the current one ends. -/
def openFirst (k : UInt8) (owed : List UInt8) : List UInt8 :=
  if k = 0 then owed else (k - 1) :: owed

/-- Closes the innermost group: whether the next one begins in its place, and the groups open then.
It is `none` if no group is open. -/
def close? : List UInt8 → Option (Bool × List UInt8)
  | [] => none
  | rest :: outer => some (if 0 < rest then (true, (rest - 1) :: outer) else (false, outer))

/-- Number of closers that end all open groups and those still owed. -/
def pendingCloses : List UInt8 → Nat
  | [] => 0
  | rest :: outer => rest.toNat + 1 + pendingCloses outer

@[simp] theorem pendingCloses_nil : pendingCloses [] = 0 := rfl

@[simp] theorem pendingCloses_cons (rest : UInt8) (outer : List UInt8) :
    pendingCloses (rest :: outer) = rest.toNat + 1 + pendingCloses outer := rfl

end Owed

/-! ## From genomes to code -/

/-- Code under construction: the parts of each open block, innermost first and the whole program
last, and the groups that are `owed`. -/
structure Draft where
  /-- The parts of the open blocks. -/
  frames : List Block
  /-- The open groups, as in `Owed.openFirst`. -/
  owed : List UInt8

namespace Draft

/-- Nothing built yet. -/
def empty : Draft := ⟨[[]], []⟩

/-- Adds an expression at the end of the innermost block. -/
def addPart (e : Expr) : List Block → List Block
  | [] => [[e]]
  | frame :: outer => (frame ++ [e]) :: outer

/-- Adds an expression by `addPart` and opens its first group. An open marker only opens. -/
def add (draft : Draft) (e : Expr) : Draft :=
  let frames := if e.isOpenMarker then draft.frames else addPart e draft.frames
  if e.groupCount = 0 then ⟨frames, draft.owed⟩
  else ⟨[] :: frames, Owed.openFirst e.groupCount draft.owed⟩

/-- Makes a `.block` of the innermost frame and adds it to the one around it. -/
def closeFrame : List Block → List Block
  | [] => []
  | frame :: outer => addPart (.block frame) outer

/-- Closes the innermost group; without an open group nothing happens. -/
def close (draft : Draft) : Draft :=
  match Owed.close? draft.owed with
  | none => draft
  | some (reopened, owed) =>
    let frames := closeFrame draft.frames
    ⟨if reopened then [] :: frames else frames, owed⟩

/-- Closes `n` groups. -/
def closeTimes : Nat → Draft → Draft
  | 0, draft => draft
  | n + 1, draft => closeTimes n draft.close

/-- Adds the atom of a gene, and closes as many groups as its `closes` say. -/
def addGene (draft : Draft) (gene : Gene) : Draft :=
  if gene.silent then draft
  else
    let added := match gene.atom with
      | .closer => draft.close
      | .expr e => draft.add e
    added.closeTimes gene.closes.toNat

/-- Closes all groups (`Owed.pendingCloses`) and takes the program. -/
def complete (draft : Draft) : Block :=
  ((draft.closeTimes (Owed.pendingCloses draft.owed)).frames.getLast?).getD []

end Draft

/-- The code of a genome, of any size: its genes added to `Draft.empty`. -/
def Genome.toBlock (genome : Genome) : Block := (genome.foldl Draft.addGene .empty).complete

/-- **The code of a genome** as programs are run: code of more than `maxPoints` points is replaced
by the empty program. -/
def Genome.toBlockWithin (genome : Genome) (maxPoints : Nat) : Block :=
  let code := genome.toBlock
  if maxPoints < code.size then [] else code

/-! ## From code to genomes -/

mutual

/-- The genes of the parts of a block; other expressions have no parts. -/
def Expr.flattenParts : Expr → Genome
  | .block body => Block.flattenFrom 0 body
  | _ => []

/-- The genes of some parts, the first `owed` of which, as far as they are blocks, are the groups of
the instruction in front of them. -/
def Block.flattenFrom : (owed : Nat) → List Expr → Genome
  | owed, [] => List.replicate owed Gene.closer
  | owed, e :: rest =>
    match e with
    | .block _ =>
      match owed with
      | 0 =>
        Gene.openMarker :: (Expr.flattenParts e ++ Gene.closer :: Block.flattenFrom 0 rest)
      | owed + 1 => Expr.flattenParts e ++ Gene.closer :: Block.flattenFrom owed rest
    | e =>
      List.replicate owed Gene.closer ++
        { atom := .expr e } :: Block.flattenFrom e.groupCount.toNat rest

end

/-- **Flattens code** into a genome by `flattenFrom`. Blocks behind an instruction that opens groups
become its groups, any other block gets an open marker, and every group ends with a closer. -/
def Block.flatten (body : Block) : Genome := Block.flattenFrom 0 body

/-! ## Normal form -/

namespace Genome

/-- A gene written out: a `.block` as a group, and its `closes` as closers of their own. -/
def expandGene (gene : Gene) : Genome :=
  let atoms : Genome := match gene.atom with
    | .expr (.block body) => Gene.openMarker :: (Block.flatten body ++ [Gene.closer])
    | atom => [{ atom := atom }]
  atoms ++ List.replicate gene.closes.toNat Gene.closer

/-- The genes that are not silent, written out by `expandGene`. -/
def expand (genome : Genome) : Genome := (genome.filter fun gene => !gene.silent).flatMap expandGene

/-- Drops closers without an open group in `owed`, and adds those that are missing at the end. -/
def balance : (owed : List UInt8) → Genome → Genome
  | owed, [] => List.replicate (Owed.pendingCloses owed) Gene.closer
  | owed, gene :: rest =>
    match gene.atom with
    | .closer =>
      match Owed.close? owed with
      | none => balance owed rest
      | some (_, owed) => gene :: balance owed rest
    | .expr e => gene :: balance (Owed.openFirst e.groupCount owed) rest

/-- **Normalizes a genome** by `expand` and `balance`: no silent genes, no closes on genes, no
blocks, and one closer for every group. -/
def normalize (genome : Genome) : Genome := balance [] genome.expand

/-- The genes whose positions are not among `positions`. -/
def erasePositions (genome : Genome) (positions : List Nat) : Genome :=
  (genome.zipIdx.filter fun (_, position) => !positions.contains position).map Prod.fst

end Genome

end PushMachine
