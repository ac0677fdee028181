/-! # Random numbers

A generator of 64-bit words, and draws from it: numbers of a range, each equally likely, and sets of
distinct positions.

The generator and the sampler stand for ones that the machine is given from outside. No theorem
about simplification rests on their details: it may draw positions in any way that satisfies
`Simplifier.Draws`. Of the way here, that is all that is proved (`Generator.sampleUpTo_drawn`); its
constants, zones and thresholds matter to single runs only. -/

namespace PushMachine

/-- A generator that adds a constant to its state and mixes the bits of the sum. -/
structure Generator where
  /-- The state. -/
  state : UInt64

namespace Generator

/-- Draws a word. -/
def next (generator : Generator) : UInt64 × Generator :=
  let state := generator.state + 0x9e3779b97f4a7c15
  let a := (state ^^^ (state >>> 30)) * 0xbf58476d1ce4e5b9
  let b := (a ^^^ (a >>> 27)) * 0x94d049bb133111eb
  (b ^^^ (b >>> 31), ⟨state⟩)

/-- A width of words. -/
inductive Width where
  /-- Words of 32 bits. -/
  | bits32
  /-- Words of 64 bits. -/
  | bits64

/-- Number of bits of a width. -/
def Width.bits : Width → Nat
  | .bits32 => 32
  | .bits64 => 64

/-- Number of words of a width, `2 ^ width.bits`. -/
def Width.words (width : Width) : Nat := Nat.pow 2 width.bits

/-- Draws a word of a width by `next`: a short word is the upper half of a long one. -/
def nextOf (width : Width) (generator : Generator) : Nat × Generator :=
  let (word, generator) := generator.next
  (match width with
    | .bits32 => (word >>> 32).toNat
    | .bits64 => word.toNat, generator)

/-- The largest lower half of a product that a single draw of one of `count` numbers accepts: the
largest multiple of `count` by a power of two that fits the width, less one. -/
def zone (width : Width) (count : Nat) : Nat := count <<< (width.bits - 1 - count.log2) - 1

/-- The largest lower half that repeated draws accept: the largest multiple of `count` that fits the
width, less one. -/
def fullZone (width : Width) (count : Nat) : Nat := width.words - width.words % count - 1

/-- Draws a number below `count`: a word is multiplied by `count`, and the upper half of the product
is the number if its lower half lies in the zone. At most `attempts` words are drawn. -/
def below (width : Width) (count zone : Nat) : (attempts : Nat) → Generator → Nat × Generator
  | 0, generator => (0, generator)
  | attempts + 1, generator =>
    let (word, generator) := generator.nextOf width
    let product := word * count
    if product % width.words ≤ zone then (product / width.words, generator)
    else below width count zone attempts generator

/-- As many attempts as the generator has states, `2 ^ 64`. More cannot help. -/
def period : Nat := Width.bits64.words

/-- Draws a number from `low` to `high`. -/
def range (width : Width) (low high : Nat) (generator : Generator) : Nat × Generator :=
  let count := high - low + 1
  let (offset, generator) := generator.below width count (zone width count) period
  (low + offset, generator)

/-! ## Distinct positions

There are three ways to draw `count` distinct positions below `length`, in random order. Dealing
needs all positions at hand and suits a count that is not small against the length; choosing under
rising limits suits small counts, and scattering suits large ones. -/

/-- Exchanges the item of each of the given places with that of a place drawn from itself and those
behind it. -/
def exchange (width : Width) (items : Array Nat) :
    (places : List Nat) → Generator → Array Nat × Generator
  | [], generator => (items, generator)
  | place :: places, generator =>
    let (other, generator) := generator.range width place (items.size - 1)
    exchange width (items.swapIfInBounds place other) places generator

/-- Deals `count` of the positions below `length`. -/
def deal (length count : Nat) (generator : Generator) : List Nat × Generator :=
  let (items, generator) := generator.exchange .bits32 (Array.range length) (List.range count)
  (items.toList.take count, generator)

/-- Puts an item in front of another one. -/
def insertBefore (item mark : Nat) : List Nat → List Nat
  | [] => []
  | first :: rest =>
    if first = mark then item :: first :: rest else first :: insertBefore item mark rest

/-- Adds `position` to those drawn before, or `limit` in place of one that was drawn already: in
front of that one if the order is kept random, and at the end otherwise. -/
def addDrawn (ordered : Bool) (limit position : Nat) (drawn : List Nat) : List Nat :=
  if drawn.contains position then
    if ordered then insertBefore limit position drawn else drawn ++ [limit]
  else drawn ++ [position]

/-- Draws a position up to each of the given limits, which increase by one, by `addDrawn`. -/
def choose (width : Width) (ordered : Bool) :
    (limits : List Nat) → (drawn : List Nat) → Generator → List Nat × Generator
  | [], drawn, generator => (drawn, generator)
  | limit :: limits, drawn, generator =>
    let (position, generator) := generator.range width 0 limit
    choose width ordered limits (addDrawn ordered limit position drawn) generator

/-- Shuffles the items up to the place `last`: each place, from the last one on, exchanges its item
with that of a place drawn from itself and those in front of it. -/
def shuffle (width : Width) (items : Array Nat) :
    (last : Nat) → Generator → Array Nat × Generator
  | 0, generator => (items, generator)
  | last + 1, generator =>
    let (other, generator) := generator.range width 0 (last + 1)
    shuffle width (items.swapIfInBounds (last + 1) other) last generator

/-- Chooses `count` of the positions below `length`. Fewer than fifty are kept in random order while
they are drawn, and more are shuffled at the end. -/
def chooseBelow (length count : Nat) (generator : Generator) : List Nat × Generator :=
  let limits := (List.range count).map (length - count + ·)
  if count < 50 then generator.choose .bits32 true limits []
  else
    let (drawn, generator) := generator.choose .bits32 false limits []
    let (items, generator) := generator.shuffle .bits32 drawn.toArray (count - 1)
    (items.toList, generator)

/-- Draws a position below `length` that was not drawn before. -/
def fresh (length : Nat) (drawn : List Nat) : (attempts : Nat) → Generator → Nat × Generator
  | 0, generator => (0, generator)
  | attempts + 1, generator =>
    let (position, generator) := generator.below .bits32 length (fullZone .bits32 length) period
    if drawn.contains position then fresh length drawn attempts generator
    else (position, generator)

/-- Scatters `count` further positions below `length`. -/
def scatter (length : Nat) :
    (count : Nat) → (drawn : List Nat) → Generator → List Nat × Generator
  | 0, drawn, generator => (drawn, generator)
  | count + 1, drawn, generator =>
    let (position, generator) := generator.fresh length drawn period
    scatter length count (drawn ++ [position]) generator

/-- The least count that is scattered instead of chosen, where it is not dealt. -/
def scatterFrom : Nat := 163

/-- Whether `count` positions below `length` are dealt. Fewer than twelve never are. Below
`scatterFrom` the length at which dealing ends is `count * (10 + 8 / 5 * count)`. From there on it
is `270 * count`, or `110 / 3 * count` once the length has reached half a million. -/
def deals (length count : Nat) : Bool :=
  if count < scatterFrom then 11 < count && 5 * length < (50 + 8 * count) * count
  else if length < 500000 then length < 270 * count
  else 3 * length < 110 * count

/-- **Draws distinct positions**: `count` of those below `length`. -/
def sample (length count : Nat) (generator : Generator) : List Nat × Generator :=
  if deals length count then generator.deal length count
  else if count < scatterFrom then generator.chooseBelow length count
  else generator.scatter length count []

/-- Draws between one and `most` distinct positions below `length`. -/
def sampleUpTo (length most : Nat) (generator : Generator) : List Nat × Generator :=
  let count := generator.range .bits64 1 most
  count.2.sample length count.1

end Generator

end PushMachine
