import Mathlib.Data.List.Nodup
import PushMachine.Random

/-! # Drawn positions

A draw of positions is sound if they are distinct, lie below the length, and are between one and the
most that were asked for. A number drawn from a range lies in it, whatever the generator's state.
Dealing permutes all positions and keeps the first ones. Choosing adds, under each limit, one
position that was not drawn before. Hence a sample that is not scattered is a sound draw. -/

namespace PushMachine

/-- Between one and `most` distinct positions below `length`. -/
structure Drawn (length most : Nat) (positions : List Nat) : Prop where
  /-- No position is drawn twice. -/
  nodup : positions.Nodup
  /-- The positions lie below `length`. -/
  lt : ∀ position ∈ positions, position < length
  /-- A position is drawn. -/
  pos : 0 < positions.length
  /-- No more positions are drawn than `most`. -/
  le : positions.length ≤ most

/-- The order of the positions does not matter. -/
theorem Drawn.perm {length most : Nat} {positions others : List Nat}
    (drawn : Drawn length most positions) (hperm : others.Perm positions) :
    Drawn length most others := by
  refine ⟨hperm.nodup_iff.mpr drawn.nodup, fun position hposition => ?_, ?_, ?_⟩
  · exact drawn.lt position (hperm.mem_iff.mp hposition)
  · rw [hperm.length_eq]
    exact drawn.pos
  · rw [hperm.length_eq]
    exact drawn.le

namespace Generator

/-! ## Numbers of a range -/

theorem nextOf_lt (width : Width) (generator : Generator) :
    (generator.nextOf width).1 < width.words := by
  cases width with
  | bits32 =>
    have hword : generator.next.1.toNat < 2 ^ 64 := generator.next.1.toNat_lt
    change (generator.next.1 >>> 32).toNat < 2 ^ 32
    rw [UInt64.toNat_shiftRight, Nat.shiftRight_eq_div_pow]
    exact Nat.div_lt_of_lt_mul (by simpa using hword)
  | bits64 => exact generator.next.1.toNat_lt

/-- A draw of a number `below` a count lies below it, also where the attempts run out. -/
theorem below_lt (width : Width) {count : Nat} (hcount : 0 < count) (zone attempts : Nat)
    (generator : Generator) : (generator.below width count zone attempts).1 < count := by
  induction attempts generalizing generator with
  | zero => exact hcount
  | succ attempts ih =>
    rw [below]
    simp only
    split
    · -- A word lies below the number of words, so its share of the count lies below the count.
      have hword := generator.nextOf_lt width
      exact Nat.div_lt_of_lt_mul (Nat.mul_lt_mul_of_pos_right hword hcount)
    · exact ih _

theorem range_mem (width : Width) {low high : Nat} (hle : low ≤ high) (generator : Generator) :
    low ≤ (generator.range width low high).1 ∧ (generator.range width low high).1 ≤ high := by
  have hcount : 0 < high - low + 1 := Nat.succ_pos _
  have hoffset := generator.below_lt width hcount (zone width (high - low + 1)) period
  rw [range]
  simp only
  omega

/-! ## Dealing and shuffling

Every exchange permutes the items, whichever places are drawn. -/

theorem swapIfInBounds_perm (items : Array Nat) (i j : Nat) :
    (items.swapIfInBounds i j).toList.Perm items.toList := by
  rw [Array.swapIfInBounds_def]
  split
  · split
    · exact (Array.swap_perm _ _).toList
    · exact .refl _
  · exact .refl _

theorem exchange_perm (width : Width) (places : List Nat) (items : Array Nat)
    (generator : Generator) :
    (generator.exchange width items places).1.toList.Perm items.toList := by
  induction places generalizing items generator with
  | nil => exact .refl _
  | cons place places ih =>
    rw [exchange]
    exact (ih _ _).trans (swapIfInBounds_perm items _ _)

theorem shuffle_perm (width : Width) (last : Nat) (items : Array Nat) (generator : Generator) :
    (generator.shuffle width items last).1.toList.Perm items.toList := by
  induction last generalizing items generator with
  | zero => exact .refl _
  | succ last ih =>
    rw [shuffle]
    exact (ih _ _).trans (swapIfInBounds_perm items _ _)

theorem deal_drawn {length count : Nat} (hpos : 0 < count) (hle : count ≤ length)
    (generator : Generator) : Drawn length count (generator.deal length count).1 := by
  have hperm := generator.exchange_perm .bits32 (List.range count) (Array.range length)
  rw [Array.toList_range] at hperm
  have hlength := hperm.length_eq
  rw [List.length_range] at hlength
  have htake : (generator.deal length count).1.length = count := by
    rw [deal, List.length_take]
    omega
  refine ⟨?_, ?_, by omega, by omega⟩
  · exact (hperm.nodup_iff.mpr List.nodup_range).sublist (List.take_sublist _ _)
  · intro position hposition
    exact List.mem_range.mp (hperm.mem_iff.mp (List.mem_of_mem_take hposition))

/-! ## Choosing -/

theorem insertBefore_perm (item : Nat) {mark : Nat} {drawn : List Nat} (hmark : mark ∈ drawn) :
    (insertBefore item mark drawn).Perm (item :: drawn) := by
  induction drawn with
  | nil => cases hmark
  | cons first rest ih =>
    rw [insertBefore]
    split
    · exact .refl _
    · next hne =>
      have hrest : mark ∈ rest := (List.mem_cons.mp hmark).resolve_left (Ne.symm hne)
      exact ((ih hrest).cons first).trans (.swap item first rest)

/-- A `limit` above all positions drawn so far adds one position up to the limit. -/
theorem exists_addDrawn_perm (ordered : Bool) {limit position : Nat} {drawn : List Nat}
    (hposition : position ≤ limit) (hdrawn : ∀ earlier ∈ drawn, earlier < limit) :
    ∃ added ≤ limit, added ∉ drawn ∧
      (addDrawn ordered limit position drawn).Perm (added :: drawn) := by
  by_cases hmem : position ∈ drawn
  · -- The limit itself was not drawn before, and takes the place of the repeated position.
    refine ⟨limit, Nat.le_refl limit, fun hlimit => Nat.lt_irrefl _ (hdrawn limit hlimit), ?_⟩
    cases ordered with
    | false => simp [addDrawn, hmem]
    | true => simpa [addDrawn, hmem] using insertBefore_perm limit hmem
  · exact ⟨position, hposition, hmem, by simp [addDrawn, hmem]⟩

/-- Limits that increase by one from above the positions drawn so far add one position each. -/
theorem choose_spec (width : Width) (ordered : Bool) (start count : Nat) {drawn : List Nat}
    (hnodup : drawn.Nodup) (hlt : ∀ position ∈ drawn, position < start) (generator : Generator) :
    (generator.choose width ordered (List.range' start count) drawn).1.Nodup ∧
      (∀ position ∈ (generator.choose width ordered (List.range' start count) drawn).1,
        position < start + count) ∧
      (generator.choose width ordered (List.range' start count) drawn).1.length =
        drawn.length + count := by
  induction count generalizing start drawn generator with
  | zero => exact ⟨hnodup, hlt, rfl⟩
  | succ count ih =>
    have hdraw := (generator.range_mem width (Nat.zero_le start)).2
    obtain ⟨added, hadded, hfresh, hperm⟩ := exists_addDrawn_perm ordered hdraw hlt
    have hnodup' := hperm.nodup_iff.mpr (List.nodup_cons.mpr ⟨hfresh, hnodup⟩)
    have hlt' : ∀ position ∈ addDrawn ordered start (generator.range width 0 start).1 drawn,
        position < start + 1 := by
      intro position hposition
      rcases List.mem_cons.mp (hperm.mem_iff.mp hposition) with rfl | hearlier
      · omega
      · have := hlt position hearlier
        omega
    obtain ⟨hres, hbound, hlength⟩ := ih (start + 1) hnodup' hlt' (generator.range width 0 start).2
    rw [hperm.length_eq, List.length_cons] at hlength
    rw [List.range'_succ, choose]
    refine ⟨hres, fun position hposition => ?_, ?_⟩
    · have := hbound position hposition
      omega
    · exact hlength.trans (by omega)

/-- The positions chosen below `length`, in the order in which they were added, are `Drawn`. -/
theorem choose_drawn {length count : Nat} (hpos : 0 < count) (hle : count ≤ length)
    (ordered : Bool) (generator : Generator) : Drawn length count
      (generator.choose .bits32 ordered ((List.range count).map (length - count + ·)) []).1 := by
  have hspec := choose_spec .bits32 ordered (length - count) count List.nodup_nil (by simp)
    generator
  rw [List.range'_eq_map_range] at hspec
  obtain ⟨hnodup, hlt, hlength⟩ := hspec
  rw [List.length_nil] at hlength
  refine ⟨hnodup, fun position hposition => ?_, by omega, by omega⟩
  have := hlt position hposition
  omega

theorem chooseBelow_drawn {length count : Nat} (hpos : 0 < count) (hle : count ≤ length)
    (generator : Generator) : Drawn length count (generator.chooseBelow length count).1 := by
  rw [chooseBelow]
  split
  · exact choose_drawn hpos hle true generator
  · exact (choose_drawn hpos hle false generator).perm (shuffle_perm .bits32 _ _ _)

/-! ## Samples -/

/-- A sample that is not scattered, with `count < scatterFrom`, is `Drawn`. -/
theorem sample_drawn {length count : Nat} (hpos : 0 < count) (hle : count ≤ length)
    (hfew : count < scatterFrom) (generator : Generator) :
    Drawn length count (generator.sample length count).1 := by
  rw [sample, if_pos hfew]
  split
  · exact generator.deal_drawn hpos hle
  · exact generator.chooseBelow_drawn hpos hle

/-- **Samples up to a number are sound draws**, as long as `most < scatterFrom`. -/
theorem sampleUpTo_drawn {length most : Nat} (hpos : 0 < most) (hle : most ≤ length)
    (hfew : most < scatterFrom) (generator : Generator) :
    Drawn length most (generator.sampleUpTo length most).1 := by
  have hone : 1 ≤ most := hpos
  obtain ⟨hlow, hhigh⟩ := generator.range_mem .bits64 hone
  have hdrawn := sample_drawn hlow (Nat.le_trans hhigh hle) (Nat.lt_of_le_of_lt hhigh hfew)
    (generator.range .bits64 1 most).2
  exact { hdrawn with le := Nat.le_trans hdrawn.le hhigh }

end Generator

end PushMachine
