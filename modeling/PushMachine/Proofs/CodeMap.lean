import PushMachine.Proofs.PendingWork

/-! # Mapping over code

Mapping a body over a block builds a program: each item is quoted and the body runs on it, then the
last result is wrapped in a block, and the other results are put in front of it one after another.
The program works on the code stack only. Running the first part leaves the results there, the last
on top (`leads_transform`), and the second part gathers them in their order (`leads_gather`).

A closer is no item. Mapping over a closer alone gives the empty block, whatever the body would make
of it. -/

namespace PushMachine

open Instruction Script

variable {library : Library} {limits : Limits} {realm : State → Prop} {body : Expr}
  {f : Atom → Expr} {caps : SizeCaps} {atom : Atom} {pending codes old : List Value} {rest : State}

/-! ## What the instructions do -/

namespace Instruction

/-- Taking code, with `popAtom .code`, where `rest` had its code stack replaced. -/
theorem does_popCode (found : rest.stack? .code = some old) (atom : Atom) (codes : List Value) :
    (popAtom .code).Does ⟨pending, rest.setStack .code (.code atom :: codes)⟩ atom
      ⟨pending, rest.setStack .code codes⟩ 0 :=
  (does_popAtom (Config.stack?_replaced found (by decide))).to
    (Config.setStack_replaced (by decide) codes)

/-- Pushing a block of at most `caps.maxPoints` points. -/
theorem does_pushBlock (found : rest.stack? .code = some old) {built : Block}
    (fits : built.size ≤ caps.maxPoints) (codes : List Value) :
    (pushBlockWithin caps built).Does ⟨pending, rest.setStack .code codes⟩ ()
      ⟨pending, rest.setStack .code (.code (.expr (.block built)) :: codes)⟩ 1 := by
  have hsize : (Atom.expr (.block built)).size ≤ caps.maxPoints := fits
  exact (does_pushCodeWithin hsize (Config.stack?_replaced found (by decide))).to
    (Config.setStack_replaced (by decide) _)

/-- Wrapping an atom in a block, `Block.ofAtoms [atom]`. -/
theorem does_wrapAtom (found : rest.stack? .code = some old) (atom : Atom)
    (fits : Block.size (Block.ofAtoms [atom]) ≤ caps.maxPoints) (codes : List Value) :
    (wrapAtom caps).Does ⟨pending, rest.setStack .code (.code atom :: codes)⟩ ()
      ⟨pending, rest.setStack .code (.code (.expr (.block (Block.ofAtoms [atom]))) :: codes)⟩ 1 :=
  .bind (m := 1) (does_popCode found _ _) (does_pushBlock found fits codes)

/-- An atom whose block has more than `caps.maxPoints` points is not wrapped. -/
theorem givesUp_wrapAtom (found : rest.stack? .code = some old) (atom : Atom)
    (large : caps.maxPoints < Block.size (Block.ofAtoms [atom])) (codes : List Value) :
    (wrapAtom caps).GivesUp ⟨pending, rest.setStack .code (.code atom :: codes)⟩ := by
  have hsize : caps.maxPoints < (Atom.expr (.block (Block.ofAtoms [atom]))).size := large
  exact (does_popCode found _ _).bind_givesUp (givesUp_pushCodeWithin hsize)

/-- Putting an expression in front of a block: `e :: gathered`. -/
theorem does_consBlock (found : rest.stack? .code = some old) {e : Expr} {gathered : Block}
    (fits : Block.size (e :: gathered) ≤ caps.maxPoints) (codes : List Value) :
    (consBlock caps).Does
      ⟨pending, rest.setStack .code
        (.code (.expr (.block gathered)) :: .code (.expr e) :: codes)⟩ ()
      ⟨pending, rest.setStack .code (.code (.expr (.block (e :: gathered))) :: codes)⟩ 1 :=
  .bind (m := 1) (does_popCode found _ _) (.bind (m := 1) (does_popCode found _ _)
    (does_pushBlock found fits codes))

/-- The expressions among atoms that are all expressions: `Block.ofAtoms` undoes `map .expr`. -/
theorem ofAtoms_map (body : Block) : Block.ofAtoms (body.map .expr) = body := by
  rw [Block.ofAtoms, List.filterMap_map]
  exact List.filterMap_some

/-- The program that runs a body on every item and gathers the results. -/
def mapProgram (items : Block) (body : Expr) : Block :=
  (items.flatMap fun item => [.deferred "code_from_exec", item, body]) ++
    .deferred "code_wrap" :: List.replicate (items.length - 1) (.deferred "code_cons")

theorem mapPlan_eq (items : Block) (body : Expr) :
    mapPlan items (.expr body) = .expr (.block (mapProgram items body)) := by
  rw [← ofAtoms_map (mapProgram items body), mapPlan, mapProgram]
  simp [Atom.block, List.map_flatMap]

/-- Mapping over a block without items, `top.toBlock = []`, drops the body. -/
theorem does_mapBlock_nil (found : rest.stack? .code = some old) {top : Atom}
    (empty : top.toBlock = []) (codes : List Value) :
    (mapBlock caps).Does
      ⟨.code (.expr body) :: pending, rest.setStack .code (.code top :: codes)⟩ ()
      ⟨pending, rest.setStack .code (.code (.expr (.block [])) :: codes)⟩ 1 := by
  refine .bind (m := 1) (does_popCode found _ _) (.bind (m := 1) (does_popAtom rfl) ?_)
  rw [empty]
  exact (does_push (Config.stack?_replaced found (by decide)) _).to
    (Config.setStack_replaced (by decide) _)

/-- Mapping over any other block has `mapProgram` run. -/
theorem does_mapBlock (found : rest.stack? .code = some old) {top : Atom}
    (items : top.toBlock ≠ []) (fits : (mapPlan top.toBlock (.expr body)).size ≤ caps.maxPoints)
    (codes : List Value) :
    (mapBlock caps).Does
      ⟨.code (.expr body) :: pending, rest.setStack .code (.code top :: codes)⟩ ()
      ⟨.code (.expr (.block (mapProgram top.toBlock body))) :: pending,
        rest.setStack .code codes⟩ 1 := by
  refine .bind (m := 1) (does_popCode found _ _) (.bind (m := 1) (does_popAtom rfl) ?_)
  rw [if_neg (by simpa using items), ← mapPlan_eq]
  exact does_pushCodeWithin fits rfl

end Instruction

/-! ## Running the program -/

namespace Library

/-- **A body that maps the top of the code stack**: from every state of the realm with an atom on
top, the body replaces it by `f` of it and leaves all else as it was. -/
def MapsTop (library : Library) (limits : Limits) (realm : State → Prop) (body : Expr)
    (f : Atom → Expr) : Prop :=
  ∀ pending rest top codes, rest.stack? .code = some (.code top :: codes) →
    library.Leads limits realm ⟨.code (.expr body) :: pending, rest⟩
      ⟨pending, rest.setStack .code (.code (.expr (f top)) :: codes)⟩

/-- The instructions that mapping rests on. -/
def mapNames : List String := ["code_map", "code_from_exec", "code_wrap", "code_cons"]

/-- The instruction that wraps, `"code_wrap"`. -/
theorem get?_wrap (offers : library.Offers [.code] mapNames) :
    library.instructions.get? "code_wrap" =
      some { name := "code_wrap", inputs := [.code], outputs := [.code], body := wrapAtom } :=
  (offers.instruction _ (by simp [mapNames])).trans (InstructionSet.get?_core rfl rfl)

section Program

variable (offers : library.Offers [.code] mapNames) (reigns : library.Realm limits realm)
  (cap : 1 ≤ limits.growthCap) (found : rest.stack? .code = some old)
include offers reigns cap found

/-- Wrapping the top atom, such as the last result: `Block.ofAtoms [atom]`. -/
theorem leads_wrap (atom : Atom) (fits : Block.size (Block.ofAtoms [atom]) ≤ limits.maxPoints)
    (codes : List Value) :
    library.Leads limits realm
      ⟨.code (.expr (.deferred "code_wrap")) :: pending, rest.setStack .code (.code atom :: codes)⟩
      ⟨pending, rest.setStack .code (.code (.expr (.block (Block.ofAtoms [atom]))) :: codes)⟩ := by
  refine leads_call reigns rfl (get?_wrap offers) ?_ (does_wrapAtom found atom fits codes) cap
  refine Config.readies_of_nodup (by decide) fun id hid => ?_
  obtain rfl := List.mem_singleton.mp hid
  exact ⟨_, _, Config.stack?_replaced found (by decide)⟩

/-- Putting one more result in front. -/
theorem leads_cons {e : Expr} {gathered : Block}
    (fits : Block.size (e :: gathered) ≤ limits.maxPoints) (codes : List Value) :
    library.Leads limits realm
      ⟨.code (.expr (.deferred "code_cons")) :: pending,
        rest.setStack .code (.code (.expr (.block gathered)) :: .code (.expr e) :: codes)⟩
      ⟨pending, rest.setStack .code (.code (.expr (.block (e :: gathered))) :: codes)⟩ := by
  have hcons : library.instructions.get? "code_cons" =
      some { name := "code_cons", inputs := [.code, .code], outputs := [.code]
             body := consBlock } :=
    (offers.instruction _ (by simp [mapNames])).trans (InstructionSet.get?_core rfl rfl)
  refine leads_call reigns rfl hcons ?_ (does_consBlock found fits codes) cap
  intro id hid
  obtain rfl : id = .code := by simpa using hid
  exact ⟨_, Config.stack?_replaced found (by decide), by simp⟩

/-- Putting the results in front of a block, the nearest first: `results.reverse ++ gathered`. -/
theorem leads_conses (results gathered : Block) (codes : List Value)
    (fits : Block.size (results.reverse ++ gathered) ≤ limits.maxPoints) :
    library.Leads limits realm
      ⟨List.replicate results.length (.code (.expr (.deferred "code_cons"))) ++ pending,
        rest.setStack .code (.code (.expr (.block gathered)) ::
          ((results.map fun e => .code (.expr e)) ++ codes))⟩
      ⟨pending, rest.setStack .code
        (.code (.expr (.block (results.reverse ++ gathered))) :: codes)⟩ := by
  induction results generalizing gathered with
  | nil => exact .refl _
  | cons e others ih =>
    rw [List.reverse_cons, List.append_assoc, List.singleton_append] at fits ⊢
    -- The block so far is a part of the whole, so it is not too large.
    have hpart : Block.size (e :: gathered) ≤ limits.maxPoints := by
      have hsublist := Block.partsSize_le_of_sublist
        (List.sublist_append_right others.reverse (e :: gathered))
      rw [Block.size] at fits ⊢
      omega
    exact (leads_cons offers reigns cap found hpart _).trans reigns (ih (e :: gathered) fits)

/-- **The second part** of the program gathers the results that lie on the code stack. -/
theorem leads_gather (last : Expr) (before : Block) (codes : List Value)
    (fits : Block.size (before.reverse ++ [last]) ≤ limits.maxPoints) :
    library.Leads limits realm
      ⟨.code (.expr (.deferred "code_wrap")) ::
          (List.replicate before.length (.code (.expr (.deferred "code_cons"))) ++ pending),
        rest.setStack .code (.code (.expr last) ::
          ((before.map fun e => .code (.expr e)) ++ codes))⟩
      ⟨pending, rest.setStack .code
        (.code (.expr (.block (before.reverse ++ [last]))) :: codes)⟩ := by
  have hlast : Block.size [last] ≤ limits.maxPoints := by
    have hsublist := Block.partsSize_le_of_sublist (List.sublist_append_right before.reverse [last])
    rw [Block.size] at fits ⊢
    omega
  exact (leads_wrap offers reigns cap found (.expr last) hlast _).trans reigns
    (leads_conses offers reigns cap found before [last] codes fits)

/-- **The first part** of the program leaves the results on the code stack, the last on top. -/
theorem leads_transform (maps : library.MapsTop limits realm body f) (items : Block)
    (fits : ∀ e ∈ items, e.size ≤ limits.maxPoints) (codes : List Value) :
    library.Leads limits realm
      ⟨((items.flatMap fun e => [.deferred "code_from_exec", e, body]).map fun e =>
        .code (.expr e)) ++ pending, rest.setStack .code codes⟩
      ⟨pending, rest.setStack .code
        ((items.map fun e => .code (.expr (f (.expr e)))).reverse ++ codes)⟩ := by
  -- Each item is quoted and mapped, and its result stays below those of the items behind it.
  induction items generalizing codes with
  | nil => exact .refl _
  | cons e others ih =>
    obtain ⟨hfits, hothers⟩ := List.forall_mem_cons.mp fits
    have hquoted : (rest.setStack .code codes).modifyStack .code (.code (.expr e) :: ·) =
        rest.setStack .code (.code (.expr e) :: codes) := State.modifyStack_setStack found _ _
    have htop : (rest.setStack .code (.code (.expr e) :: codes)).stack? .code =
        some (.code (.expr e) :: codes) := State.stack?_setStack_self found _
    have hcalled : (Atom.expr (.deferred "code_from_exec")).called? = some "code_from_exec" := rfl
    have hquote := offers.leads_quote List.mem_cons_self (by simp [mapNames]) reigns cap hcalled
      (show (Atom.expr e).size ≤ limits.maxPoints from hfits)
    have hbody := maps (((others.flatMap fun e => [.deferred "code_from_exec", e, body]).map
      fun e => .code (.expr e)) ++ pending) _ _ codes htop
    rw [State.setStack_setStack] at hbody
    refine (hquote _ _).trans reigns ?_
    rw [hquoted, List.map_cons, List.reverse_cons, List.append_assoc, List.singleton_append]
    exact hbody.trans reigns (ih hothers _)

/-- **The program**, `mapProgram`, gathers what the body makes of the items, in their order. -/
theorem leads_mapProgram (maps : library.MapsTop limits realm body f) {items : Block}
    (nonempty : items ≠ []) (fits : ∀ e ∈ items, e.size ≤ limits.maxPoints)
    (fits' : Block.size (items.map fun e => f (.expr e)) ≤ limits.maxPoints) (codes : List Value) :
    library.Leads limits realm
      ⟨.code (.expr (.block (mapProgram items body))) :: pending, rest.setStack .code codes⟩
      ⟨pending, rest.setStack .code
        (.code (.expr (.block (items.map fun e => f (.expr e)))) :: codes)⟩ := by
  -- The results are told from the last on: it is wrapped, and the others come in front of it.
  cases hreverse : (items.map fun e => f (.expr e)).reverse with
  | nil => exact absurd (List.map_eq_nil_iff.mp (List.reverse_eq_nil_iff.mp hreverse)) nonempty
  | cons last before =>
    have hresults : (items.map fun e => f (.expr e)) = before.reverse ++ [last] := by
      rw [← List.reverse_cons, ← hreverse, List.reverse_reverse]
    have hlength : items.length - 1 = before.length := by
      have hcount := congrArg List.length hreverse
      rw [List.length_reverse, List.length_map, List.length_cons] at hcount
      rw [hcount, Nat.add_sub_cancel]
    have hstack : (items.map fun e => Value.code (.expr (f (.expr e)))).reverse =
        .code (.expr last) :: before.map fun e => .code (.expr e) := by
      have hmapped := congrArg (List.map fun e => Value.code (.expr e)) hreverse
      rwa [List.map_reverse, List.map_map] at hmapped
    refine (leads_block reigns _ pending _).trans reigns ?_
    rw [mapProgram, List.map_append, List.append_assoc]
    refine (leads_transform offers reigns cap found maps items fits codes).trans reigns ?_
    rw [List.map_cons, List.map_replicate, hlength, hstack, hresults]
    exact leads_gather offers reigns cap found last before codes (hresults ▸ fits')

/-- Calling `"code_map"`, with an atom to map over and a body for it. -/
theorem leads_map (called : atom.called? = some "code_map") {top : Atom} {after : Config}
    (does : (mapBlock limits.toSizeCaps).Does
      ⟨.code (.expr body) :: pending, rest.setStack .code (.code top :: codes)⟩ () after 1) :
    library.Leads limits realm
      ⟨.code atom :: .code (.expr body) :: pending, rest.setStack .code (.code top :: codes)⟩
      after := by
  have hmap : library.instructions.get? "code_map" =
      some { name := "code_map", inputs := [.code, .exec], outputs := [.exec, .code], groups := 1
             body := mapBlock } :=
    (offers.instruction _ List.mem_cons_self).trans (InstructionSet.get?_core rfl rfl)
  refine leads_call reigns called hmap ?_ does cap
  refine Config.readies_of_nodup (by decide) fun id hid => ?_
  obtain rfl | rfl : id = .code ∨ id = .exec := by simpa using hid
  · exact ⟨_, _, Config.stack?_replaced found (by decide)⟩
  · exact ⟨_, _, rfl⟩

end Program

/-! ## A body that maps -/

/-- What wrapping makes of an atom: its block, unless that would be too large. -/
def wrapped (caps : SizeCaps) : Atom → Expr
  | .closer => .block []
  | .expr e => if Block.size [e] ≤ caps.maxPoints then .block [e] else e

/-- Wrapping is a body that maps the top of the code stack: it `MapsTop` by `wrapped`. -/
theorem mapsTop_wrap (offers : library.Offers [.code] mapNames)
    (reigns : library.Realm limits realm) (cap : 1 ≤ limits.growthCap)
    (points : 1 ≤ limits.maxPoints) :
    library.MapsTop limits realm (.deferred "code_wrap") (wrapped limits.toSizeCaps) := by
  intro pending rest top codes found
  rw [← State.setStack_self found, State.setStack_setStack]
  cases top with
  | closer => exact leads_wrap offers reigns cap found .closer points codes
  | expr e =>
    rw [wrapped]
    split
    case isTrue hfits => exact leads_wrap offers reigns cap found (.expr e) hfits codes
    case isFalse hlarge =>
      exact (reverts_of_givesUp (get?_wrap offers)
        (givesUp_wrapAtom found (.expr e) (Nat.lt_of_not_le hlarge) codes)).leads reigns rfl

/-! ## The map -/

/-- **Mapping over code maps.** Let a body replace every atom on top of the code stack by what `f`
makes of it. From every state of a realm in which the map is called next, with an atom on the code
stack and that body, the run comes to a state with exactly the work that was pending behind: the
atom is replaced by the block of what `f` makes of its items, in their order. The items are the
parts of a block and an expression of another kind itself; a closer has none. For this the program
and the resulting block must not be too large, unless there is no item. -/
theorem map_gathers (library : Library) (limits : Limits) (realm : State → Prop) (body : Expr)
    (f : Atom → Expr) (offers : library.Offers [.code] mapNames)
    (reigns : library.Realm limits realm) (cap : 1 ≤ limits.growthCap)
    (maps : library.MapsTop limits realm body f) (atom top : Atom) (pending codes : List Value)
    (rest : State) (called : atom.called? = some "code_map")
    (found : rest.stack? .code = some (.code top :: codes))
    (fits : top.toBlock ≠ [] → (mapPlan top.toBlock (.expr body)).size ≤ limits.maxPoints ∧
      Block.size (top.toBlock.map fun e => f (.expr e)) ≤ limits.maxPoints) :
    library.Leads limits realm ⟨.code atom :: .code (.expr body) :: pending, rest⟩
      ⟨pending, rest.setStack .code
        (.code (.expr (.block (top.toBlock.map fun e => f (.expr e)))) :: codes)⟩ := by
  rw [← State.setStack_self found, State.setStack_setStack]
  by_cases hitems : top.toBlock = []
  · rw [hitems, List.map_nil]
    exact leads_map offers reigns cap found called (does_mapBlock_nil found hitems codes)
  · obtain ⟨hplan, hresult⟩ := fits hitems
    -- An item is a part of the program, so it is not too large.
    have hfit : ∀ e ∈ top.toBlock, e.size ≤ limits.maxPoints := by
      intro e he
      have hmem : e ∈ mapProgram top.toBlock body :=
        List.mem_append_left _ (List.mem_flatMap.mpr ⟨e, he, by simp⟩)
      have hpart := Block.size_le_partsSize hmem
      rw [mapPlan_eq] at hplan
      have hwhole : 1 + Block.partsSize (mapProgram top.toBlock body) ≤ limits.maxPoints := hplan
      omega
    exact (leads_map offers reigns cap found called (does_mapBlock found hitems hplan codes)).trans
      reigns (leads_mapProgram offers reigns cap found maps hitems hfit hresult codes)

/-- Wrapping each part of a block, in front of other work and with other code below. -/
theorem map_gathers_wrapped :
    let one : Expr := .literal (.int 1) .int
    let codes : List Value := [.code (.expr (.block [one, .block [one]])), .code .closer]
    let rest : State := { slots := (List.replicate 12 (some [])).set 1 (some codes) }
    let state := rest.setStack .exec [.code (.expr (.deferred "code_map")),
      .code (.expr (.deferred "code_wrap")), .code (.expr one)]
    ∃ n last, core.Steps {} n state last ∧ last.stack? .exec = some [.code (.expr one)] ∧
      last.settled = rest.setStack .code
        [.code (.expr (.block [.block [one], .block [.block [one]]])), .code .closer] := by
  intro one codes rest state
  have reigns := core.realm_of_registry {}
  have maps := mapsTop_wrap (offers_core _ _) reigns (by decide) (by decide)
  have hgathers := map_gathers core {} _ _ _ (offers_core _ _) reigns (by decide) maps
    (.expr (.deferred "code_map")) (.expr (.block [one, .block [one]])) [.code (.expr one)]
    [.code .closer] rest rfl rfl (fun _ => by decide)
  obtain ⟨n, last, hsteps, hlast⟩ := hgathers state ⟨rfl, rfl⟩ ⟨rfl, rfl⟩
  exact ⟨n, last, hsteps, hlast.pending, hlast.rest⟩

/-- **A closer is no item of itself.** Wrapping makes the empty block of a closer, but mapping it
over a closer does not lead to the block of that: it leads to the empty block. -/
theorem map_closer :
    let realm : State → Prop := (·.From (.ofRegistry core.registry))
    let body : Expr := .deferred "code_wrap"
    let caps : SizeCaps := {}
    let f := wrapped caps
    let rest : State := { slots := (List.replicate 12 (some [])).set 1 (some [.code .closer]) }
    let before : Config := ⟨[.code (.expr (.deferred "code_map")), .code (.expr body)], rest⟩
    core.MapsTop {} realm body f ∧
      (mapPlan (Atom.toBlock .closer) (.expr body)).size ≤ caps.maxPoints ∧
      Block.size [f .closer] ≤ caps.maxPoints ∧
      ¬core.Leads {} realm before
        ⟨[], rest.setStack .code [.code (.expr (.block [f .closer]))]⟩ := by
  intro realm body caps f rest before
  have reigns := core.realm_of_registry {}
  have offers := offers_core [.code] mapNames
  have maps : core.MapsTop {} realm body f := mapsTop_wrap offers reigns (by decide) (by decide)
  refine ⟨maps, by decide, by decide, fun hleads => ?_⟩
  have found : rest.stack? .code = some [.code .closer] := rfl
  have hempty : core.Leads {} realm before
      ⟨[], rest.setStack .code [.code (.expr (.block []))]⟩ :=
    leads_map offers reigns (by decide) found rfl (does_mapBlock_nil found rfl [])
  -- From one state the run comes to one configuration without pending work.
  let state := rest.setStack .exec before.pending
  obtain ⟨n, last, hsteps, hlast⟩ := hleads state ⟨rfl, rfl⟩ ⟨rfl, rfl⟩
  obtain ⟨m, other, hsteps', hother⟩ := hempty state ⟨rfl, rfl⟩ ⟨rfl, rfl⟩
  obtain rfl := hsteps.unique_of_idle hsteps' hlast.pending hother.pending
  have hsame := congrArg (·.stack? .code) (hlast.rest.symm.trans hother.rest)
  simp [rest, f, wrapped, State.setStack, State.stack?, StackId.code] at hsame

end Library

end PushMachine
