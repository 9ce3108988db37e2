/-
# Fault collapsing

`src/core/fault/collapser/fault_collapser.cpp`.  A fault on a net with one consumer
is collapsed into a fault that its gate makes equivalent: `equivRuleFor` for the
primitive gates, `compoundClassesFor` for the AOI and OAI cells.  The map from
`(net, type)` to the index of a fault is a function here.

Every collapse comes from a pair of members of one gate (`Collapses`), which
`collapsed_spec` proves of the whole run.
-/

import FaultFlow.Fault.Effect

namespace FaultFlow

open Lib

/-- `FaultKey`. -/
abbrev FaultKey := CompiledNetIndex × FaultType

/-- The key of a fault. -/
def CompactFault.key (f : CompactFault) : FaultKey := (f.netIndex, f.type)

namespace Collapser

variable (cg : CompiledSimGraph) (index : FaultKey → Option ℕ) (faults : List CompactFault)
  (node : SimNode)

/-- The index of the faults; `find_fault` looks a key up. -/
def faultIndex : FaultKey → Option ℕ :=
  faults.zipIdx.foldl (fun index p => Function.update index p.1.key (some p.2)) fun _ => none

/-- `collapse_to`: never from or into an excluded fault, nor into itself. -/
def collapseTo (src dst : Option ℕ) : List CompactFault :=
  match src, dst with
  | some i, some j =>
    if i = j then faults
    else if (faults[i]?).map CompactFault.exclusion ≠ some .NONE ∨
        (faults[j]?).map CompactFault.exclusion ≠ some .NONE then faults
    else faults.modify i fun f => { f with collapsedInto := some j }
  | _, _ => faults

/-- `EquivRule`. -/
structure EquivRule where
  collapseSa0 : Bool := false
  sa0Target : FaultType := .SA0
  collapseSa1 : Bool := false
  sa1Target : FaultType := .SA1

/-- `equiv_rule_for`: the controlling value of an input against the output it
causes. -/
def equivRuleFor : GateType → Option EquivRule
  | .INV => some ⟨true, .SA1, true, .SA0⟩
  | .BUF => some ⟨true, .SA0, true, .SA1⟩
  | .AND2 | .AND3 | .AND4 => some ⟨true, .SA0, false, .SA1⟩
  | .OR2 | .OR3 | .OR4 => some ⟨false, .SA0, true, .SA1⟩
  | .NAND2 | .NAND3 | .NAND4 => some ⟨true, .SA1, false, .SA1⟩
  | .NOR2 | .NOR3 | .NOR4 => some ⟨false, .SA0, true, .SA0⟩
  | _ => none

/-- `CompoundMember`: a fault on an input pin or on the output of a gate. -/
structure CompoundMember where
  isOutput : Bool
  inputIndex : Fin 6
  type : FaultType
deriving DecidableEq

/-- The fault on input `s`. -/
def pin (s : Fin 6) (type : FaultType) : CompoundMember := ⟨false, s, type⟩

/-- The fault on the output. -/
def output (type : FaultType) : CompoundMember := ⟨true, 0, type⟩

/-- `compound_classes_for`. -/
def compoundClassesFor : GateType → List (List CompoundMember)
  | .A21OI => [[pin 0 .SA0, pin 1 .SA0], [pin 2 .SA1, output .SA0]]
  | .O21AI => [[pin 0 .SA1, pin 1 .SA1], [pin 2 .SA0, output .SA1]]
  | .A22OI => [[pin 0 .SA0, pin 1 .SA0], [pin 2 .SA0, pin 3 .SA0]]
  | .O22AI => [[pin 0 .SA1, pin 1 .SA1], [pin 2 .SA1, pin 3 .SA1]]
  | .A21O => [[pin 0 .SA0, pin 1 .SA0], [pin 2 .SA1, output .SA1]]
  | .O21A => [[pin 0 .SA1, pin 1 .SA1], [pin 2 .SA0, output .SA0]]
  | .A22O => [[pin 0 .SA0, pin 1 .SA0], [pin 2 .SA0, pin 3 .SA0]]
  | .O22A => [[pin 0 .SA1, pin 1 .SA1], [pin 2 .SA1, pin 3 .SA1]]
  | _ => []

/-- `fanout_of`. -/
def fanoutOf (net : CompiledNetIndex) : ℕ := (cg.fanoutRows.getD net []).length

/-- The collapses of one input slot of a primitive gate. -/
def collapseSlot (rule : EquivRule) (faults : List CompactFault) (slot : Option CompiledNetIndex) :
    List CompactFault :=
  match slot with
  | none => faults
  | some net =>
    if fanoutOf cg net ≠ 1 then faults
    else
      let faults := if rule.collapseSa0 then
        collapseTo faults (index (net, .SA0)) (index (node.out, rule.sa0Target)) else faults
      if rule.collapseSa1 then
        collapseTo faults (index (net, .SA1)) (index (node.out, rule.sa1Target)) else faults

/-- One step of the loop over the primitive gates. -/
def collapsePrimitive : List CompactFault :=
  match equivRuleFor node.type with
  | none => faults
  | some rule => node.slots.foldl (collapseSlot cg index node rule) faults

/-- `net_of`. -/
def netOf (m : CompoundMember) : Option CompiledNetIndex :=
  if m.isOutput then some node.out else node.ins m.inputIndex

/-- Every input member of a class is fanout-free. -/
def collapsible (cls : List CompoundMember) : Bool :=
  cls.all fun m => m.isOutput || (node.ins m.inputIndex).any fun net => fanoutOf cg net = 1

/-- `find_fault` of a member. -/
def memberIndex (m : CompoundMember) : Option ℕ :=
  (netOf node m).bind fun net => index (net, m.type)

/-- The collapses of one class: into its output member, or into its first. -/
def collapseClass (faults : List CompactFault) (cls : List CompoundMember) : List CompactFault :=
  if collapsible cg node cls then
    let repPos := (cls.findIdx? CompoundMember.isOutput).getD 0
    let rep := (cls[repPos]?).bind (memberIndex index node)
    cls.zipIdx.foldl (fun faults p =>
      if p.2 = repPos then faults else collapseTo faults (memberIndex index node p.1) rep) faults
  else faults

/-- One step of the loop over the compound cells. -/
def collapseCompound : List CompactFault :=
  (compoundClassesFor node.type).foldl (collapseClass cg index node) faults

end Collapser

open Collapser

/-- `collapse_primitive_faults`. -/
def collapsePrimitiveFaults (cg : CompiledSimGraph) (faults : List CompactFault) :
    List CompactFault :=
  let index := faultIndex faults
  cg.nodes.foldl (collapseCompound cg index) (cg.nodes.foldl (collapsePrimitive cg index) faults)

namespace Collapser

/-! ## Where a collapse comes from -/

/-- The pairs that the tables make equivalent on a gate, the kept one second. -/
def equivPairs (type : GateType) : List (CompoundMember × CompoundMember) :=
  ((equivRuleFor type).toList.flatMap fun rule => (List.finRange 6).flatMap fun s =>
    (if rule.collapseSa0 then [(pin s .SA0, output rule.sa0Target)] else []) ++
      if rule.collapseSa1 then [(pin s .SA1, output rule.sa1Target)] else []) ++
  (compoundClassesFor type).flatMap fun cls =>
    let repPos := (cls.findIdx? CompoundMember.isOutput).getD 0
    (cls[repPos]?).toList.flatMap fun rep =>
      (cls.zipIdx.filter fun p => p.2 ≠ repPos).map fun p => (p.1, rep)

/-- Member `m` of a gate is the fault `k`, on a net with one consumer if it is an
input. -/
structure IsMember (cg : CompiledSimGraph) (n : SimNode) (m : CompoundMember) (k : FaultKey) :
    Prop where
  net : netOf n m = some k.1
  type : m.type = k.2
  fanout : m.isOutput = false → fanoutOf cg k.1 = 1

/-- **A collapse**: the tables of one gate make the faults `k` and `k'` equivalent. -/
def Collapses (cg : CompiledSimGraph) (k k' : FaultKey) : Prop :=
  ∃ n ∈ cg.nodes, ∃ p ∈ equivPairs n.type, IsMember cg n p.1 k ∧ IsMember cg n p.2 k'

/-- A fault as it was before the collapse. -/
def erase (f : CompactFault) : CompactFault := { f with collapsedInto := none }

/-- Only `collapsed_into` has changed, and every collapse comes from the tables. -/
structure Justified (cg : CompiledSimGraph) (orig faults : List CompactFault) : Prop where
  same : faults.map erase = orig.map erase
  from_tables : ∀ f ∈ faults, ∀ j, f.collapsedInto = some j → ∃ rep, orig[j]? = some rep ∧
    f.exclusion = .NONE ∧ rep.exclusion = .NONE ∧ Collapses cg f.key rep.key

/-- The index holds the key of every fault. -/
theorem key_of_faultIndex {faults : List CompactFault} {k : FaultKey} {i : ℕ}
    (h : faultIndex faults k = some i) : ∃ f, faults[i]? = some f ∧ f.key = k := by
  have hinv : ∀ k i, faultIndex faults k = some i → ∃ f, faults[i]? = some f ∧ f.key = k := by
    refine foldl_invariant (fun index : FaultKey → Option ℕ => ∀ k i, index k = some i →
      ∃ f, faults[i]? = some f ∧ f.key = k) (by simp) ?_
    intro p hp index hinv k i hk
    by_cases hkey : k = p.1.key
    · subst hkey
      rw [Function.update_self] at hk
      obtain rfl := Option.some.inj hk
      exact ⟨p.1, List.mem_zipIdx_iff_getElem?.1 hp, rfl⟩
    · rw [Function.update_of_ne hkey] at hk
      exact hinv k i hk
  exact hinv k i h

namespace Justified

variable {cg : CompiledSimGraph} {orig faults : List CompactFault}

/-- A fault that an index names has kept its key and its exclusion. -/
theorem getElem? (h : Justified cg orig faults) {i : ℕ} {f : CompactFault}
    (hf : faults[i]? = some f) : ∃ f₀, orig[i]? = some f₀ ∧ erase f₀ = erase f := by
  have hmap := congrArg (·[i]?) h.same
  simp only [List.getElem?_map, hf, Option.map_some] at hmap
  obtain ⟨f₀, hf₀, herase⟩ := Option.map_eq_some_iff.1 hmap.symm
  exact ⟨f₀, hf₀, herase⟩

/-- One collapse that the tables allow. -/
theorem collapseTo (h : Justified cg orig faults) {src dst : Option ℕ}
    (hpair : ∀ i j f rep, src = some i → dst = some j → orig[i]? = some f → orig[j]? = some rep →
      Collapses cg f.key rep.key) :
    Justified cg orig (collapseTo faults src dst) := by
  unfold Collapser.collapseTo
  split
  · rename_i i j
    split
    · exact h
    · split
      · exact h
      · rename_i hexcl
        rw [not_or, not_not, not_not] at hexcl
        obtain ⟨f, hf, hfx⟩ := Option.map_eq_some_iff.1 hexcl.1
        obtain ⟨rep, hrep, hrx⟩ := Option.map_eq_some_iff.1 hexcl.2
        obtain ⟨f₀, hf₀, hfe⟩ := h.getElem? hf
        obtain ⟨r₀, hr₀, hre⟩ := h.getElem? hrep
        have hkey : ∀ {a b : CompactFault}, erase a = erase b →
            a.key = b.key ∧ a.exclusion = b.exclusion := by
          intro a b hab
          have hk := congrArg CompactFault.key hab
          have hx := congrArg CompactFault.exclusion hab
          exact ⟨hk, hx⟩
        refine ⟨?_, fun g hg k hk => ?_⟩
        · rw [← h.same]
          refine List.ext_getElem? fun m => ?_
          rw [List.getElem?_map, List.getElem?_map, List.getElem?_modify]
          cases faults[m]? with
          | none => rfl
          | some g => by_cases hm : i = m <;> simp [hm, erase]
        · obtain ⟨m, hm⟩ := List.getElem?_of_mem hg
          rw [List.getElem?_modify] at hm
          obtain ⟨g', hg', hmod⟩ := Option.map_eq_some_iff.1 hm
          by_cases him : i = m
          · subst him
            obtain rfl : g' = f := Option.some.inj (hg'.symm.trans hf)
            rw [if_pos rfl] at hmod
            subst hmod
            obtain rfl : j = k := Option.some.inj hk
            refine ⟨r₀, hr₀, hfx, (hkey hre).2.trans hrx, ?_⟩
            have hc := hpair i j f₀ r₀ rfl rfl hf₀ hr₀
            rwa [(hkey hfe).1] at hc
          · rw [if_neg him] at hmod
            subst hmod
            exact h.from_tables g' (List.mem_of_getElem? hg') k hk
  · exact h

/-- A collapse of two members of a gate. -/
theorem collapse_members (h : Justified cg orig faults) {n : SimNode} (hn : n ∈ cg.nodes)
    {p : CompoundMember × CompoundMember} (hp : p ∈ equivPairs n.type)
    (hfan : ∀ m ∈ [p.1, p.2], m.isOutput = false → ∀ net, n.ins m.inputIndex = some net →
      fanoutOf cg net = 1) :
    Justified cg orig (Collapser.collapseTo faults (memberIndex (faultIndex orig) n p.1)
      (memberIndex (faultIndex orig) n p.2)) := by
  refine h.collapseTo fun i j f rep hi hj hf hrep => ?_
  have hmember : ∀ m ∈ [p.1, p.2], ∀ {i f}, memberIndex (faultIndex orig) n m = some i →
      orig[i]? = some f → IsMember cg n m f.key := by
    intro m hm i f hi hf
    obtain ⟨net, hnet, hidx⟩ := Option.bind_eq_some_iff.1 hi
    obtain ⟨f', hf', hkey⟩ := key_of_faultIndex hidx
    obtain rfl := Option.some.inj (hf'.symm.trans hf)
    refine ⟨by rw [hkey, hnet], by rw [hkey], fun hin => ?_⟩
    rw [netOf, if_neg (by simp [hin])] at hnet
    rw [hkey]
    exact hfan m hm hin net hnet
  exact ⟨n, hn, p, hp, hmember p.1 (by simp) hi hf, hmember p.2 (by simp) hj hrep⟩

/-- The primitive gates. -/
theorem collapsePrimitive (h : Justified cg orig faults) {n : SimNode} (hn : n ∈ cg.nodes) :
    Justified cg orig (Collapser.collapsePrimitive cg (faultIndex orig) faults n) := by
  unfold Collapser.collapsePrimitive
  split
  · exact h
  · rename_i rule hrule
    refine foldl_invariant (Justified cg orig) h fun slot hslot faults h => ?_
    obtain ⟨s, hs⟩ := SimNode.mem_slots.1 hslot
    unfold collapseSlot
    split
    · exact h
    · rename_i net
      split
      · exact h
      · rename_i hfan
        rw [not_not] at hfan
        have hpin : ∀ (type target : FaultType), (pin s type, output target) ∈ equivPairs n.type →
            ∀ faults, Justified cg orig faults → Justified cg orig (Collapser.collapseTo faults
              (faultIndex orig (net, type)) (faultIndex orig (n.out, target))) := by
          intro type target hmem faults h
          have hnet : ∀ m ∈ [pin s type, output target], m.isOutput = false →
              ∀ net', n.ins m.inputIndex = some net' → fanoutOf cg net' = 1 := by
            intro m hm hin net' hnet'
            rcases List.mem_pair.1 hm with rfl | rfl
            · obtain rfl := Option.some.inj (hs.symm.trans hnet')
              exact hfan
            · cases hin
          have hcollapse := h.collapse_members hn hmem hnet
          simpa [memberIndex, netOf, pin, output, hs] using hcollapse
        have hmem : ∀ q ∈ (if rule.collapseSa0 then [(pin s .SA0, output rule.sa0Target)] else []) ++
            (if rule.collapseSa1 then [(pin s .SA1, output rule.sa1Target)] else []),
            q ∈ equivPairs n.type := by
          intro q hq
          refine List.mem_append_left _ (List.mem_flatMap.2 ⟨rule, by simp [hrule], ?_⟩)
          exact List.mem_flatMap.2 ⟨s, List.mem_finRange s, hq⟩
        have h0 : Justified cg orig (if rule.collapseSa0 then Collapser.collapseTo faults
            (faultIndex orig (net, .SA0)) (faultIndex orig (n.out, rule.sa0Target)) else faults) := by
          split
          · rename_i hc
            exact hpin _ _ (hmem _ (by simp [hc])) faults h
          · exact h
        dsimp only
        split
        · rename_i hc
          exact hpin _ _ (hmem _ (by simp [hc])) _ h0
        · exact h0

/-- The compound cells. -/
theorem collapseCompound (h : Justified cg orig faults) {n : SimNode} (hn : n ∈ cg.nodes) :
    Justified cg orig (Collapser.collapseCompound cg (faultIndex orig) faults n) := by
  refine foldl_invariant (Justified cg orig) h fun cls hcls faults h => ?_
  unfold collapseClass
  split
  · rename_i hcol
    refine foldl_invariant (Justified cg orig) h fun p hp faults h => ?_
    split
    · exact h
    · rename_i hpos
      cases hrep : cls[(cls.findIdx? CompoundMember.isOutput).getD 0]? with
      | none =>
        exact h.collapseTo fun _ _ _ _ _ hj => nomatch hj
      | some rep =>
        rw [Option.bind_some]
        refine h.collapse_members (p := (p.1, rep)) hn ?_ fun m hm hin net hnet => ?_
        · refine List.mem_append_right _ (List.mem_flatMap.2 ⟨cls, hcls, ?_⟩)
          refine List.mem_flatMap.2 ⟨rep, by simp [hrep], List.mem_map.2 ⟨p, ?_, rfl⟩⟩
          exact List.mem_filter.2 ⟨hp, by simpa using hpos⟩
        · have hcls : m ∈ cls := by
            rcases List.mem_pair.1 hm with rfl | rfl
            · exact List.mem_of_getElem? (List.mem_zipIdx_iff_getElem?.1 hp)
            · exact List.mem_of_getElem? hrep
          have hfan := List.all_eq_true.1 hcol m hcls
          simpa [hin, hnet] using hfan
  · exact h

end Justified

theorem justified_collapsePrimitiveFaults (cg : CompiledSimGraph) {orig : List CompactFault}
    (horig : ∀ f ∈ orig, f.collapsedInto = none) :
    Justified cg orig (collapsePrimitiveFaults cg orig) := by
  have hinit : Justified cg orig orig :=
    ⟨rfl, fun f hf j hj => by rw [horig f hf] at hj; cases hj⟩
  refine foldl_invariant (Justified cg orig) (foldl_invariant (Justified cg orig) hinit ?_) ?_
  · exact fun n hn faults h => h.collapsePrimitive hn
  · exact fun n hn faults h => h.collapseCompound hn

/-- The enumerator collapses nothing. -/
theorem collapsedInto_enumerateFaults (ng : NormalizedGraph) (cg : CompiledSimGraph)
    (opt : EnumeratorOptions) : ∀ f ∈ enumerateFaults ng cg opt, f.collapsedInto = none := by
  intro f hf
  obtain ⟨i, -, hi⟩ := List.mem_flatMap.1 hf
  obtain ⟨t, -, rfl⟩ := List.mem_map.1 hi
  rfl

/-- **Every collapse comes from the tables of a gate**, between faults that are not
excluded. -/
theorem collapsed_spec {ng : NormalizedGraph} {cg : CompiledSimGraph} {opt : EnumeratorOptions}
    {f rep : CompactFault} {j : ℕ}
    (hf : f ∈ collapsePrimitiveFaults cg (enumerateFaults ng cg opt)) (hj : f.collapsedInto = some j)
    (hrep : (collapsePrimitiveFaults cg (enumerateFaults ng cg opt))[j]? = some rep) :
    f.exclusion = .NONE ∧ rep.exclusion = .NONE ∧ Collapses cg f.key rep.key := by
  have h := justified_collapsePrimitiveFaults cg (collapsedInto_enumerateFaults ng cg opt)
  obtain ⟨rep₀, hrep₀, hfx, hrx, hc⟩ := h.from_tables f hf j hj
  obtain ⟨rep₁, hrep₁, herase⟩ := h.getElem? hrep
  obtain rfl := Option.some.inj (hrep₀.symm.trans hrep₁)
  have hkey := congrArg CompactFault.key herase
  have hx := congrArg CompactFault.exclusion herase
  exact ⟨hfx, hx.symm.trans hrx, hkey ▸ hc⟩

end Collapser

end FaultFlow
