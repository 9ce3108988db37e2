/-
# Collapsing and transition faults

The stuck-at rules of the collapser do not carry over to transition faults: the launch
value at the faulty net decides as well, and only an inverter or a buffer passes it
on (`collapsed_transition_eq`).  `load_config` of `faultflow/config.py` rejects the
combination; `checkFaultModel` is its check of the `fault_model` section.
-/

import FaultFlow.Atpg.TransitionVerdict
import FaultFlow.Fault.Equivalence

namespace FaultFlow

open Lib Collapser

/-- `ConfigError`. -/
structure ConfigError where
  message : String
deriving DecidableEq

/-- The fields of `FaultModelConfig` that the check reads. -/
structure FaultModelConfig where
  model : String
  launch : String
  collapsing : Bool
deriving DecidableEq

/-- The check of the `fault_model` section in `load_config`. -/
def checkFaultModel (model launch : String) (collapsing : Bool) :
    Except ConfigError FaultModelConfig :=
  if model ∉ ["stuck_at", "transition"] then
    .error ⟨"fault_model.model must be 'stuck_at' or 'transition'"⟩
  else if launch ∉ ["loc", "los"] then .error ⟨"fault_model.launch must be 'loc' or 'los'"⟩
  else if model = "transition" ∧ collapsing = true then
    .error ⟨"fault collapsing is not supported for the transition model " ++
      "(stuck-at equivalence rules do not hold for transition faults)"⟩
  else .ok { model := model, launch := launch, collapsing := collapsing }

/-- **Transition campaigns do not collapse.** -/
theorem checkFaultModel_collapsing {model launch : String} {collapsing : Bool}
    {cfg : FaultModelConfig} (h : checkFaultModel model launch collapsing = .ok cfg)
    (hmodel : cfg.model = "transition") : cfg.collapsing = false := by
  unfold checkFaultModel at h
  split at h
  · cases h
  · split at h
    · cases h
    · split at h
      · cases h
      · rename_i hboth
        cases h
        exact Bool.eq_false_iff.2 fun hc => hboth ⟨hmodel, hc⟩

/-- An inverter or a buffer tells the value of its input from its output. -/
theorem equivPairs_bijective {type : GateType} (htype : type = .INV ∨ type = .BUF)
    {m r : CompoundMember} (hp : (m, r) ∈ equivPairs type) (hm : (m.inputIndex : ℕ) < type.arity)
    (b : Fin 6 → Bool) : r.isOutput = true ∧
      (evalSlots type b = r.type.value ↔ b m.inputIndex = m.type.value) := by
  have hfirst : m.inputIndex = 0 := by
    rcases htype with rfl | rfl <;> exact Fin.ext (Nat.lt_one_iff.1 hm)
  rw [hfirst]
  have hbit : evalSlots .INV b = !b 0 ∧ evalSlots .BUF b = b 0 := by
    simp [evalSlots, evalScalar_eq_lane, evalBitwise, pick, lane_broadcast_zero, lane_not]
  rcases htype with rfl | rfl
  all_goals
    simp only [equivPairs, equivRuleFor, compoundClassesFor, Option.toList_some, List.flatMap_cons,
      List.flatMap_nil, List.append_nil, if_true, List.mem_flatMap, List.mem_append,
      List.mem_singleton, Prod.mk.injEq] at hp
    obtain ⟨s, -, ⟨rfl, rfl⟩ | ⟨rfl, rfl⟩⟩ := hp <;> cases hb : b 0 <;> simp [hbit, hb, output, pin]

namespace CachedGraph

variable {g : CachedGraph}

/-- In a complete circuit every net is an input, or is read in order. -/
theorem Complete.early (h : g.Complete) {i : CompiledNetIndex} (hi : i < g.cg.netCount) :
    i ∈ g.cg.piNets ∨ g.cg.ReadsInOrder i := by
  by_cases hgate : g.cg.GateDriven i
  · exact .inr fun p hp hsrc hread => .inr (h.gatesInOrder p hp hsrc i hread hgate)
  · exact .inl (h.mem_piNets hi hgate)

/-- The fault-free value of a gate. -/
theorem Complete.combPass_gate (h : g.Complete) (vec : TestVector) {n : SimNode}
    (hn : n ∈ g.cg.nodes) (hsrc : ¬ n.IsSource) :
    Golden.combPass g.cg vec none n.out =
      Golden.plainValue (Golden.combPass g.cg vec none) n := by
  rw [(Golden.combPass_solves g.passNodes_eq h.gatesInOrder h.single vec none).1 n hn hsrc,
    Golden.force_none]

end CachedGraph

/-- **Only inverters and buffers carry a transition.**  The configuration never runs a
transition campaign over collapsed faults; a fault that is collapsed through an
inverter or a buffer is detected with its representative as a transition fault too. -/
theorem collapsed_transition_eq (g : CachedGraph) (hcomb : g.cg.Combinational)
    (hac : g.ng.Acyclic) (hdriven : ∀ i < g.cg.netCount, g.cg.Driven i) (hone : g.cg.SingleDriver)
    (hpi : g.cg.InputsDriven) (hgap : ∀ n ∈ g.cg.nodes, n.IsWrapper → n.GapFree)
    (opt : EnumeratorOptions) (f rep : CompactFault) (r : ℕ)
    (hf : f ∈ collapsePrimitiveFaults g.cg (enumerateFaults g.ng g.cg opt))
    (hr : f.collapsedInto = some r)
    (hrep : (collapsePrimitiveFaults g.cg (enumerateFaults g.ng g.cg opt))[r]? = some rep)
    (hgate : ∀ n ∈ g.cg.nodes, f.netIndex ∈ n.inputNets →
      (n.type = .INV ∨ n.type = .BUF) ∧ n.GapFree ∧ n.inputNets.length ≤ 1)
    (hobs : f.netIndex ∉ g.cg.observable) (v1 v2 : TestVector) :
    (∀ model launch collapsing cfg, checkFaultModel model launch collapsing = .ok cfg →
      cfg.model = "transition" → cfg.collapsing = false) ∧
      Golden.simulateTransitionFault g.cg v1 v2 f =
        Golden.simulateTransitionFault g.cg v1 v2 rep := by
  have h : g.Complete := ⟨⟨hcomb, hac, hone⟩, hpi, hdriven⟩
  refine ⟨fun _ _ _ _ => checkFaultModel_collapsing, ?_⟩
  obtain ⟨hfx, hrx, hcollapse⟩ := collapsed_spec hf hr hrep
  obtain ⟨n, hn, ⟨m, q⟩, hp, hm, hq⟩ := hcollapse
  have hin : m.isOutput = false := (equivPairs_spec hp).1
  have hslot : n.ins m.inputIndex = some f.netIndex := by
    have hnet := hm.net
    rwa [netOf, if_neg (by simp [hin])] at hnet
  have hread : f.netIndex ∈ n.inputNets := SimNode.mem_inputNets.2 ⟨_, hslot⟩
  obtain ⟨htype, hfree, hlen⟩ := hgate n hn hread
  have hsrc := (CachedGraph.not_isSource_of_equivPairs hp).1
  have hfnet := g.reads_lt_netCount hn hread
  have harity : (m.inputIndex : ℕ) < n.type.arity := by
    have hone' := lt_of_lt_of_le (CachedGraph.lt_length_inputNets hfree hslot) hlen
    rcases htype with ht | ht <;> rwa [ht]
  have hout : rep.netIndex = n.out := by
    have hnet := hq.net
    rw [netOf, if_pos (equivPairs_bijective htype hp harity fun _ => false).1] at hnet
    exact (Option.some.inj hnet).symm
  -- the output makes its transition with the input
  have hvalue : ∀ vec, Golden.combPass g.cg vec none rep.netIndex = rep.value ↔
      Golden.combPass g.cg vec none f.netIndex = f.value := by
    intro vec
    have hbij := (equivPairs_bijective htype hp harity
      fun s => slotValue (Golden.combPass g.cg vec none) (n.ins s)).2
    rw [← CachedGraph.plainValue_eq_evalSlots hfree, ← h.combPass_gate vec hn hsrc, hslot] at hbij
    have hmvalue : f.value = m.type.value := congrArg FaultType.value hm.type.symm
    have hqvalue : rep.value = q.type.value := congrArg FaultType.value hq.type.symm
    rw [hout, hqvalue, hmvalue]
    exact hbij
  have hcov : ∀ k ∈ g.cg.nodes, f.netIndex ∈ k.inputNets → CachedGraph.Covered g.cg k f rep := by
    intro k hk hkread
    obtain ⟨s, hs⟩ := SimNode.mem_inputNets.1 hkread
    obtain ⟨rfl, -⟩ := CachedGraph.eq_of_fanoutOf (hm.fanout hin) hk hn hs hslot
    have hself : k.out ∉ k.inputNets := fun hmem => CachedGraph.out_ne_of_early hone hpi hk hsrc hmem
      (h.early (g.out_lt_netCount hk)) rfl
    refine ⟨hfree, ?_, fun i hi hmem => ?_, fun i _ hmem => h.early (g.reads_lt_netCount hk hmem)⟩
    · rcases htype with ht | ht <;> rwa [ht]
    · rcases List.mem_pair.1 hi with rfl | rfl
      · exact hobs
      · exact absurd (hout ▸ hmem) hself
  obtain ⟨_, D, htwins, hD⟩ := CachedGraph.exists_twins hone hpi hfx hrx ⟨n, hn, (m, q), hp, hm, hq⟩ hcov
  have hagree := CachedGraph.combPass_twins htwins hcomb v2
  have hrnet : rep.netIndex < g.cg.netCount := hout ▸ g.out_lt_netCount hn
  rw [Bool.eq_iff_iff, Atpg.simulateTransitionFault_iff h hgap hfx hfnet,
    Atpg.simulateTransitionFault_iff h hgap hrx hrnet]
  refine and_congr (hvalue v1).symm (and_congr ?_ (exists_congr fun o => and_congr_right fun ho => ?_))
  · rw [Bool.eq_not, Bool.eq_not]
    exact not_congr (hvalue v2).symm
  · rw [hagree o fun hmem => hD o hmem ho]

/-- An inverter behind an AND gate. -/
def nandChain : CachedGraph :=
  .load (.ofCells [("a", 2), ("b", 3)] [("y", 5)]
      [("g", .ofPins "AND2" [("A", 2), ("B", 3), ("Y", 4)]),
       ("h", .ofPins "INV" [("A", 4), ("Y", 5)])])
    smallCells "fail" ∅ (by decide +kernel) (by decide +kernel)

/-- The output of the AND gate, collapsed into that of the inverter. -/
def inverterInput : CompactFault := { netIndex := 2, saMask := 1#64, collapsedInto := some 7 }

@[inherit_doc inverterInput]
def inverterOutput : CompactFault := { netIndex := 3, type := .SA1, saMask := 1#64 }

/-- One input high, the other as given. -/
def oneHigh (b : Bool) : TestVector :=
  { inputs := Std.TreeMap.ofList [((2 : YosysNetID), true), (3, b), (4, true)] }

theorem nandChain_transition_eq :
    (∀ model launch collapsing cfg, checkFaultModel model launch collapsing = .ok cfg →
      cfg.model = "transition" → cfg.collapsing = false) ∧
      Golden.simulateTransitionFault nandChain.cg (oneHigh false) (oneHigh true) inverterInput =
        Golden.simulateTransitionFault nandChain.cg (oneHigh false) (oneHigh true) inverterOutput :=
  collapsed_transition_eq nandChain (by decide +kernel)
    (nandChain.levelized.acyclic_iff.2 (by decide +kernel)) (by decide +kernel) (by decide +kernel)
    (by decide +kernel) (by decide +kernel) {} inverterInput inverterOutput 7 (by decide +kernel) rfl
    (by decide +kernel) (by decide +kernel) (by decide +kernel) (oneHigh false) (oneHigh true)

/-- An input of an AND gate and its output, as the collapser leaves them. -/
def andInput : CompactFault := { netIndex := 0, saMask := 1#64, collapsedInto := some 6 }

@[inherit_doc andInput]
def andOutput : CompactFault := { netIndex := 3, saMask := 1#64, collapsedInto := some 8 }

/-- The output of an AND gate rises with its other input, while this one does not
move. -/
theorem hiddenChain_transition_ne :
    hiddenChain.cg.Combinational ∧ hiddenChain.ng.Acyclic ∧
      andInput ∈ collapsePrimitiveFaults hiddenChain.cg
        (enumerateFaults hiddenChain.ng hiddenChain.cg {}) ∧
      (collapsePrimitiveFaults hiddenChain.cg
        (enumerateFaults hiddenChain.ng hiddenChain.cg {}))[6]? = some andOutput ∧
      Golden.simulateTransitionFault hiddenChain.cg (oneHigh false) (oneHigh true) andInput = false ∧
      Golden.simulateTransitionFault hiddenChain.cg (oneHigh false) (oneHigh true) andOutput = true :=
  ⟨by decide +kernel, hiddenChain.levelized.acyclic_iff.2 (by decide +kernel), by decide +kernel,
    by decide +kernel, by decide +kernel, by decide +kernel⟩

end FaultFlow
