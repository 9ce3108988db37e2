/-
# The chains of a collapse

`collapse_primitive_faults` writes `collapsed_into` gate by gate, so that the fault a
fault is collapsed into may be collapsed in turn.  Such a chain goes from an input of a
gate to its output, or ends at an input of a compound cell (`Collapses.cases`); so it ends
at one fault that counts, unless gates form a ring in which each is the only reader of
the one before (`collapse_chain_ends`).  Neither `from_parsed` nor `compile` refuses such
a ring: on it every fault is collapsed and none is counted (`ring_all_collapsed`).
-/

import FaultFlow.Fault.Equivalence
import FaultFlow.Lib.Paths

namespace FaultFlow

open Lib Collapser

namespace CompiledSimGraph

/-- A gate that drives net `o` is the only reader of net `i`. -/
def PassesOn (cg : CompiledSimGraph) (i o : CompiledNetIndex) : Prop :=
  fanoutOf cg i = 1 ∧ ∃ n ∈ cg.nodes, ¬ n.IsSource ∧ n.Reads i ∧ n.out = o

/-- No ring of gates, each the only reader of the one before. -/
def Ringless (cg : CompiledSimGraph) : Prop := ∀ i, ¬ Relation.TransGen cg.PassesOn i i

/-- Nets that rise through every gate form no ring. -/
theorem ringless_of_rising {cg : CompiledSimGraph} (rank : CompiledNetIndex → ℕ)
    (h : ∀ n ∈ cg.nodes, ¬ n.IsSource → ∀ i ∈ n.inputNets, rank i < rank n.out) :
    cg.Ringless := by
  have hrise : ∀ i o, Relation.TransGen cg.PassesOn i o → rank i < rank o := by
    intro i o hpath
    induction hpath with
    | single hstep =>
      obtain ⟨-, n, hn, hgate, hread, rfl⟩ := hstep
      exact h n hn hgate _ (SimNode.mem_inputNets.2 hread)
    | tail _ hstep ih =>
      obtain ⟨-, n, hn, hgate, hread, rfl⟩ := hstep
      exact ih.trans (h n hn hgate _ (SimNode.mem_inputNets.2 hread))
  exact fun i hi => lt_irrefl _ (hrise i i hi)

end CompiledSimGraph

namespace Collapser

attribute [ext] CompoundMember

/-- The kept fault of a pair is on the output, or is not given up by another pair. -/
theorem equivPairs_kept (type : GateType) : ∀ p ∈ equivPairs type, p.1.isOutput = false ∧
    (p.2.isOutput = true ∨ ∀ q ∈ equivPairs type, q.1 ≠ p.2) := by
  cases type <;> decide

variable {g : CachedGraph} {k k' : FaultKey}

/-- The slot of an input member. -/
theorem IsMember.slot {n : SimNode} {m : CompoundMember} (h : IsMember g.cg n m k)
    (hin : m.isOutput = false) : n.ins m.inputIndex = some k.1 := by
  have hnet := h.net
  rwa [netOf, if_neg (by simp [hin])] at hnet

/-- **A collapse goes through a gate, or no further.** -/
theorem Collapses.cases (h : Collapses g.cg k k') :
    g.cg.PassesOn k.1 k'.1 ∨ ∀ k'', ¬ Collapses g.cg k' k'' := by
  obtain ⟨n, hn, p, hp, hm, hr⟩ := h
  obtain ⟨hin, hkept⟩ := equivPairs_kept n.type p hp
  cases hout : p.2.isOutput with
  | true =>
    have hnet := hr.net
    rw [netOf, if_pos hout] at hnet
    exact .inl ⟨hm.fanout hin, n, hn, (CachedGraph.not_isSource_of_equivPairs hp).1,
      ⟨_, hm.slot hin⟩, Option.some.inj hnet⟩
  | false =>
    -- the net of the kept input is read by this gate only, which gives up other inputs
    refine .inr fun k'' hnext => ?_
    obtain ⟨n', hn', q, hq, hm', -⟩ := hnext
    obtain ⟨hin', -⟩ := equivPairs_kept n'.type q hq
    obtain ⟨rfl, hslot⟩ :=
      CachedGraph.eq_of_fanoutOf (hr.fanout hout) hn' hn (hm'.slot hin') (hr.slot hout)
    refine (hkept.resolve_left (by simp [hout])) q hq ?_
    exact CompoundMember.ext (hin'.trans hout.symm) hslot (hm'.type.trans hr.type.symm)

/-- Collapses end where no gates form a ring. -/
theorem wellFounded_collapses (hring : g.cg.Ringless) :
    WellFounded fun k' k => Collapses g.cg k k' := by
  have hnets : WellFounded fun o i => g.cg.PassesOn i o := by
    refine wellFounded_of_acyclic (Set.finite_lt_nat g.cg.netCount) ?_ hring
    rintro i _ ⟨-, n, hn, -, hread, rfl⟩
    exact ⟨g.reads_lt_netCount hn (SimNode.mem_inputNets.2 hread), g.out_lt_netCount hn⟩
  have hacc : ∀ i t, Acc (fun k' k => Collapses g.cg k k') (i, t) := by
    intro i
    induction i using hnets.induction with
    | _ i ih =>
      refine fun t => ⟨_, fun k' hk => ?_⟩
      rcases hk.cases with hstep | hlast
      · exact ih k'.1 hstep k'.2
      · exact ⟨_, fun k'' hk' => absurd hk' (hlast k'')⟩
  exact ⟨fun k => hacc k.1 k.2⟩

/-- The index that `collapsed_into` of fault `i` holds. -/
def collapsedFrom (faults : List CompactFault) (i : ℕ) : Option ℕ :=
  (faults[i]?).bind CompactFault.collapsedInto

/-- The fault counts: it is neither collapsed nor excluded. -/
def CountedAt (faults : List CompactFault) (i : ℕ) : Prop :=
  ∃ f, faults[i]? = some f ∧ f.collapsedInto = none ∧ f.exclusion = .NONE

section

variable {cg : CompiledSimGraph} {orig faults : List CompactFault}

/-- One step of a chain leads from a fault to another one, neither excluded. -/
theorem Justified.step (h : Justified cg orig faults) {i j : ℕ}
    (hstep : collapsedFrom faults i = some j) : ∃ f rep, faults[i]? = some f ∧
      faults[j]? = some rep ∧ rep.exclusion = .NONE ∧ Collapses cg f.key rep.key := by
  obtain ⟨f, hf, hj⟩ := Option.bind_eq_some_iff.1 hstep
  obtain ⟨rep₀, hrep₀, -, hx, hc⟩ := h.from_tables f (List.mem_of_getElem? hf) j hj
  have hmap := congrArg (·[j]?) h.same
  simp only [List.getElem?_map, hrep₀, Option.map_some] at hmap
  obtain ⟨rep, hrep, herase⟩ := Option.map_eq_some_iff.1 hmap
  refine ⟨f, rep, hf, hrep, ?_, ?_⟩
  · exact (congrArg CompactFault.exclusion herase).trans hx
  · have hkey : rep.key = rep₀.key := congrArg (fun f => (f.netIndex, f.type)) herase
    rwa [hkey]

/-- No chain leads to an excluded fault. -/
theorem Justified.reaches (h : Justified cg orig faults) {i j : ℕ}
    (hpath : Reaches (collapsedFrom faults) i j)
    (hi : ∃ f, faults[i]? = some f ∧ f.exclusion = .NONE) :
    ∃ f, faults[j]? = some f ∧ f.exclusion = .NONE := by
  induction hpath with
  | refl => exact hi
  | tail _ hstep _ =>
    obtain ⟨-, rep, -, hrep, hx, -⟩ := h.step hstep
    exact ⟨rep, hrep, hx⟩

end

/-- The links of a collapse are well-founded where those of the tables are. -/
theorem Justified.wellFounded {orig faults : List CompactFault}
    (h : Justified g.cg orig faults) (hring : g.cg.Ringless) :
    WellFounded fun j i => collapsedFrom faults i = some j := by
  let key : ℕ → FaultKey := fun i => ((faults[i]?).map CompactFault.key).getD (0, .SA0)
  refine Subrelation.wf (fun {j i} hstep => ?_) (InvImage.wf key (wellFounded_collapses hring))
  obtain ⟨f, rep, hf, hrep, -, hc⟩ := h.step hstep
  simpa [InvImage, key, hf, hrep] using hc

end Collapser

/-- **Every fault is represented by one that counts**, where no gates form a ring: the
chain of `collapsed_into` from a fault that is not excluded ends, at one fault that is
neither collapsed nor excluded. -/
theorem collapse_chain_ends (g : CachedGraph) (opt : EnumeratorOptions) (hring : g.cg.Ringless)
    (i : ℕ) (f : CompactFault)
    (hf : (collapsePrimitiveFaults g.cg (enumerateFaults g.ng g.cg opt))[i]? = some f)
    (hx : f.exclusion = .NONE) :
    ∃! j,
      Reaches (collapsedFrom (collapsePrimitiveFaults g.cg (enumerateFaults g.ng g.cg opt))) i j ∧
      CountedAt (collapsePrimitiveFaults g.cg (enumerateFaults g.ng g.cg opt)) j := by
  have h := justified_collapsePrimitiveFaults g.cg (collapsedInto_enumerateFaults g.ng g.cg opt)
  obtain ⟨j, ⟨hreach, hend⟩, huniq⟩ := existsUnique_end (h.wellFounded hring) i
  refine ⟨j, ⟨hreach, ?_⟩, fun j' ⟨hreach', f', hf', hnone, _⟩ => ?_⟩
  · obtain ⟨rep, hrep, hrx⟩ := h.reaches hreach ⟨f, hf, hx⟩
    rw [collapsedFrom, hrep, Option.bind_some] at hend
    exact ⟨rep, hrep, hend, hrx⟩
  · refine huniq j' ⟨hreach', ?_⟩
    rw [collapsedFrom, hf', Option.bind_some, hnone]

/-- **The fault that counts stands for the whole chain**: where no gates form a ring and the
gate of every collapse is covered, it is detected by the same vectors of one sampled cycle. -/
theorem counted_detects_eq (g : CachedGraph) (opt : EnumeratorOptions) (hring : g.cg.Ringless)
    (hone : g.cg.SingleDriver) (hpi : g.cg.InputsDriven) (faults : List CompactFault)
    (hfaults : collapsePrimitiveFaults g.cg (enumerateFaults g.ng g.cg opt) = faults)
    (hcov : ∀ f ∈ faults, ∀ rep ∈ faults, f.collapsedInto.bind (faults[·]?) = some rep →
      ∀ n ∈ g.cg.nodes, f.netIndex ∈ n.inputNets → CachedGraph.Covered g.cg n f rep)
    (i : ℕ) (f : CompactFault) (hf : faults[i]? = some f) (hx : f.exclusion = .NONE) :
    ∃ j rep, Reaches (collapsedFrom faults) i j ∧ faults[j]? = some rep ∧ CountedAt faults j ∧
      ∀ (vec : TestVector) (c : TestCycle), vec.cyclesFor = [c] → c.sampleOutputs = true →
        Golden.detects g.cg vec f = Golden.detects g.cg vec rep := by
  subst hfaults
  have h := justified_collapsePrimitiveFaults g.cg (collapsedInto_enumerateFaults g.ng g.cg opt)
  obtain ⟨j, ⟨hreach, hend⟩, -⟩ := existsUnique_end (h.wellFounded hring) i
  obtain ⟨rep, hrep, hrx⟩ := h.reaches hreach ⟨f, hf, hx⟩
  rw [collapsedFrom, hrep, Option.bind_some] at hend
  refine ⟨j, rep, hreach, hrep, ⟨rep, hrep, hend, hrx⟩, fun vec c hvec hc => ?_⟩
  clear hend
  -- along the chain, each fault with the next
  induction hreach generalizing rep with
  | refl => rw [Option.some.inj (hf.symm.trans hrep)]
  | tail hreach hstep ih =>
    obtain ⟨f', hf', hj⟩ := Option.bind_eq_some_iff.1 hstep
    obtain ⟨hfx, -, hcollapse⟩ := collapsed_spec (List.mem_of_getElem? hf') hj hrep
    obtain ⟨n, D, htwins, hobs⟩ := CachedGraph.exists_twins hone hpi hfx hrx hcollapse
      (hcov f' (List.mem_of_getElem? hf') rep (List.mem_of_getElem? hrep) (by simp [hj, hrep]))
    exact (ih f' hf' hfx).trans (CachedGraph.detects_twins htwins hobs hvec hc)

/-- A buffer behind an inverter. -/
def inverterBuffer : ParsedModule :=
  .ofCells [("a", 2)] [("y", 4)]
    [("g", .ofPins "INV" [("A", 2), ("Y", 3)]), ("h", .ofPins "BUF" [("A", 3), ("Y", 4)])]

def inverterBufferGraph : CachedGraph :=
  .load inverterBuffer smallCells "fail" ∅ (by decide +kernel) (by decide +kernel)

/-- The chain of the fault on the input ends two gates later. -/
theorem inverterBuffer_chain_ends :
    collapsedFrom (collapsePrimitiveFaults inverterBufferGraph.cg
        (enumerateFaults inverterBufferGraph.ng inverterBufferGraph.cg {})) 0 = some 3 ∧
      ∃! j, Reaches (collapsedFrom (collapsePrimitiveFaults inverterBufferGraph.cg
          (enumerateFaults inverterBufferGraph.ng inverterBufferGraph.cg {}))) 0 j ∧
        CountedAt (collapsePrimitiveFaults inverterBufferGraph.cg
          (enumerateFaults inverterBufferGraph.ng inverterBufferGraph.cg {})) j :=
  ⟨by decide +kernel, collapse_chain_ends inverterBufferGraph {}
    (CompiledSimGraph.ringless_of_rising id (by decide +kernel)) 0
    { netIndex := 0, saMask := 1#64, collapsedInto := some 3 } (by decide +kernel) rfl⟩

/-- The end stands for the fault on the input. -/
theorem inverterBuffer_detects_eq :
    ∃ (j : ℕ) (rep : _), (collapsePrimitiveFaults inverterBufferGraph.cg
        (enumerateFaults inverterBufferGraph.ng inverterBufferGraph.cg {}))[j]? = some rep ∧
      Golden.detects inverterBufferGraph.cg {} { netIndex := 0, saMask := 1#64 } =
        Golden.detects inverterBufferGraph.cg {} rep := by
  obtain ⟨j, rep, -, hrep, -, hdet⟩ := counted_detects_eq inverterBufferGraph {}
    (CompiledSimGraph.ringless_of_rising id (by decide +kernel)) (by decide +kernel)
    (by decide +kernel) _ rfl (by decide +kernel) 0
    { netIndex := 0, saMask := 1#64, collapsedInto := some 3 } (by decide +kernel) rfl
  exact ⟨j, rep, hrep, hdet {} _ rfl rfl⟩

/-- An inverter that reads its own output. -/
def selfInverter : ParsedModule :=
  .ofCells [] [("y", 2)] [("g", .ofPins "INV" [("A", 2), ("Y", 2)])]

def selfInverterGraph : CachedGraph :=
  .load selfInverter smallCells "fail" ∅ (by decide +kernel) (by decide +kernel)

/-- **On a ring nothing counts**: the two faults of the inverter are collapsed into each
other. -/
theorem ring_all_collapsed :
    (collapsePrimitiveFaults selfInverterGraph.cg
        (enumerateFaults selfInverterGraph.ng selfInverterGraph.cg {})).map
      (fun f => (f.exclusion, f.collapsedInto)) = [(.NONE, some 1), (.NONE, some 0)] ∧
    ∀ j, ¬ CountedAt (collapsePrimitiveFaults selfInverterGraph.cg
        (enumerateFaults selfInverterGraph.ng selfInverterGraph.cg {})) j := by
  refine ⟨by decide +kernel, fun j ⟨f, hf, hnone, _⟩ => ?_⟩
  have hall : ∀ f ∈ collapsePrimitiveFaults selfInverterGraph.cg
      (enumerateFaults selfInverterGraph.ng selfInverterGraph.cg {}), f.collapsedInto ≠ none := by
    decide +kernel
  exact hall f (List.mem_of_getElem? hf) hnone

end FaultFlow
