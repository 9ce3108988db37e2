/-
# What the structure says about a fault

`structural_reason` of `src/core/atpg/cone.cpp`, as `compute_fault_structural_reasons` calls it: does
the site of a fault reach an observation point, and is it reached from an input.  The report calls
a site that no input reaches structurally uncontrollable.

Such a site has one value, whatever the vector (`combPass_fixed`), so the fault that holds it at
that value is never detected (`uncontrollable_undetected`).  The other one may well be: a net that
is tied to `1` shows its stuck-at-0 fault to every vector (`tiedBuffer_detected`).

A vector of flags is the list of the nets that are flagged.
-/

import FaultFlow.Atpg.Replay

namespace FaultFlow.Atpg

open Lib GraphCompiler

/-- `FaultStructuralReason`. -/
structure FaultStructuralReason where
  reachesObservable : Bool
  reachableFromPi : Bool
deriving DecidableEq, Repr

variable (cg : CompiledSimGraph)

/-- `structural_reason`. -/
def structuralReason (faultNet : CompiledNetIndex) (driver : List (Option ℕ))
    (observable controllable : List CompiledNetIndex) : FaultStructuralReason where
  reachesObservable := decide (faultNet ∈ observable) ||
    finds (fun net => net ∈ observable) List.cons (fanoutTargets cg) cg.netCount
      ⟨[faultNet], [faultNet]⟩
  reachableFromPi := decide (faultNet ∈ controllable) ||
    finds (fun net => net ∈ controllable) List.cons (driverInputs cg driver) cg.netCount
      ⟨[faultNet], [faultNet]⟩

/-- One entry of `compute_fault_structural_reasons`; an unknown net is given no reason. -/
def faultStructuralReason (net : ℤ) : FaultStructuralReason :=
  if 0 ≤ net ∧ net < cg.netCount then
    structuralReason cg net.toNat (buildDriverIndex cg)
      (cg.observable.filter fun o => o < cg.netCount)
      ((cg.piNets ++ cg.pseudoPiNets).filter fun p => p < cg.netCount)
  else ⟨true, true⟩

variable {g : CachedGraph}

/-! ## The searches -/

/-- A search from one net that finds none of some nets reaches none. -/
theorem not_mem_of_finds {S : List CompiledNetIndex}
    {next : CompiledNetIndex → List CompiledNetIndex} {f n : ℕ} (hf : f < n)
    (hnext : ∀ x, ∀ y ∈ next x, y < n)
    (h : (decide (f ∈ S) || finds (fun net => net ∈ S) List.cons next n ⟨[f], [f]⟩) = false) :
    ∀ x, Relation.ReflTransGen (fun a b => b ∈ next a) f x → x ∉ S := by
  obtain ⟨hself, hfind⟩ := Bool.or_eq_false_iff.1 h
  have hseed : ∀ x ∈ (SearchState.mk [f] [f]).seen, ¬ decide (x ∈ S) = true := by
    intro x hx
    rw [List.mem_singleton.1 hx, hself]
    exact Bool.false_ne_true
  obtain ⟨-, -, hmem⟩ := search_spec (U := List.range n) perm_cons
    (fun _ _ y hy => List.mem_range.2 (hnext _ y hy)) (List.Perm.refl [f]) (by simp)
    (by simpa using hf) (le_of_eq List.length_range)
  intro x hx hS
  have hsome : finds (fun net => net ∈ S) List.cons next n ⟨[f], [f]⟩ = true :=
    (finds_iff hseed).2 ⟨x, (hmem x).2 ⟨f, by simp, hx⟩, decide_eq_true hS⟩
  rw [hfind] at hsome
  cases hsome

/-- The nets that the search for a controllable point goes through. -/
def Upstream (f : CompiledNetIndex) (i : CompiledNetIndex) : Prop :=
  Relation.ReflTransGen (fun a b => b ∈ driverInputs cg cg.driverIndex a) f i

/-- The nets that the search for an observation point goes through. -/
def Downstream (f : CompiledNetIndex) (i : CompiledNetIndex) : Prop :=
  Relation.ReflTransGen (fun a b => b ∈ fanoutTargets cg a) f i

variable {f : CompiledNetIndex}

theorem faultStructuralReason_eq (hf : f < g.cg.netCount) :
    faultStructuralReason g.cg f = structuralReason g.cg f g.cg.driverIndex
      (g.cg.observable.filter fun o => o < g.cg.netCount)
      ((g.cg.piNets ++ g.cg.pseudoPiNets).filter fun p => p < g.cg.netCount) := by
  rw [faultStructuralReason, if_pos ⟨Int.natCast_nonneg f, by exact_mod_cast hf⟩, Int.toNat_natCast,
    g.driverIndex_eq]
  rfl

variable {i : CompiledNetIndex}

/-- Nothing upstream of an uncontrollable site is an input. -/
theorem not_mem_piNets_of_upstream (hone : g.cg.SingleDriver) (hf : f < g.cg.netCount)
    (h : (faultStructuralReason g.cg f).reachableFromPi = false) (hi : Upstream g.cg f i) :
    i ∉ g.cg.piNets := by
  rw [faultStructuralReason_eq hf] at h
  have hnot := not_mem_of_finds hf (fun _ _ hy => driverInputs_lt hone hy) h i hi
  have hlt : i < g.cg.netCount := by
    rcases Relation.ReflTransGen.cases_tail hi with rfl | ⟨b, -, hb⟩
    · exact hf
    · exact driverInputs_lt hone hb
  intro hpi
  simp [hpi, hlt] at hnot

/-- No observation point is downstream of a site that reaches none. -/
theorem not_mem_observable_of_downstream (hf : f < g.cg.netCount)
    (h : (faultStructuralReason g.cg f).reachesObservable = false) (hi : Downstream g.cg f i) :
    i ∉ g.cg.observable := by
  rw [faultStructuralReason_eq hf] at h
  have hnot := not_mem_of_finds hf (fun _ _ hy => fanoutTargets_lt hy) h i hi
  intro ho
  simp [ho, lt_of_mem_observable ho] at hnot

/-! ## Two passes -/

variable {nodes : List SimNode}

/-- Passes that start alike on some nets, where a gate that drives one of them reads only such nets
and the faults are elsewhere, stay alike there. -/
theorem foldl_evalNode_agree {S : CompiledNetIndex → Prop} {fault fault' : Option CompactFault}
    (hreads : ∀ n ∈ nodes, S n.out → ∀ i ∈ n.inputNets, S i)
    (hforce : ∀ i b, S i → Golden.force fault i b = Golden.force fault' i b) {v v' : Values}
    (hv : ∀ i, S i → v i = v' i) :
    ∀ i, S i → nodes.foldl (Golden.evalNode Golden.plainValue fault) v i =
      nodes.foldl (Golden.evalNode Golden.plainValue fault') v' i := by
  induction nodes generalizing v v' with
  | nil => exact hv
  | cons n nodes ih =>
    refine ih (fun n hn => hreads n (List.mem_cons_of_mem _ hn)) fun i hi => ?_
    unfold Golden.evalNode
    split
    · exact hv i hi
    · rw [Golden.write_eq, Golden.write_eq]
      by_cases heq : i = n.out
      · subst heq
        have hvalue : Golden.plainValue v n = Golden.plainValue v' n :=
          Golden.plainValue_congr fun j hj => hv j (hreads n List.mem_cons_self hi j hj)
        rw [Function.update_self, Function.update_self, hvalue, hforce _ _ hi]
      · rw [Function.update_of_ne heq, Function.update_of_ne heq]
        exact hv i hi

/-- A pass leaves a net alone that none of its nodes drives. -/
theorem foldl_evalNode_of_not_out (h : ∀ n ∈ nodes, n.out ≠ i) (v : Values) :
    nodes.foldl (Golden.evalNode Golden.plainValue none) v i = v i := by
  refine foldl_invariant (fun x : Values => x i = v i) rfl fun n hn x hx => ?_
  unfold Golden.evalNode
  split
  · exact hx
  · rw [Golden.write_eq, Function.update_of_ne (h n hn).symm]
    exact hx

/-- A fault at a net that is written once, with the value the fault holds it at, changes nothing. -/
theorem foldl_evalNode_fault (hnd : (nodes.map SimNode.out).Nodup) {fault : CompactFault}
    {v : Values}
    (hvalue : nodes.foldl (Golden.evalNode Golden.plainValue none) v fault.netIndex = fault.value) :
    nodes.foldl (Golden.evalNode Golden.plainValue (some fault)) v =
      nodes.foldl (Golden.evalNode Golden.plainValue none) v := by
  induction nodes generalizing v with
  | nil => rfl
  | cons n nodes ih =>
    obtain ⟨hnew, hnd⟩ := List.nodup_cons.1 hnd
    rw [List.foldl_cons] at hvalue
    have hstep : Golden.evalNode Golden.plainValue (some fault) v n =
        Golden.evalNode Golden.plainValue none v n := by
      by_cases hsource : n.IsSource
      · rw [Golden.evalNode, if_pos hsource, Golden.evalNode, if_pos hsource]
      rw [Golden.evalNode, if_neg hsource] at hvalue ⊢
      rw [Golden.evalNode, if_neg hsource, Golden.write_eq, Golden.write_eq]
      by_cases hout : fault.netIndex = n.out
      · -- nothing writes the net later
        rw [foldl_evalNode_of_not_out (fun m hm hmout =>
          hnew (List.mem_map.2 ⟨m, hm, hmout.trans hout⟩)), Golden.write_eq, hout,
          Function.update_self, Golden.force_none] at hvalue
        rw [Golden.force, hvalue, ite_self, Golden.force_none]
      · rw [Golden.force_of_ne hout, Golden.force_none]
    rw [List.foldl_cons, List.foldl_cons, hstep, ih hnd hvalue]

/-- **The value of an uncontrollable site is the same for all vectors.** -/
theorem combPass_fixed (hone : g.cg.SingleDriver) (hf : f < g.cg.netCount)
    (h : (faultStructuralReason g.cg f).reachableFromPi = false) (vec vec' : TestVector) :
    Golden.combPass g.cg vec none f = Golden.combPass g.cg vec' none f := by
  unfold Golden.combPass
  refine foldl_evalNode_agree (S := Upstream g.cg f) ?_ (fun _ _ _ => rfl) ?_ f .refl
  · intro n hn hout i hi
    rw [g.passNodes_eq] at hn
    exact hout.tail ((mem_driverInputs hone).2 ⟨n, hn, rfl, hi⟩)
  · intro i hi
    have hpi := not_mem_piNets_of_upstream hone hf h hi
    rw [Golden.driveNets_apply, Golden.driveNets_apply, if_neg hpi, if_neg hpi]

/-- **An uncontrollable site has one value**, and no vector detects the fault that holds the site
at it.  If the site reaches no observation point, no vector detects the other one either. -/
theorem uncontrollable_undetected (hcomb : g.cg.Combinational) (hone : g.cg.SingleDriver)
    (hf : f < g.cg.netCount) (h : (faultStructuralReason g.cg f).reachableFromPi = false) :
    ∃ b, (∀ vec, Golden.combPass g.cg vec none f = b) ∧
      ∀ fault : CompactFault, fault.netIndex = f → fault.exclusion = .NONE →
        fault.value = b ∨ (faultStructuralReason g.cg f).reachesObservable = false →
        ∀ vec : TestVector, vec.cycles = [] → Golden.detects g.cg vec fault = false := by
  refine ⟨Golden.combPass g.cg {} none f, fun vec => combPass_fixed hone hf h vec {}, ?_⟩
  rintro fault rfl hexcl hcase vec hvec
  have hpi : fault.netIndex ∉ g.cg.piNets := not_mem_piNets_of_upstream hone hf h .refl
  -- the inputs are driven alike
  have hdrive : Golden.driveNets g.cg vec.inputs (some fault) g.cg.piNets (fun _ => false) =
      Golden.driveNets g.cg vec.inputs none g.cg.piNets fun _ => false := by
    funext i
    rw [Golden.driveNets_apply, Golden.driveNets_apply]
    split
    · rw [Golden.force_of_ne fun heq => hpi (heq ▸ ‹_›), Golden.force_none]
    · rfl
  have hsame : ∀ o ∈ g.cg.observable,
      Golden.combPass g.cg vec none o = Golden.combPass g.cg vec (some fault) o := by
    intro o ho
    unfold Golden.combPass
    rw [hdrive]
    rcases hcase with hvalue | hblind
    · rw [foldl_evalNode_fault]
      · rw [g.passNodes_eq]
        exact hone
      · rw [hvalue]
        exact combPass_fixed hone hf h vec {}
    · refine foldl_evalNode_agree (S := fun i => ¬ Downstream g.cg fault.netIndex i) ?_ ?_
        (fun _ _ => rfl) o ?_
      · intro n hn hout i hi hdown
        rw [g.passNodes_eq] at hn
        exact hout (hdown.tail (g.mem_fanoutRow.2 ⟨n, hn, hi, rfl⟩))
      · intro i b hi
        rw [Golden.force_of_ne fun heq => hi (heq ▸ .refl), Golden.force_none]
      · exact fun hdown => not_mem_observable_of_downstream hf hblind hdown ho
  rw [g.detects_eq hcomb hvec hexcl, List.any_eq_false]
  intro o ho
  rw [hsame o ho]
  simp

/-- A buffer behind the constant `1`, beside an input that is read by nothing else. -/
def tiedBuffer : CachedGraph :=
  .load (.ofCells [("a", 2)] [("y", 3), ("z", 4)]
      [("b", .ofPins "BUF" [("A", const1NetId), ("Y", 3)]), ("c", .ofPins "BUF" [("A", 2), ("Y", 4)])])
    smallCells "fail" ∅ (by decide +kernel) (by decide +kernel)

/-- The fault that holds the tied net at `1`, and the one that holds it at `0`. -/
def tiedFault (type : FaultType) : CompactFault :=
  { netIndex := tiedBuffer.cg.yosysToCompiled.getD 3 0, type := type }

theorem tiedBuffer_undetected :
    Golden.detects tiedBuffer.cg {} (tiedFault .SA1) = false := by
  obtain ⟨b, hb, hundetected⟩ := uncontrollable_undetected (g := tiedBuffer)
    (f := tiedBuffer.cg.yosysToCompiled.getD 3 0) (by decide +kernel) (by decide +kernel)
    (by decide +kernel) (by decide +kernel)
  have hone : Golden.combPass tiedBuffer.cg {} none (tiedBuffer.cg.yosysToCompiled.getD 3 0) = true := by
    decide +kernel
  exact hundetected (tiedFault .SA1) rfl rfl (.inl ((hb {}).symm.trans hone).symm) {} rfl

/-- **Every vector detects the other fault** of the tied net, which no input reaches. -/
theorem tiedBuffer_detected :
    faultStructuralReason tiedBuffer.cg (tiedFault .SA0).netIndex = ⟨true, false⟩ ∧
      (tiedFault .SA0).exclusion = .NONE ∧
      ∀ a : Bool, Golden.detects tiedBuffer.cg
        { inputs := Std.TreeMap.ofList [((2 : YosysNetID), a)] } (tiedFault .SA0) = true := by
  decide +kernel

end FaultFlow.Atpg
