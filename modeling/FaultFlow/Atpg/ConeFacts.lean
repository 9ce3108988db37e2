/-
# What the cone searches find

The output cone is what the fault reaches through the gates (`isCone_outcone`), and
the support contains it and is closed under fan-in (`backClosed_support`).
-/

import FaultFlow.Atpg.FaultSolver
import FaultFlow.Atpg.Machines

namespace FaultFlow.Atpg

open Lib GraphCompiler

/-- A stack is one order of visiting, as `Search` asks for. -/
theorem perm_cons (t : CompiledNetIndex) (l : List CompiledNetIndex) :
    (List.cons t l).Perm (t :: l) := .refl _

variable {g : CachedGraph}

/-- The targets of a net are nets of the graph. -/
theorem fanoutTargets_lt {i t : CompiledNetIndex} (h : t ∈ fanoutTargets g.cg i) :
    t < g.cg.netCount := by
  obtain ⟨n, hn, -, rfl⟩ := g.mem_fanoutRow.1 h
  exact g.out_lt_netCount hn

/-- The driver index names the driver. -/
theorem driverNode_eq_some_iff (hone : g.cg.SingleDriver) {net : CompiledNetIndex} {n : SimNode} :
    driverNode g.cg g.cg.driverIndex net = some n ↔ n ∈ g.cg.nodes ∧ n.out = net := by
  obtain ⟨hsound, hcomplete⟩ := driverIndex_spec g.cg.netCount g.cg.nodes fun n hn =>
    g.out_lt_netCount hn
  rw [← g.driverIndex_eq] at hsound hcomplete
  unfold driverNode
  constructor
  · intro h
    obtain ⟨d, hd, hn⟩ := Option.bind_eq_some_iff.1 h
    obtain ⟨n', hn', hout⟩ := hsound net d (Option.join_eq_some_iff.1 hd)
    rw [hn] at hn'
    cases hn'
    exact ⟨List.mem_of_getElem? hn, hout⟩
  · rintro ⟨hn, rfl⟩
    obtain ⟨d, hd⟩ := hcomplete n hn
    obtain ⟨n', hn', hout⟩ := hsound n.out d hd
    obtain rfl := hone.eq (List.mem_of_getElem? hn') hn hout
    simp [hd, hn']

/-- With one driver, the inputs of the driver are those of the node that drives the net. -/
theorem mem_driverInputs (hone : g.cg.SingleDriver) {net i : CompiledNetIndex} :
    i ∈ driverInputs g.cg g.cg.driverIndex net ↔ ∃ n ∈ g.cg.nodes, n.out = net ∧ i ∈ n.inputNets := by
  unfold driverInputs
  cases hd : driverNode g.cg g.cg.driverIndex net with
  | none =>
    have hno : ∀ n ∈ g.cg.nodes, n.out ≠ net := fun n hn hout => by
      rw [(driverNode_eq_some_iff hone).2 ⟨hn, hout⟩] at hd
      cases hd
    constructor
    · intro h
      simp at h
    · rintro ⟨n, hn, hout, -⟩
      exact absurd hout (hno n hn)
  | some n =>
    obtain ⟨hn, hout⟩ := (driverNode_eq_some_iff hone).1 hd
    show i ∈ n.inputNets ↔ _
    constructor
    · exact fun hi => ⟨n, hn, hout, hi⟩
    · rintro ⟨n', hn', hout', hi⟩
      rwa [hone.eq hn hn' (hout.trans hout'.symm)]

/-- They are nets of the graph too. -/
theorem driverInputs_lt (hone : g.cg.SingleDriver) {net i : CompiledNetIndex}
    (h : i ∈ driverInputs g.cg g.cg.driverIndex net) : i < g.cg.netCount := by
  obtain ⟨n, hn, -, hi⟩ := (mem_driverInputs hone).1 h
  exact g.reads_lt_netCount hn hi

section Equational

variable (h : g.Equational) {f : CompiledNetIndex} (hf : f < g.cg.netCount)

include h hf in
/-- Whatever order a forward search takes, it finds the nets the fault reaches. -/
theorem forward_spec {put : CompiledNetIndex → List CompiledNetIndex → List CompiledNetIndex}
    (hput : ∀ t l, (put t l).Perm (t :: l)) :
    (search put (fanoutTargets g.cg) g.cg.netCount ⟨[f], [f]⟩).seen.Nodup ∧
      [f] <+: (search put (fanoutTargets g.cg) g.cg.netCount ⟨[f], [f]⟩).seen ∧
      ∀ t, t ∈ (search put (fanoutTargets g.cg) g.cg.netCount ⟨[f], [f]⟩).seen ↔
        Relation.ReflTransGen (Assign.Fans g.cg.gateAssigns) f t := by
  obtain ⟨hnd, hfirst, hmem⟩ := search_spec (U := List.range g.cg.netCount) hput
    (fun _ _ y hy => List.mem_range.2 (fanoutTargets_lt hy)) (List.Perm.refl [f]) (by simp)
    (by simpa using hf) (le_of_eq List.length_range)
  have hrel : (fun a b => b ∈ fanoutTargets g.cg a) = Assign.Fans g.cg.gateAssigns := by
    funext a b
    rw [h.fans_iff]
    exact propext g.mem_fanoutRow
  refine ⟨hnd, hfirst, fun t => ?_⟩
  rw [hmem, hrel]
  simp

include h hf in
/-- A cone names each net once. -/
theorem nodup_outcone : (outcone g.cg f).Nodup := (forward_spec h hf perm_cons).1

include h hf in
/-- **The output cone is the cone of the gates.** -/
theorem isCone_outcone : Assign.IsCone g.cg.gateAssigns f {t | t ∈ outcone g.cg f} :=
  Assign.isCone_reach (forward_spec h hf perm_cons).2.2

/-- The nets of a cone are nets of the graph. -/
theorem lt_of_isCone {O : Set CompiledNetIndex} (hf : f < g.cg.netCount)
    (hO : Assign.IsCone g.cg.gateAssigns f O) {t : CompiledNetIndex} (ht : t ∈ O) :
    t < g.cg.netCount := by
  by_cases hne : t = f
  · rwa [hne]
  · obtain ⟨n, hn, -, rfl⟩ := CompiledSimGraph.mem_outs_gateAssigns.1 (hO.driven t ht hne)
    exact g.out_lt_netCount hn

include h hf in
/-- The support contains the output cone and is closed under fan-in. -/
theorem support_spec :
    (∀ i ∈ outcone g.cg f, i ∈ support g.cg g.cg.driverIndex (outcone g.cg f)) ∧
      Assign.BackClosed g.cg.gateAssigns
        {i | i ∈ support g.cg g.cg.driverIndex (outcone g.cg f)} := by
  obtain ⟨-, hfirst, hmem⟩ := search_spec (U := List.range g.cg.netCount) perm_cons
    (fun _ _ y hy => List.mem_range.2 (driverInputs_lt h.single hy))
    (List.reverse_perm (outcone g.cg f)) (nodup_outcone h hf)
    (fun x hx => List.mem_range.2 (lt_of_isCone hf (isCone_outcone h hf) hx))
    (le_of_eq List.length_range)
  refine ⟨fun i hi => hfirst.subset hi, fun a ha hout i hi => ?_⟩
  obtain ⟨n, hn, -, rfl⟩ := CompiledSimGraph.mem_gateAssigns.1 ha
  obtain ⟨s, hs, hreach⟩ := (hmem n.out).1 hout
  exact (hmem i).2 ⟨s, hs, hreach.tail ((mem_driverInputs h.single).2 ⟨n, hn, rfl, hi⟩)⟩

end Equational

end FaultFlow.Atpg
