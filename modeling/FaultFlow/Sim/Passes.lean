/-
# The passes of the golden reference as assignments

Every loop of the golden simulator over inputs, flip-flops or nodes is a pass of
assignments (`FaultFlow.Lib.Straight`), in which a fault is a value forced on
whatever is written to its net (`force`).  This file gives the assignment of
each kind of step and the equations that turn the loops into passes, so that
later proofs reason about `Assign.run` alone.
-/

import FaultFlow.Lib.Straight
import FaultFlow.Sim.Golden

namespace FaultFlow

open Lib (Assign)

namespace SimNode

/-- The used slots come before the unused ones, so that packed inputs and inputs
by position are the same. -/
def GapFree (sn : SimNode) : Prop := ∀ s t : Fin 6, s ≤ t → sn.ins s = none → sn.ins t = none

instance (sn : SimNode) : Decidable sn.GapFree :=
  inferInstanceAs (Decidable (∀ s t : Fin 6, s ≤ t → sn.ins s = none → sn.ins t = none))

/-- A wrapper cell. -/
def IsWrapper (sn : SimNode) : Prop := sn.type = .WBR_IN ∨ sn.type = .WBR_OUT

instance (sn : SimNode) : Decidable sn.IsWrapper :=
  inferInstanceAs (Decidable (sn.type = .WBR_IN ∨ sn.type = .WBR_OUT))

/-- Packed inputs read by position, for used slots that come first. -/
theorem getD_filterMap_of_prefix {β : Type*} (f : CompiledNetIndex → β) (d : β) :
    ∀ (l : List (Option CompiledNetIndex)),
      (∀ i j, i ≤ j → l[i]? = some none → j < l.length → l[j]? = some none) → ∀ k,
      ((l.filterMap id).map f).getD k d = (l.map fun o => (o.map f).getD d).getD k d := by
  intro l
  induction l with
  | nil => intro _ k; simp
  | cons o l ih =>
    intro h k
    have htail : ∀ i j, i ≤ j → l[i]? = some none → j < l.length → l[j]? = some none := by
      intro i j hij hi hj
      have := h (i + 1) (j + 1) (by omega) (by simpa using hi) (by simpa using hj)
      simpa using this
    cases o with
    | some n =>
      cases k with
      | zero => simp
      | succ k => simpa using ih htail k
    | none =>
      have hall : ∀ o ∈ l, o = none := by
        intro o ho
        obtain ⟨j, hj, rfl⟩ := List.getElem_of_mem ho
        have := h 0 (j + 1) (by omega) (by simp) (by simpa using hj)
        simpa [hj] using this
      have hnil : l.filterMap id = [] := by
        rw [List.filterMap_eq_nil_iff]
        exact fun o ho => by simp [hall o ho]
      have hd : ∀ k, (l.map fun o => (o.map f).getD d).getD k d = d := by
        intro k
        rw [List.getD_eq_getElem?_getD, List.getElem?_map]
        cases hk : l[k]? with
        | none => rfl
        | some o => simp [hall o (List.mem_of_getElem? hk)]
      rw [List.filterMap_cons_none rfl, hnil]
      cases k with
      | zero => rfl
      | succ k => exact (hd k).symm

theorem getElem?_slots (sn : SimNode) (s : Fin 6) : sn.slots[(s : ℕ)]? = some (sn.ins s) := by
  fin_cases s <;> rfl

/-- Behind an empty slot all slots are empty. -/
theorem GapFree.slots_prefix {sn : SimNode} (h : sn.GapFree) :
    ∀ i j, i ≤ j → sn.slots[i]? = some none → j < sn.slots.length → sn.slots[j]? = some none := by
  intro i j hij hi hj
  have hj6 : j < 6 := hj
  have hi' := sn.getElem?_slots ⟨i, by omega⟩
  have hj' := sn.getElem?_slots ⟨j, hj6⟩
  rw [hi] at hi'
  rw [hj', h ⟨i, by omega⟩ ⟨j, hj6⟩ hij (Option.some.inj hi').symm]

/-- **Without a gap, packing changes nothing.** -/
theorem evalScalar_inputNets {sn : SimNode} (h : sn.GapFree) (type : GateType) (values : Values) :
    evalScalar type (sn.inputNets.map values) =
      evalScalar type (sn.slots.map (slotValue values)) := by
  refine evalScalar_congr type fun k => ?_
  rw [inputNets, getD_filterMap_of_prefix values false _ h.slots_prefix k]
  congr 1
  refine List.map_congr_left fun o _ => ?_
  cases o <;> rfl

end SimNode

namespace Golden

variable (action : CompiledNetIndex → WbrAction) (fault : Option CompactFault)

/-- What a fault makes of a value written to a net. -/
def force (net : CompiledNetIndex) (b : Bool) : Bool :=
  match fault with
  | some f => if f.exclusion = .NONE ∧ f.netIndex = net then f.value else b
  | none => b

/-- Without a fault nothing is forced. -/
@[simp]
theorem force_none (net : CompiledNetIndex) (b : Bool) : force none net b = b := rfl

/-- A fault on another net changes nothing. -/
theorem force_of_ne {f : CompactFault} {net : CompiledNetIndex} (h : f.netIndex ≠ net) (b : Bool) :
    force (some f) net b = b := by
  rw [force, if_neg fun hf => h hf.2]

/-- An active fault sets its own net. -/
theorem force_self {f : CompactFault} (h : f.exclusion = .NONE) (b : Bool) :
    force (some f) f.netIndex b = f.value := by
  rw [force, if_pos ⟨h, rfl⟩]

/-- A write is an update with the forced value. -/
theorem write_eq (fault : Option CompactFault) (values : Values) (net : CompiledNetIndex)
    (b : Bool) : write fault values net b = Function.update values net (force fault net b) := by
  cases fault with
  | none => rfl
  | some f =>
    simp only [write, applyFault, force]
    split
    · rw [Function.update_idem]
    · rfl

/-- The assignment of a known value. -/
def constAssign (net : CompiledNetIndex) (b : Bool) : Assign CompiledNetIndex Bool where
  out := net
  reads := []
  fn _ := force fault net b
  congr _ _ _ := rfl

/-- The nets that decide the value of a node: a control point keeps its own. -/
def nodeReads (sn : SimNode) : List CompiledNetIndex :=
  if sn.IsWrapper ∧ action sn.out = .SKIP_STIMULUS then [sn.out] else sn.inputNets

/-- A slot depends on the input nets only. -/
theorem slotValue_congr {sn : SimNode} {x y : Values} (h : ∀ i ∈ sn.inputNets, x i = y i)
    (s : Fin 6) : slotValue x (sn.ins s) = slotValue y (sn.ins s) := by
  cases hs : sn.ins s with
  | none => rfl
  | some i => exact h i (SimNode.mem_inputNets.2 ⟨s, hs⟩)

/-- The constants are the values of their gate types. -/
theorem plainValue_eq (values : Values) (sn : SimNode) :
    plainValue values sn = evalScalar sn.type (sn.inputNets.map values) := by
  unfold plainValue
  split
  · next h => simp [h, evalScalar, evalBitwise]
  · next h => simp [h, evalScalar, evalBitwise]
  · rfl

/-- So does the value of a gate. -/
theorem plainValue_congr {sn : SimNode} {x y : Values} (h : ∀ i ∈ sn.inputNets, x i = y i) :
    plainValue x sn = plainValue y sn := by
  rw [plainValue_eq, plainValue_eq, List.map_congr_left h]

/-- In a mode it depends on what the mode lets the node read. -/
theorem modeValue_congr {action : CompiledNetIndex → WbrAction} {sn : SimNode} {x y : Values}
    (h : ∀ i ∈ nodeReads action sn, x i = y i) :
    modeValue action x sn = modeValue action y sn := by
  by_cases hskip : sn.IsWrapper ∧ action sn.out = .SKIP_STIMULUS
  · rw [nodeReads, if_pos hskip] at h
    have hw : sn.type = .WBR_IN ∨ sn.type = .WBR_OUT := hskip.1
    simp only [modeValue, if_pos hw, hskip.2]
    exact h sn.out (by simp)
  · rw [nodeReads, if_neg hskip] at h
    by_cases hw : sn.type = .WBR_IN ∨ sn.type = .WBR_OUT
    · simp only [modeValue, if_pos hw]
      cases ha : action sn.out with
      | SKIP_STIMULUS => exact absurd ⟨hw, ha⟩ hskip
      | FORCE_ZERO => rfl
      | DRIVE_FROM_FF => exact slotValue_congr h 1
      | PASS => exact slotValue_congr h 0
    · simp only [modeValue, if_neg hw]
      exact plainValue_congr h

/-- The assignment of a node. -/
def nodeAssign (sn : SimNode) : Assign CompiledNetIndex Bool where
  out := sn.out
  reads := nodeReads action sn
  fn values := force fault sn.out (modeValue action values sn)
  congr _ _ h := by rw [modeValue_congr h]

/-- The pass over the nodes that are evaluated. -/
def nodeAssigns (nodes : List SimNode) : List (Assign CompiledNetIndex Bool) :=
  (nodes.filter fun sn => ¬ sn.IsSource).map (nodeAssign action fault)

/-- The pass that puts the flip-flop states on their outputs. -/
def seedAssigns (cg : CompiledSimGraph) (fault : Option CompactFault) (ffStates : Nat → Bool) :
    List (Assign CompiledNetIndex Bool) :=
  cg.ffs.zipIdx.map fun p => constAssign fault p.1.out (ffStates p.2)

/-- **A loop over nodes is a straight-line pass.** -/
theorem foldl_evalNode_eq_run {value : Values → SimNode → Bool}
    {action : CompiledNetIndex → WbrAction} {fault : Option CompactFault} {nodes : List SimNode}
    (h : ∀ sn ∈ nodes, ∀ x, value x sn = modeValue action x sn) (values : Values) :
    nodes.foldl (evalNode value fault) values = Assign.run (nodeAssigns action fault nodes) values := by
  induction nodes generalizing values with
  | nil => rfl
  | cons sn nodes ih =>
    rw [List.foldl_cons, ih fun sn hsn => h sn (List.mem_cons_of_mem _ hsn)]
    by_cases hs : sn.IsSource
    · simp [nodeAssigns, evalNode, hs]
    · have hv : write fault values sn.out (value values sn) =
          Assign.step values (nodeAssign action fault sn) := by
        rw [write_eq, h sn (by simp)]
        rfl
      simp [nodeAssigns, evalNode, hs, hv]

/-- The loop of `evaluate_combinational`. -/
theorem evaluateCombinational_eq_run (cg : CompiledSimGraph) (values : Values)
    (fault : Option CompactFault) (mc : Option ModeConfig) :
    evaluateCombinational cg values fault mc =
      Assign.run (nodeAssigns (actionOf mc) fault cg.passNodes) values :=
  foldl_evalNode_eq_run (fun _ _ _ => rfl) values

/-- The loop that seeds the outputs of the flip-flops. -/
theorem seedFfOutputs_eq_run (cg : CompiledSimGraph) (ffStates : Nat → Bool) (values : Values)
    (fault : Option CompactFault) :
    seedFfOutputs cg ffStates values fault = Assign.run (seedAssigns cg fault ffStates) values := by
  rw [seedFfOutputs, seedAssigns, Assign.run, List.foldl_map]
  congr 1
  funext v p
  rw [write_eq]
  rfl

/-- The pass of one half of a cycle. -/
def settleAssigns (cg : CompiledSimGraph) (fault : Option CompactFault) (mc : Option ModeConfig)
    (ffStates : Nat → Bool) : List (Assign CompiledNetIndex Bool) :=
  seedAssigns cg fault ffStates ++ nodeAssigns (actionOf mc) fault cg.passNodes

/-- Both loops together. -/
theorem settle_eq_run (cg : CompiledSimGraph) (fault : Option CompactFault)
    (mc : Option ModeConfig) (ffStates : Nat → Bool) (values : Values) :
    settle cg fault mc ffStates values =
      Assign.run (settleAssigns cg fault mc ffStates) values := by
  rw [settle, evaluateCombinational_eq_run, seedFfOutputs_eq_run, settleAssigns,
    Assign.run_append]

/-- The driven nets hold the forced input, the others what they held. -/
theorem driveNets_apply (cg : CompiledSimGraph) (inputs : Std.TreeMap YosysNetID Bool)
    (fault : Option CompactFault) (nets : List CompiledNetIndex) (values : Values)
    (i : CompiledNetIndex) :
    driveNets cg inputs fault nets values i =
      if i ∈ nets then force fault i (inputs.getD (cg.yosysOf i) false) else values i := by
  induction nets generalizing values with
  | nil => simp [driveNets]
  | cons net nets ih =>
    rw [driveNets, List.foldl_cons, ← driveNets, ih, write_eq]
    by_cases hi : i = net
    · subst hi
      simp
    · simp [hi]

end Golden

end FaultFlow
