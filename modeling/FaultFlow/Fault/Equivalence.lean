/-
# Collapsed faults are detected together

A gate of the tables makes the two faults of a collapse equivalent
(`equivPairs_spec`).  Lifted to the circuit, the two faulty machines agree on every
net but the inputs of the gate (`AgreeOff`), because nothing else reads those
inputs: this holds through every pass of the golden reference (`Twins`), and so the
verdicts agree as long as the inputs are not observed themselves
(`collapsed_detects_eq`).
-/

import FaultFlow.Atpg.Replay
import FaultFlow.Fault.Collapser
import Mathlib.Data.List.NodupEquivFin

namespace FaultFlow

open Lib Collapser

/-! ## The tables -/

/-- The number of inputs that the gates of the tables read. -/
def GateType.arity : GateType → ℕ
  | .INV | .BUF => 1
  | .AND2 | .OR2 | .NAND2 | .NOR2 => 2
  | .AND3 | .OR3 | .NAND3 | .NOR3 | .A21OI | .O21AI | .A21O | .O21A => 3
  | .AND4 | .OR4 | .NAND4 | .NOR4 | .A22OI | .O22AI | .A22O | .O22A => 4
  | _ => 6

/-- The value a fault type forces. -/
def FaultType.value (t : FaultType) : Bool := t != .SA0

@[simp]
theorem value_SA0 : FaultType.SA0.value = false := rfl

@[simp]
theorem value_SA1 : FaultType.SA1.value = true := rfl

/-- The value of a gate from its six slots. -/
def evalSlots (type : GateType) (b : Fin 6 → Bool) : Bool :=
  evalScalar type [b 0, b 1, b 2, b 3, b 4, b 5]

theorem lane_broadcast_zero (b : Bool) : lane 0 (broadcast b) = b := lane_broadcast (by decide) b

/-- **The rule of a primitive gate**: an input at the controlling value decides the
output. -/
theorem equivRuleFor_spec {type : GateType} {rule : EquivRule} (h : equivRuleFor type = some rule)
    {s : Fin 6} (hs : (s : ℕ) < type.arity) (b : Fin 6 → Bool) :
    (rule.collapseSa0 = true → b s = false → evalSlots type b = rule.sa0Target.value) ∧
      (rule.collapseSa1 = true → b s = true → evalSlots type b = rule.sa1Target.value) := by
  unfold equivRuleFor at h
  split at h
  all_goals cases h
  all_goals
    fin_cases s <;> simp_all [GateType.arity, evalSlots, evalScalar_eq_lane, evalBitwise, pick,
      lane_broadcast_zero, lane_not]

/-- Slot values in which the two faults `m` and `r` of a gate are active, equal on
the slots of no fault. -/
structure TwinSlots (m r : CompoundMember) (b b' : Fin 6 → Bool) : Prop where
  left : b m.inputIndex = m.type.value
  right : r.isOutput = false → b' r.inputIndex = r.type.value
  off : ∀ s, s ≠ m.inputIndex → (r.isOutput = false → s ≠ r.inputIndex) → b s = b' s

section Classes

variable {type : GateType} {cls : List CompoundMember} (h : cls ∈ compoundClassesFor type)
  {rep : CompoundMember} (hrep : cls[(cls.findIdx? CompoundMember.isOutput).getD 0]? = some rep)
  {p : CompoundMember × ℕ} (hp : p ∈ cls.zipIdx)
  (hpos : p.2 ≠ (cls.findIdx? CompoundMember.isOutput).getD 0)

include h hrep hp hpos

/-- **The classes of a compound cell** are equivalent to their kept member. -/
theorem compoundClassesFor_spec {b b' : Fin 6 → Bool} (hb : TwinSlots p.1 rep b b') :
    evalSlots type b = if rep.isOutput then rep.type.value else evalSlots type b' := by
  obtain ⟨hleft, hright, hoff⟩ := hb
  have h0 := hoff 0
  have h1 := hoff 1
  have h2 := hoff 2
  have h3 := hoff 3
  clear hoff
  unfold compoundClassesFor at h
  split at h
  all_goals
    simp only [List.mem_cons, List.not_mem_nil, or_false] at h
  all_goals
    rcases h with rfl | rfl <;>
    simp [pin, output, List.findIdx?, List.findIdx?.go] at hp hrep hpos <;>
    casesm* _ ∨ _ <;> subst_vars <;>
    simp_all [evalSlots, evalScalar_eq_lane, evalBitwise, pick, lane_broadcast_zero, lane_not]

/-- A member that is not kept is an input. -/
theorem isOutput_of_mem_class : p.1.isOutput = false := by
  unfold compoundClassesFor at h
  split at h
  all_goals
    simp only [List.mem_cons, List.not_mem_nil, or_false] at h
  all_goals
    rcases h with rfl | rfl <;>
    simp [pin, output, List.findIdx?, List.findIdx?.go] at hp hrep hpos <;>
    casesm* _ ∨ _ <;> subst_vars <;> simp_all

end Classes

/-- **The pairs of the tables are equivalent** on the slots of the gate. -/
theorem equivPairs_spec {type : GateType} {m r : CompoundMember} (hp : (m, r) ∈ equivPairs type) :
    m.isOutput = false ∧ ((m.inputIndex : ℕ) < type.arity → ∀ b b', TwinSlots m r b b' →
      evalSlots type b = if r.isOutput then r.type.value else evalSlots type b') := by
  rcases List.mem_append.1 hp with hp | hp
  · obtain ⟨rule, hrule, hp⟩ := List.mem_flatMap.1 hp
    obtain ⟨s, -, hp⟩ := List.mem_flatMap.1 hp
    rw [Option.mem_toList] at hrule
    rcases List.mem_append.1 hp with hp | hp
    all_goals
      split at hp
      · rename_i hc
        obtain ⟨rfl, rfl⟩ := Prod.mk.inj (List.mem_singleton.1 hp)
        refine ⟨rfl, fun hm b b' hb => ?_⟩
        first
        | exact (equivRuleFor_spec hrule hm b).1 hc hb.left
        | exact (equivRuleFor_spec hrule hm b).2 hc hb.left
      · exact absurd hp List.not_mem_nil
  · obtain ⟨cls, hcls, hp⟩ := List.mem_flatMap.1 hp
    obtain ⟨rep, hrep, hp⟩ := List.mem_flatMap.1 hp
    obtain ⟨q, hq, heq⟩ := List.mem_map.1 hp
    obtain ⟨rfl, rfl⟩ := Prod.mk.inj heq
    obtain ⟨hq, hpos⟩ := List.mem_filter.1 hq
    have hne : q.2 ≠ (cls.findIdx? CompoundMember.isOutput).getD 0 := by simpa using hpos
    exact ⟨isOutput_of_mem_class hcls (Option.mem_toList.1 hrep) hq hne,
      fun _ b b' hb => compoundClassesFor_spec hcls (Option.mem_toList.1 hrep) hq hne hb⟩

/-! ## Two faulty machines -/

namespace Golden

/-- The values agree on every net but those of `D`. -/
def AgreeOff (D : Set CompiledNetIndex) (x y : Values) : Prop := ∀ i ∉ D, x i = y i

/-- Two faults that gate `n` makes equivalent.  The nets of `D` are inputs of `n` that
nothing else reads, the first fault is on one of them, and the second on one of them
or on the output of `n`. -/
structure Twins (cg : CompiledSimGraph) (n : SimNode) (D : Set CompiledNetIndex)
    (fa fb : CompactFault) : Prop where
  mem : n ∈ cg.nodes
  gate : ¬ n.IsSource
  plain : ¬ n.IsWrapper
  single : cg.SingleDriver
  readers : ∀ m ∈ cg.nodes, ∀ i ∈ m.inputNets, i ∈ D → m = n
  inputs : ∀ i ∈ D, i ∈ n.inputNets
  active : fa.exclusion = .NONE ∧ fb.exclusion = .NONE
  left : fa.netIndex ∈ D
  right : fb.netIndex ∈ D ∨ fb.netIndex = n.out
  out : n.out ∉ D
  undriven : n.out ∉ cg.piNets
  early : ∀ i ∈ D, i ∈ cg.piNets ∨ cg.ReadsInOrder i
  value : ∀ x y, AgreeOff D x y → x fa.netIndex = fa.value →
    (fb.netIndex ∈ D → y fb.netIndex = fb.value) →
    plainValue x n = force (some fb) n.out (plainValue y n)

/-- A net keeps the value of its fault through a loop of writes, and has it once it is
written. -/
theorem pinned_writes {α : Type*} {f : CompactFault} (hf : f.exclusion = .NONE) {ws : List α}
    {net : α → CompiledNetIndex} {value : Values → α → Bool} {x : Values}
    (h : x f.netIndex = f.value ∨ ∃ a ∈ ws, net a = f.netIndex) :
    ws.foldl (fun v a => write (some f) v (net a) (value v a)) x f.netIndex = f.value := by
  induction ws generalizing x with
  | nil => exact h.resolve_right (by simp)
  | cons a ws ih =>
    rw [List.foldl_cons]
    refine ih ?_
    by_cases ha : net a = f.netIndex
    · left
      rw [write_eq, ha, Function.update_self, force_self hf]
    · rcases h with h | ⟨b, hb, hnet⟩
      · left
        rw [write_eq, Function.update_of_ne (Ne.symm ha), h]
      · rcases List.mem_cons.1 hb with rfl | hb
        · exact absurd hnet ha
        · exact .inr ⟨b, hb, hnet⟩

theorem pinned_foldl {value : Values → SimNode → Bool} {f : CompactFault}
    (hf : f.exclusion = .NONE) {nodes : List SimNode} {x : Values}
    (h : x f.netIndex = f.value ∨ ∃ w ∈ nodes, ¬ w.IsSource ∧ w.out = f.netIndex) :
    nodes.foldl (evalNode value (some f)) x f.netIndex = f.value := by
  have hskip : nodes.foldl (evalNode value (some f)) x =
      (nodes.filter fun m => ¬ m.IsSource).foldl
        (fun v m => write (some f) v m.out (value v m)) x := by
    rw [List.foldl_filter]
    refine List.foldl_ext _ _ _ fun v m _ => ?_
    by_cases hsrc : m.IsSource <;> simp [evalNode, hsrc]
  rw [hskip]
  refine pinned_writes hf (h.imp_right ?_)
  rintro ⟨w, hw, hsrc, hout⟩
  exact ⟨w, List.mem_filter.2 ⟨hw, by simpa using hsrc⟩, hout⟩

namespace Twins

variable {cg : CompiledSimGraph} {n : SimNode} {D : Set CompiledNetIndex} {fa fb : CompactFault}
  (h : Twins cg n D fa fb)

include h

/-- Off `D` and the gate, neither fault forces anything. -/
theorem force_eq {i : CompiledNetIndex} (hi : i ∉ D) (hne : i ≠ n.out) (b : Bool) :
    force (some fa) i b = b ∧ force (some fb) i b = b := by
  refine ⟨force_of_ne (fun heq : fa.netIndex = i => hi (heq ▸ h.left)) b,
    force_of_ne (fun heq : fb.netIndex = i => ?_) b⟩
  rcases h.right with hD | hout
  · exact hi (heq ▸ hD)
  · exact hne (heq ▸ hout)

theorem ne_out {m : SimNode} (hm : m ∈ cg.nodes) (hne : m ≠ n) : m.out ≠ n.out :=
  fun hout => hne (h.single.eq hm h.mem hout)

/-- A write of equal values keeps the agreement, away from the gate. -/
theorem agreeOff_write {x y : Values} (hxy : AgreeOff D x y) {i : CompiledNetIndex}
    (hne : i ≠ n.out) {a b : Bool} (hab : i ∉ D → a = b) :
    AgreeOff D (write (some fa) x i a) (write (some fb) y i b) := by
  intro j hj
  rw [write_eq, write_eq]
  by_cases hji : j = i
  · subst hji
    rw [Function.update_self, Function.update_self, (h.force_eq hj hne a).1,
      (h.force_eq hj hne b).2, hab hj]
  · rw [Function.update_of_ne hji, Function.update_of_ne hji, hxy j hj]

variable {value : Values → SimNode → Bool}
  (hcongr : ∀ m x y, (∀ i ∈ m.inputNets, x i = y i) → x m.out = y m.out → value x m = value y m)
  (hplain : ∀ x, value x n = plainValue x n)

include hcongr in
/-- The other nodes keep the agreement. -/
theorem agreeOff_foldl {nodes : List SimNode} (hnodes : ∀ m ∈ nodes, m ∈ cg.nodes ∧ m ≠ n)
    {x y : Values} (hxy : AgreeOff D x y) :
    AgreeOff D (nodes.foldl (evalNode value (some fa)) x)
      (nodes.foldl (evalNode value (some fb)) y) := by
  induction nodes generalizing x y with
  | nil => exact hxy
  | cons m nodes ih =>
    obtain ⟨hm, hne⟩ := hnodes m (by simp)
    refine ih (fun k hk => hnodes k (List.mem_cons_of_mem _ hk)) ?_
    by_cases hsrc : m.IsSource
    · rwa [evalNode, evalNode, if_pos hsrc, if_pos hsrc]
    · rw [evalNode, evalNode, if_neg hsrc, if_neg hsrc]
      refine h.agreeOff_write hxy (h.ne_out hm hne) fun hout => ?_
      exact hcongr m x y (fun i hi => hxy i fun hD => hne (h.readers m hm i hi hD)) (hxy _ hout)

/-- A fault on an input of the gate is active when the gate is evaluated. -/
theorem pinned_before {f : CompactFault} (hf : f.exclusion = .NONE) (hD : f.netIndex ∈ D)
    {pre post : List SimNode} (hsplit : cg.nodes = pre ++ n :: post) {x : Values}
    (hx : (f.netIndex ∈ cg.piNets ∨ ∃ w ∈ cg.nodes, w.type = .DFF ∧ w.out = f.netIndex) →
      x f.netIndex = f.value) :
    pre.foldl (evalNode value (some f)) x f.netIndex = f.value := by
  refine pinned_foldl hf ?_
  rcases h.early _ hD with hpi | hord
  · exact .inl (hx (.inl hpi))
  · have hat : (n, pre.length) ∈ cg.nodes.zipIdx := by
      rw [List.mem_zipIdx_iff_getElem?, hsplit]
      simp
    rcases hord _ hat h.gate (h.inputs _ hD) with hff | ⟨w, hw, hgate, hout⟩
    · exact .inl (hx (.inr hff))
    · rw [hsplit, List.take_left] at hw
      exact .inr ⟨w, hw, hgate, hout⟩

include hcongr hplain in
/-- **A pass keeps the agreement.** -/
theorem agreeOff_pass {x y : Values} (hxy : AgreeOff D x y)
    (hx : (fa.netIndex ∈ cg.piNets ∨ ∃ w ∈ cg.nodes, w.type = .DFF ∧ w.out = fa.netIndex) →
      x fa.netIndex = fa.value)
    (hy : fb.netIndex ∈ D →
      (fb.netIndex ∈ cg.piNets ∨ ∃ w ∈ cg.nodes, w.type = .DFF ∧ w.out = fb.netIndex) →
      y fb.netIndex = fb.value) :
    AgreeOff D (cg.nodes.foldl (evalNode value (some fa)) x)
      (cg.nodes.foldl (evalNode value (some fb)) y) := by
  obtain ⟨pre, post, hsplit⟩ := List.append_of_mem h.mem
  have hnd : cg.nodes.Nodup := List.Nodup.of_map _ h.single
  rw [hsplit, List.nodup_append, List.nodup_cons] at hnd
  have hpre : ∀ m ∈ pre, m ∈ cg.nodes ∧ m ≠ n := fun m hm =>
    ⟨by simp [hsplit, hm], hnd.2.2 m hm n (by simp)⟩
  have hpost : ∀ m ∈ post, m ∈ cg.nodes ∧ m ≠ n := fun m hm =>
    ⟨by simp [hsplit, hm], fun heq => hnd.2.1.1 (heq ▸ hm)⟩
  have hbefore := h.agreeOff_foldl hcongr hpre hxy
  have ha : pre.foldl (evalNode value (some fa)) x fa.netIndex = fa.value :=
    h.pinned_before h.active.1 h.left hsplit hx
  have hb : fb.netIndex ∈ D → pre.foldl (evalNode value (some fb)) y fb.netIndex = fb.value :=
    fun hD => h.pinned_before h.active.2 hD hsplit (hy hD)
  rw [hsplit, List.foldl_append, List.foldl_append, List.foldl_cons, List.foldl_cons]
  refine h.agreeOff_foldl hcongr hpost fun i hi => ?_
  rw [evalNode, evalNode, if_neg h.gate, if_neg h.gate, write_eq, write_eq, hplain, hplain]
  by_cases hin : i = n.out
  · subst hin
    rw [Function.update_self, Function.update_self,
      force_of_ne (fun heq : fa.netIndex = n.out => h.out (heq ▸ h.left)),
      h.value _ _ hbefore ha hb]
  · rw [Function.update_of_ne hin, Function.update_of_ne hin, hbefore i hi]

end Twins

/-- What holds between two passes: the values agree, and a fault on an input of the
circuit is active. -/
structure Settled (cg : CompiledSimGraph) (D : Set CompiledNetIndex) (fa fb : CompactFault)
    (x y : Values) : Prop where
  agree : AgreeOff D x y
  left : fa.netIndex ∈ cg.piNets → x fa.netIndex = fa.value
  right : fb.netIndex ∈ cg.piNets → y fb.netIndex = fb.value

end Golden

namespace CachedGraph

open Golden

variable {g : CachedGraph} {n : SimNode} {D : Set CompiledNetIndex} {fa fb : CompactFault}

/-- Driving the inputs. -/
theorem settled_driveNets (h : Twins g.cg n D fa fb) (inputs : Std.TreeMap YosysNetID Bool)
    (x : Values) : Settled g.cg D fa fb (driveNets g.cg inputs (some fa) g.cg.piNets x)
      (driveNets g.cg inputs (some fb) g.cg.piNets x) := by
  refine ⟨fun i hi => ?_, fun hpi => ?_, fun hpi => ?_⟩
  · rw [driveNets_apply, driveNets_apply]
    by_cases hpi : i ∈ g.cg.piNets
    · have hne : i ≠ n.out := fun heq => h.undriven (heq ▸ hpi)
      rw [if_pos hpi, if_pos hpi, (h.force_eq hi hne _).1, (h.force_eq hi hne _).2]
    · rw [if_neg hpi, if_neg hpi]
  · rw [driveNets_apply, if_pos hpi, force_self h.active.1]
  · rw [driveNets_apply, if_pos hpi, force_self h.active.2]

/-- Seeding the flip-flop outputs keeps the agreement, and makes a fault on one of
them active. -/
theorem seedFfOutputs_twins (h : Twins g.cg n D fa fb) {x y : Values} (hxy : AgreeOff D x y)
    (fs : ℕ → Bool) :
    AgreeOff D (seedFfOutputs g.cg fs x (some fa)) (seedFfOutputs g.cg fs y (some fb)) := by
  have hff : ∀ p ∈ g.cg.ffs.zipIdx, p.1.out ≠ n.out := by
    intro p hp hout
    obtain ⟨hmem, htype⟩ := g.mem_ffs.1 (List.fst_mem_of_mem_zipIdx hp)
    exact h.gate (h.single.eq hmem h.mem hout ▸ .inr htype)
  unfold seedFfOutputs
  generalize g.cg.ffs.zipIdx = ps at hff
  induction ps generalizing x y with
  | nil => exact hxy
  | cons p ps ih =>
    exact ih (h.agreeOff_write hxy (hff p (by simp)) fun _ => rfl)
      fun q hq => hff q (List.mem_cons_of_mem _ hq)

theorem pinned_seedFfOutputs {f : CompactFault} (hf : f.exclusion = .NONE) {x : Values} {fs : ℕ → Bool}
    (h : x f.netIndex = f.value ∨ ∃ w ∈ g.cg.nodes, w.type = .DFF ∧ w.out = f.netIndex) :
    seedFfOutputs g.cg fs x (some f) f.netIndex = f.value := by
  refine pinned_writes hf (h.imp_right ?_)
  rintro ⟨w, hw, htype, hout⟩
  obtain ⟨k, hk⟩ := List.getElem?_of_mem (g.mem_ffs.2 ⟨hw, htype⟩)
  exact ⟨(w, k), List.mem_zipIdx_iff_getElem?.2 hk, hout⟩

/-- **One half of a cycle keeps the machines together.** -/
theorem settled_settle (h : Twins g.cg n D fa fb) {x y : Values} (hxy : Settled g.cg D fa fb x y)
    (mc : Option ModeConfig) (fs : ℕ → Bool) :
    Settled g.cg D fa fb (Golden.settle g.cg (some fa) mc fs x)
      (Golden.settle g.cg (some fb) mc fs y) := by
  have hcongr : ∀ (m : SimNode) (x y : Values), (∀ i ∈ m.inputNets, x i = y i) →
      x m.out = y m.out → modeValue (actionOf mc) x m = modeValue (actionOf mc) y m := by
    intro m x y hin hout
    refine modeValue_congr fun i hi => ?_
    unfold nodeReads at hi
    split at hi
    · rw [List.mem_singleton.1 hi, hout]
    · exact hin i hi
  have hplain : ∀ x, modeValue (actionOf mc) x n = plainValue x n := fun x => if_neg h.plain
  have hseed := seedFfOutputs_twins h hxy.agree fs
  unfold Golden.settle evaluateCombinational
  rw [g.passNodes_eq]
  refine ⟨h.agreeOff_pass hcongr hplain hseed ?_ ?_, fun hpi => ?_, fun hpi => ?_⟩
  · exact fun hset => pinned_seedFfOutputs h.active.1 (hset.imp_left hxy.left)
  · exact fun _ hset => pinned_seedFfOutputs h.active.2 (hset.imp_left hxy.right)
  · exact pinned_foldl h.active.1 (.inl (pinned_seedFfOutputs h.active.1 (.inl (hxy.left hpi))))
  · exact pinned_foldl h.active.2 (.inl (pinned_seedFfOutputs h.active.2 (.inl (hxy.right hpi))))

/-- No flip-flop reads an input of the gate, so the next states are the same. -/
theorem updateFfStates_twins (h : Twins g.cg n D fa fb) {x y px py : Values}
    (hxy : AgreeOff D x y) (hp : AgreeOff D px py) (fs : ℕ → Bool) :
    updateFfStates g.cg x px fs = updateFfStates g.cg y py fs := by
  refine List.foldl_ext _ _ _ fun next p hmem => ?_
  obtain ⟨hff, htype⟩ := g.mem_ffs.1 (List.fst_mem_of_mem_zipIdx hmem)
  have hreads : ∀ i ∈ p.1.inputNets, i ∉ D := fun i hi hD =>
    h.gate (h.readers p.1 hff i hi hD ▸ .inr htype)
  have hx : ∀ s, slotValue x (p.1.ins s) = slotValue y (p.1.ins s) :=
    slotValue_congr fun i hi => hxy i (hreads i hi)
  have hpx : ∀ s, slotValue px (p.1.ins s) = slotValue py (p.1.ins s) :=
    slotValue_congr fun i hi => hp i (hreads i hi)
  unfold nextFfState
  simp only [hx, hpx]

/-- **The machines agree after a cycle** from one state. -/
theorem runCycle_twins (h : Twins g.cg n D fa fb) (mc : Option ModeConfig) (st : State)
    (c : TestCycle) : AgreeOff D (runCycle g.cg (some fa) mc st c).values
      (runCycle g.cg (some fb) mc st c).values := by
  unfold runCycle
  cases hactive : c.faultActive with
  | false => exact fun _ _ => rfl
  | true =>
    have hfirst := settled_settle h (settled_driveNets h c.inputs st.values) mc st.ffStates
    have hfs := updateFfStates_twins h hfirst.agree
      (fun _ _ => rfl : AgreeOff D st.prevValues st.prevValues) st.ffStates
    simp only [if_true, broadcastInputs, hfs]
    generalize updateFfStates g.cg _ st.prevValues st.ffStates = fs
    have hsecond := settled_settle h hfirst mc fs
    suffices hloop : ∀ (ks : List ℕ) (x y : Values), Settled g.cg D fa fb x y →
        Settled g.cg D fa fb (ks.foldl (fun v _ => settle g.cg (some fa) mc fs v) x)
          (ks.foldl (fun v _ => settle g.cg (some fb) mc fs v) y) from (hloop _ _ _ hsecond).agree
    intro ks
    induction ks with
    | nil => exact fun _ _ hxy => hxy
    | cons k ks ih => exact fun x y hxy => ih _ _ (settled_settle h hxy mc fs)

/-- The machines agree after the single pass of a combinational circuit. -/
theorem combPass_twins (h : Twins g.cg n D fa fb) (hcomb : g.cg.Combinational) (vec : TestVector) :
    AgreeOff D (combPass g.cg vec (some fa)) (combPass g.cg vec (some fb)) := by
  have hdrive := settled_driveNets h vec.inputs fun _ => false
  have hset : ∀ {i : CompiledNetIndex},
      (i ∈ g.cg.piNets ∨ ∃ w ∈ g.cg.nodes, w.type = .DFF ∧ w.out = i) → i ∈ g.cg.piNets := by
    rintro i (hpi | ⟨w, hw, htype, -⟩)
    · exact hpi
    · exact absurd htype (hcomb w hw)
  have hcongr : ∀ (m : SimNode) (x y : Values), (∀ i ∈ m.inputNets, x i = y i) →
      x m.out = y m.out → plainValue x m = plainValue y m := fun _ _ _ hin _ => plainValue_congr hin
  have hpass := h.agreeOff_pass hcongr (fun _ => rfl) hdrive.agree
    (fun hi => hdrive.left (hset hi)) (fun _ hi => hdrive.right (hset hi))
  rw [combPass, combPass, g.passNodes_eq]
  exact hpass

/-- **Twins are detected together** by every vector of one sampled cycle, if the
inputs of the gate are not observed. -/
theorem detects_twins (h : Twins g.cg n D fa fb) (hobs : ∀ i ∈ D, i ∉ g.cg.observable)
    {vec : TestVector} {c : TestCycle} (hvec : vec.cyclesFor = [c]) (hc : c.sampleOutputs = true) :
    detects g.cg vec fa = detects g.cg vec fb := by
  have hseq : ∀ f : CompactFault, f.exclusion = .NONE → simulateSequenceWithFault g.cg vec f =
      [snapshot g.cg (runCycle g.cg (some f) (sequenceMode g.cg vec)
        { ffStates := initialFfStates g.cg vec } c).values] := by
    intro f hf
    rw [simulateSequenceWithFault_eq g.cg vec hf, hvec, runCycles, if_pos hc, runCycles]
    rfl
  have hagree : ∀ {x y : Values}, AgreeOff D x y → ∀ good,
      isDetected g.cg good (snapshot g.cg x) = isDetected g.cg good (snapshot g.cg y) := by
    intro x y hxy good
    rw [isDetected, isDetected, Bool.eq_iff_iff, List.any_eq_true, List.any_eq_true]
    refine exists_congr fun o => and_congr_right fun ho => ?_
    have hstem := g.isStem_of_observable ho
    rw [g.snapshot_yosysOf hstem, g.snapshot_yosysOf hstem, hxy o fun hD => hobs o hD ho]
  unfold detects simulateWithFault
  by_cases hff : g.cg.ffConfigs ≠ [] ∨ vec.isSequential = true
  · simp only [if_pos hff, hseq fa h.active.1, hseq fb h.active.2, List.getLast?_singleton,
      Option.getD_some]
    exact hagree (runCycle_twins h _ _ c) _
  · have hcomb := g.combinational_of_ffConfigs (not_not.1 (not_or.1 hff).1)
    simp only [if_neg hff, if_neg (not_not.2 h.active.1), if_neg (not_not.2 h.active.2)]
    exact hagree (combPass_twins h hcomb vec) _

/-! ## The faults of a collapse -/

variable {i : CompiledNetIndex}

/-- With one consumer, a net is in one slot of one node. -/
theorem eq_of_fanoutOf (hfan : fanoutOf g.cg i = 1) {n m : SimNode} (hn : n ∈ g.cg.nodes)
    (hm : m ∈ g.cg.nodes) {s t : Fin 6} (hs : n.ins s = some i) (ht : m.ins t = some i) :
    n = m ∧ s = t := by
  -- the row counts every slot of every node
  obtain ⟨pre, post, hsplit⟩ := List.append_of_mem hn
  have hlt := g.reads_lt_netCount hn (SimNode.mem_inputNets.2 ⟨s, hs⟩)
  rw [fanoutOf, g.fanoutRows_getD hlt, hsplit, List.flatMap_append, List.flatMap_cons,
    List.length_append, List.length_append, List.length_map] at hfan
  have hself : 0 < (n.slots.filter fun o => o = some i).length :=
    List.length_pos_of_mem (List.mem_filter.2 ⟨SimNode.mem_slots.2 ⟨s, hs⟩, by simp⟩)
  have hmem : ∀ nodes : List SimNode, m ∈ nodes → 0 < (nodes.flatMap fun sn =>
      (sn.slots.filter fun o => o = some i).map fun _ => sn.out).length := fun nodes hmem =>
    List.length_pos_of_mem (List.mem_flatMap.2 ⟨m, hmem, List.mem_map.2
      ⟨some i, List.mem_filter.2 ⟨SimNode.mem_slots.2 ⟨t, ht⟩, by simp⟩, rfl⟩⟩)
  obtain rfl : n = m := by
    rw [hsplit] at hm
    rcases List.mem_append.1 hm with hpre | hrest
    · have := hmem pre hpre
      omega
    · rcases List.mem_cons.1 hrest with rfl | hpost
      · rfl
      · have := hmem post hpost
        omega
  refine ⟨rfl, ?_⟩
  have hcount : (n.slots.filter fun o => o = some i).length ≤ 1 := by omega
  have hget : ∀ s : Fin 6, n.slots.get s = n.ins s := by
    intro s
    fin_cases s <;> rfl
  by_contra hne
  have hdup : List.Duplicate (some i) n.slots := by
    rcases lt_or_gt_of_ne hne with hlt | hlt
    · exact List.duplicate_iff_exists_distinct_get.2
        ⟨s, t, hlt, by rw [hget, hs], by rw [hget, ht]⟩
    · exact List.duplicate_iff_exists_distinct_get.2
        ⟨t, s, hlt, by rw [hget, ht], by rw [hget, hs]⟩
  have htwo := ((List.duplicate_iff_sublist.1 hdup).filter fun o => o = some i).length_le
  simp only [decide_true, List.filter_cons_of_pos, List.filter_nil, List.length_cons,
    List.length_nil] at htwo
  omega

/-- Without a gap, a used slot is counted by the inputs. -/
theorem lt_length_inputNets (hgap : n.GapFree) {s : Fin 6} (hs : n.ins s = some i) :
    (s : ℕ) < n.inputNets.length := by
  have hsome : ∀ t ≤ s, (n.ins t).isSome = true := by
    intro t ht
    rw [Option.isSome_iff_ne_none]
    intro hnone
    rw [hgap t s ht hnone] at hs
    cases hs
  -- the slots up to `s` are all counted
  have hlen : (n.slots.take (s + 1)).length = s + 1 := by
    have hsix : n.slots.length = 6 := rfl
    rw [List.length_take, hsix]
    omega
  have hprefix : ((n.slots.take (s + 1)).filterMap id).length = s + 1 := by
    rw [List.length_filterMap_eq_countP, List.countP_eq_length.2 fun o ho => ?_, hlen]
    obtain ⟨t, ht⟩ := List.getElem?_of_mem ho
    obtain ⟨hts, -⟩ := List.getElem?_eq_some_iff.1 ht
    rw [hlen] at hts
    rw [List.getElem?_take_of_lt hts, n.getElem?_slots ⟨t, by omega⟩] at ht
    obtain rfl := Option.some.inj ht
    exact hsome ⟨t, by omega⟩ (Nat.lt_succ_iff.1 hts)
  rw [← Nat.succ_le_iff, Nat.succ_eq_add_one, ← hprefix]
  exact ((List.take_sublist _ _).filterMap id).length_le

theorem plainValue_eq_evalSlots (hgap : n.GapFree) (x : Values) :
    plainValue x n = evalSlots n.type fun s => slotValue x (n.ins s) := by
  rw [plainValue_eq, SimNode.evalScalar_inputNets hgap]
  rfl

/-- What the gate of a collapse must be for its tables to apply: its used slots come
first and are no more than its function reads, and the inputs of the pair are not
observed and take their fault before the gate reads them. -/
structure Covered (cg : CompiledSimGraph) (n : SimNode) (f rep : CompactFault) : Prop where
  gapFree : n.GapFree
  arity : n.inputNets.length ≤ n.type.arity
  hidden : ∀ i ∈ [f.netIndex, rep.netIndex], i ∈ n.inputNets → i ∉ cg.observable
  early : ∀ i ∈ [f.netIndex, rep.netIndex], i ∈ n.inputNets → i ∈ cg.piNets ∨ cg.ReadsInOrder i

instance (cg : CompiledSimGraph) (n : SimNode) (f rep : CompactFault) :
    Decidable (Covered cg n f rep) :=
  decidable_of_iff (n.GapFree ∧ n.inputNets.length ≤ n.type.arity ∧
    (∀ i ∈ [f.netIndex, rep.netIndex], i ∈ n.inputNets → i ∉ cg.observable) ∧
    ∀ i ∈ [f.netIndex, rep.netIndex], i ∈ n.inputNets → i ∈ cg.piNets ∨ cg.ReadsInOrder i)
    ⟨fun ⟨h1, h2, h3, h4⟩ => ⟨h1, h2, h3, h4⟩, fun ⟨h1, h2, h3, h4⟩ => ⟨h1, h2, h3, h4⟩⟩

/-- A gate of the tables is no source and no wrapper. -/
theorem not_isSource_of_equivPairs {p : CompoundMember × CompoundMember}
    (hp : p ∈ equivPairs n.type) : ¬ n.IsSource ∧ ¬ n.IsWrapper := by
  constructor
  all_goals
    rintro (htype | htype)
    all_goals
      rw [htype] at hp
      exact absurd hp List.not_mem_nil

/-- A gate that reads a net in order does not drive it. -/
theorem out_ne_of_early (hone : g.cg.SingleDriver) (hpi : g.cg.InputsDriven) (hn : n ∈ g.cg.nodes)
    (hgate : ¬ n.IsSource) (hread : i ∈ n.inputNets)
    (hearly : i ∈ g.cg.piNets ∨ g.cg.ReadsInOrder i) : n.out ≠ i := by
  rintro rfl
  rcases hearly with hmem | hord
  · exact hone.not_gateDriven hpi hmem ⟨n, hn, hgate, rfl⟩
  · obtain ⟨k, hk⟩ := List.getElem?_of_mem hn
    rcases hord (n, k) (List.mem_zipIdx_iff_getElem?.2 hk) hgate hread with
      ⟨w, hw, htype, hout⟩ | ⟨w, hw, -, hout⟩
    · exact hgate (hone.eq hw hn hout ▸ .inr htype)
    · -- the only driver stands before itself
      obtain rfl := hone.eq (List.mem_of_mem_take hw) hn hout
      obtain ⟨j, hj, hjk⟩ := List.mem_take_iff_getElem.1 hw
      have hnd : g.cg.nodes.Nodup := List.Nodup.of_map _ hone
      have hlt := lt_of_lt_of_le hj (min_le_left _ _)
      obtain ⟨hkl, hkeq⟩ := List.getElem?_eq_some_iff.1 hk
      exact absurd ((hnd.getElem_inj_iff).1 (hjk.trans hkeq.symm)) hlt.ne

/-- **The faults of a collapse are twins.** -/
theorem exists_twins (hone : g.cg.SingleDriver) (hpi : g.cg.InputsDriven) {f rep : CompactFault}
    (hf : f.exclusion = .NONE) (hrep : rep.exclusion = .NONE) (hc : Collapses g.cg f.key rep.key)
    (hcov : ∀ n ∈ g.cg.nodes, f.netIndex ∈ n.inputNets → Covered g.cg n f rep) :
    ∃ n D, Twins g.cg n D f rep ∧ ∀ i ∈ D, i ∉ g.cg.observable := by
  obtain ⟨n, hn, ⟨m, r⟩, hp, ⟨hmnet, hmtype, hmfan⟩, hrnet, hrtype, hrfan⟩ := hc
  obtain ⟨hin, hspec⟩ := equivPairs_spec hp
  obtain ⟨hgate, hwrapper⟩ := not_isSource_of_equivPairs hp
  have hmvalue : f.value = m.type.value := congrArg FaultType.value hmtype.symm
  have hrvalue : rep.value = r.type.value := congrArg FaultType.value hrtype.symm
  have hmslot : n.ins m.inputIndex = some f.netIndex := by
    rwa [netOf, if_neg (by simp [hin])] at hmnet
  have hrslot : r.isOutput = false → n.ins r.inputIndex = some rep.netIndex := by
    intro hr
    rwa [netOf, if_neg (by simp [hr])] at hrnet
  have hcov := hcov n hn (SimNode.mem_inputNets.2 ⟨_, hmslot⟩)
  let D : Set CompiledNetIndex := {i | i = f.netIndex ∨ (r.isOutput = false ∧ i = rep.netIndex)}
  -- the nets of `D` are inputs of the gate with no other consumer
  have hslots : ∀ i ∈ D, i ∈ [f.netIndex, rep.netIndex] ∧ fanoutOf g.cg i = 1 ∧
      i ∈ n.inputNets := by
    rintro i (rfl | ⟨hr, rfl⟩)
    · exact ⟨by simp, hmfan hin, SimNode.mem_inputNets.2 ⟨_, hmslot⟩⟩
    · exact ⟨by simp, hrfan hr, SimNode.mem_inputNets.2 ⟨_, hrslot hr⟩⟩
  have hearly : ∀ i ∈ D, i ∈ g.cg.piNets ∨ g.cg.ReadsInOrder i := fun i hi =>
    hcov.early i (hslots i hi).1 (hslots i hi).2.2
  have hout : n.out ∉ D := fun hD =>
    out_ne_of_early hone hpi hn hgate (hslots _ hD).2.2 (hearly _ hD) rfl
  refine ⟨n, D, ⟨hn, hgate, hwrapper, hone, ?_, fun i hi => (hslots i hi).2.2, ⟨hf, hrep⟩, .inl rfl,
    ?_, hout, ?_, hearly, ?_⟩, fun i hi => hcov.hidden i (hslots i hi).1 (hslots i hi).2.2⟩
  · intro k hk i hi hD
    obtain ⟨s, hs⟩ := SimNode.mem_inputNets.1 hi
    obtain ⟨t, ht⟩ := SimNode.mem_inputNets.1 (hslots i hD).2.2
    exact (eq_of_fanoutOf (hslots i hD).2.1 hk hn hs ht).1
  · cases hr : r.isOutput with
    | false => exact .inl (.inr ⟨hr, rfl⟩)
    | true =>
      rw [netOf, if_pos hr] at hrnet
      exact .inr (Option.some.inj hrnet).symm
  · exact fun hmem => hone.not_gateDriven hpi hmem ⟨n, hn, hgate, rfl⟩
  · intro x y hxy hx hy
    have htwin : TwinSlots m r (fun s => slotValue x (n.ins s)) fun s => slotValue y (n.ins s) := by
      refine ⟨?_, fun hr => ?_, fun s hsm hsr => ?_⟩
      · simp only [hmslot, slotValue, hx, hmvalue]
      · simp only [hrslot hr, slotValue, hy (.inr ⟨hr, rfl⟩), hrvalue]
      · cases hs : n.ins s with
        | none => rfl
        | some i =>
          refine hxy i ?_
          rintro (rfl | ⟨hr, rfl⟩)
          · exact hsm (eq_of_fanoutOf (hmfan hin) hn hn hs hmslot).2
          · exact hsr hr (eq_of_fanoutOf (hrfan hr) hn hn hs (hrslot hr)).2
    have harity : (m.inputIndex : ℕ) < n.type.arity :=
      lt_of_lt_of_le (lt_length_inputNets hcov.gapFree hmslot) hcov.arity
    rw [plainValue_eq_evalSlots hcov.gapFree, plainValue_eq_evalSlots hcov.gapFree,
      hspec harity _ _ htwin]
    cases hr : r.isOutput with
    | false =>
      have hne : rep.netIndex ≠ n.out := fun heq => hout (heq ▸ .inr ⟨hr, rfl⟩)
      rw [force_of_ne hne]
      rfl
    | true =>
      rw [netOf, if_pos hr] at hrnet
      rw [show n.out = rep.netIndex from Option.some.inj hrnet, force_self hrep, if_pos rfl, hrvalue]

end CachedGraph

/-- **Collapsed faults are detected together** by every vector of one sampled cycle,
when every net has one driver and the gate between the two faults is covered. -/
theorem collapsed_detects_eq (g : CachedGraph) (opt : EnumeratorOptions) (f rep : CompactFault)
    (r : ℕ) (hf : f ∈ collapsePrimitiveFaults g.cg (enumerateFaults g.ng g.cg opt))
    (hr : f.collapsedInto = some r)
    (hrep : (collapsePrimitiveFaults g.cg (enumerateFaults g.ng g.cg opt))[r]? = some rep)
    (hone : g.cg.SingleDriver) (hpi : g.cg.InputsDriven)
    (hcov : ∀ n ∈ g.cg.nodes, f.netIndex ∈ n.inputNets → CachedGraph.Covered g.cg n f rep)
    (vec : TestVector) (c : TestCycle) (hvec : vec.cyclesFor = [c]) (hc : c.sampleOutputs = true) :
    Golden.detects g.cg vec f = Golden.detects g.cg vec rep := by
  obtain ⟨hfx, hrx, hcollapse⟩ := collapsed_spec hf hr hrep
  obtain ⟨n, D, htwins, hobs⟩ := CachedGraph.exists_twins hone hpi hfx hrx hcollapse hcov
  exact CachedGraph.detects_twins htwins hobs hvec hc

/-- Two AND gates in a row; the net between them is an output if `observed` holds. -/
def andChain (observed : Bool) : ParsedModule :=
  .ofCells [("a", 2), ("b", 3), ("c", 4)]
    ((if observed then [("x", 5)] else []) ++ [("y", 6)])
    [("g", .ofPins "AND2" [("A", 2), ("B", 3), ("Y", 5)]),
     ("h", .ofPins "AND2" [("A", 5), ("B", 4), ("Y", 6)])]

def hiddenChain : CachedGraph :=
  .load (andChain false) smallCells "fail" ∅ (by decide +kernel) (by decide +kernel)

def observedChain : CachedGraph :=
  .load (andChain true) smallCells "fail" ∅ (by decide +kernel) (by decide +kernel)

/-- The faults of the net between the gates and of the output, as the collapser
leaves them. -/
def middleFault : CompactFault := { netIndex := 3, saMask := 1#64, collapsedInto := some 8 }

@[inherit_doc middleFault]
def outputFault : CompactFault := { netIndex := 4, saMask := 1#64 }

/-- Both inputs of the first gate high, the other input of the second gate low. -/
def firstHigh : TestVector := { inputs := Std.TreeMap.ofList [((2 : YosysNetID), true), (3, true)] }

theorem hiddenChain_detects_eq :
    middleFault ∈ collapsePrimitiveFaults hiddenChain.cg
        (enumerateFaults hiddenChain.ng hiddenChain.cg {}) ∧
      Golden.detects hiddenChain.cg firstHigh middleFault =
        Golden.detects hiddenChain.cg firstHigh outputFault :=
  ⟨by decide +kernel, collapsed_detects_eq hiddenChain {} middleFault outputFault 8
    (by decide +kernel) rfl (by decide +kernel) (by decide +kernel) (by decide +kernel)
    (by decide +kernel) firstHigh _ rfl rfl⟩

/-- An observed input of a gate shows its own fault when the other input masks that
of the output. -/
theorem observedChain_detects_ne :
    observedChain.ng.Acyclic ∧ observedChain.cg.SingleDriver ∧
      middleFault ∈ collapsePrimitiveFaults observedChain.cg
        (enumerateFaults observedChain.ng observedChain.cg {}) ∧
      (collapsePrimitiveFaults observedChain.cg
        (enumerateFaults observedChain.ng observedChain.cg {}))[8]? = some outputFault ∧
      Golden.detects observedChain.cg firstHigh middleFault = true ∧
      Golden.detects observedChain.cg firstHigh outputFault = false :=
  ⟨observedChain.levelized.acyclic_iff.2 (by decide +kernel), by decide +kernel, by decide +kernel,
    by decide +kernel, by decide +kernel, by decide +kernel⟩

end FaultFlow
