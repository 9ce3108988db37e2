/-
# The inputs and the nets of the normalized graph

`from_parsed` collects the primary inputs from the ports (`mem_PIs`) and the
pseudo-inputs from the output pins of the blackboxed instances (`mem_pseudoInputs`).
Every net it creates is a bit of the netlist (`mem_bits`).
-/

import FaultFlow.IR.GraphCache

namespace FaultFlow

open Std (TreeMap TreeSet)

/-- The bits of a cell. -/
def ParsedCell.bits (cell : ParsedCell) : List YosysNetID := cell.conns.toList.flatMap Prod.snd

/-- The bits of a netlist: those of its net names, its ports and its cells. -/
def ParsedModule.bits (mod : ParsedModule) : List YosysNetID :=
  mod.netnames.toList.flatMap Prod.snd ++ mod.ports.toList.flatMap (fun p => p.2.bits) ++
    mod.cells.toList.flatMap fun p => p.2.bits

/-- The net of a connected pin is a bit of the cell. -/
theorem ParsedCell.mem_bits_of_front {cell : ParsedCell} {pin : String} {y : YosysNetID}
    (h : cell.front? pin = some y) : y ∈ cell.bits := by
  obtain ⟨bits, hbits, hhead⟩ := Option.bind_eq_some_iff.1 h
  exact List.mem_flatMap.2 ⟨(pin, bits), TreeMap.mem_toList_iff_getElem?_eq_some.2 hbits,
    List.mem_of_mem_head? hhead⟩

namespace NormalizedGraph

/-- A step that leaves the inputs alone and creates nets among `bits` only. -/
structure Keeps (bits : List YosysNetID) (ng ng' : NormalizedGraph) : Prop where
  pis : ng'.PIs = ng.PIs
  pseudo : ng'.pseudoInputs = ng.pseudoInputs
  nets : ∀ y, y ∈ ng'.nets → y ∈ ng.nets ∨ y ∈ bits

namespace Keeps

variable {bits : List YosysNetID} {ng ng' ng'' : NormalizedGraph}

/-- Doing nothing keeps the other nets. -/
theorem refl (bits : List YosysNetID) (ng : NormalizedGraph) : Keeps bits ng ng :=
  ⟨rfl, rfl, fun _ h => .inl h⟩

/-- Two steps keep what each of them keeps. -/
theorem trans (h : Keeps bits ng ng') (h' : Keeps bits ng' ng'') : Keeps bits ng ng'' :=
  ⟨h'.pis.trans h.pis, h'.pseudo.trans h.pseudo, fun y hy => (h'.nets y hy).elim (h.nets y) .inr⟩

/-- A loop keeps what each of its steps keeps. -/
theorem foldl {α : Type} {f : NormalizedGraph → α → NormalizedGraph} {l : List α}
    (hf : ∀ a ∈ l, ∀ ng, Keeps bits ng (f ng a)) (ng : NormalizedGraph) :
    Keeps bits ng (l.foldl f ng) :=
  Lib.foldl_invariant (Keeps bits ng) (refl bits ng) fun a ha c hc => hc.trans (hf a ha c)

/-- An update of one of the nets. -/
theorem updNet {bit : YosysNetID} (hbit : bit ∈ bits) (ng : NormalizedGraph)
    (f : NormNet → NormNet) : Keeps bits ng (ng.updNet bit f) := by
  refine ⟨rfl, rfl, fun y hy => ?_⟩
  rcases mem_updNet.1 hy with rfl | hy
  · exact .inr hbit
  · exact .inl hy

/-- A step under a condition. -/
theorem ite {c : Prop} [Decidable c] (h : c → Keeps bits ng ng') :
    Keeps bits ng (if c then ng' else ng) := by
  split
  · rename_i hc
    exact h hc
  · exact refl bits ng

/-- A clock or reset name tags its own net only. -/
theorem tagSpecialNet {bit : YosysNetID} (hbit : bit ∈ bits) (ng : NormalizedGraph)
    (name : String) : Keeps bits ng (ng.tagSpecialNet bit name) :=
  (ite fun _ => updNet hbit ng _).trans (ite fun _ => updNet hbit _ _)

/-- The connections of a cell are bits of it. -/
theorem ensureConns (cell : ParsedCell) (ng : NormalizedGraph) :
    Keeps cell.bits ng (ensureConns cell ng) := by
  refine foldl (fun p hp ng => ?_) ng
  exact foldl (fun bit hbit ng => updNet (List.mem_flatMap.2 ⟨p, hp, hbit⟩) ng _) ng

/-- A blackboxed cell touches its own nets only. -/
theorem blackboxByDirection (cellMap : CellMap) (cell : ParsedCell) (ng : NormalizedGraph) :
    Keeps cell.bits ng (blackboxByDirection cellMap cell ng) := by
  refine foldl (fun p hp ng => ?_) ng
  exact ite fun _ =>
    foldl (fun bit hbit ng => updNet (List.mem_flatMap.2 ⟨p, hp, hbit⟩) ng _) ng

/-- So does a cell of an unsupported kind. -/
theorem blackboxUnsupported (cellMap : CellMap) (cell : ParsedCell) (entry : CellMapEntry)
    (ng : NormalizedGraph) : Keeps cell.bits ng (blackboxUnsupported cellMap cell entry ng) := by
  unfold NormalizedGraph.blackboxUnsupported
  split
  · exact blackboxByDirection cellMap cell ng
  · refine foldl (fun p _ ng => foldl (fun bit hbit ng => updNet ?_ ng _) ng) ng
    cases hconn : cell.conns[p.2]? with
    | none => simp [hconn] at hbit
    | some l =>
      rw [hconn] at hbit
      exact List.mem_flatMap.2
        ⟨(p.2, l), TreeMap.mem_toList_iff_getElem?_eq_some.2 hconn, hbit⟩

/-- A flip-flop tags the nets of its controls. -/
theorem tagFf {cfg : FFConfig} (h : ∀ y ∈ ffNets cfg, y ∈ bits) (ng : NormalizedGraph) :
    Keeps bits ng (ng.tagFf cfg) := by
  have hclock : Keeps bits ng (ng.tagClockNet cfg.clockNet) :=
    updNet (h cfg.clockNet (by simp [ffNets])) ng _
  have hclear : cfg.clear.present = true → cfg.clear.net ∈ bits :=
    fun hp => h _ (by simp [ffNets, hp])
  have hpreset : cfg.preset.present = true → cfg.preset.net ∈ bits :=
    fun hp => h _ (by simp [ffNets, hp])
  exact (hclock.trans (ite fun hp => updNet (hclear hp) _ _)).trans
    (ite fun hp => updNet (hpreset hp) _ _)

/-- A cell claims the net of one of its outputs. -/
theorem claimDriver {net : YosysNetID} (hnet : net ∈ bits) {id : Nat}
    (hok : claimDriver ng net id = .ok ng') : Keeps bits ng ng' := by
  unfold NormalizedGraph.claimDriver at hok
  split at hok
  · cases hok
  · cases hok
    exact updNet hnet ng _

variable {inst : String} {cell : ParsedCell} {entry : CellMapEntry}

/-- The record of a wrapper cell changes no net. -/
theorem recordWrapper (hok : recordWrapper inst cell entry ng = .ok ng') : Keeps bits ng ng' := by
  unfold NormalizedGraph.recordWrapper at hok
  split at hok
  · obtain ⟨wc, -, hret⟩ := Lib.bind_eq_ok.1 hok
    cases hret
    exact ⟨rfl, rfl, fun _ h => .inl h⟩
  · cases hok
    exact refl bits ng

/-- A wrapper cell is built from its own nets. -/
theorem addWbrMux {b b' : Build} (hok : addWbrMux inst cell entry b = .ok b') :
    Keeps cell.bits b.ng b'.ng := by
  unfold NormalizedGraph.addWbrMux at hok
  split at hok
  · rename_i hdrive
    obtain ⟨ng, hclaim, hret⟩ := Lib.bind_eq_ok.1 hok
    cases hret
    have hkeep := claimDriver (ParsedCell.mem_bits_of_front hdrive) hclaim
    exact ⟨hkeep.pis, hkeep.pseudo, hkeep.nets⟩
  · cases hok

/-- The outputs of a cell are connected to its own nets. -/
theorem connectOutputs {id : Nat} {st : NormalizedGraph × TreeMap String YosysNetID}
    (hok : entry.outputs.toList.foldlM (connectOutput cell entry id) (ng, ∅) = .ok st) :
    Keeps cell.bits ng st.1 := by
  refine Lib.foldlM_invariant (fun st => Keeps cell.bits ng st.1) hok (refl _ _) ?_
  intro p _ c c' hc hstep
  unfold connectOutput at hstep
  split at hstep
  · cases hstep
    exact hc
  split at hstep
  · rename_i net hnet
    obtain ⟨ng', hclaim, hret⟩ := Lib.bind_eq_ok.1 hstep
    cases hret
    exact hc.trans (claimDriver (ParsedCell.mem_bits_of_front hnet) hclaim)
  · cases hstep
    exact hc

/-- **A cell changes no net but its own.** -/
theorem elaborateCell {b b' : Build} (hok : elaborateCell inst cell entry b = .ok b') :
    Keeps cell.bits b.ng b'.ng := by
  unfold NormalizedGraph.elaborateCell at hok
  obtain ⟨ins, -, hok⟩ := Lib.bind_eq_ok.1 hok
  obtain ⟨outs, houts, hok⟩ := Lib.bind_eq_ok.1 hok
  obtain ⟨ff, hff, hok⟩ := Lib.bind_eq_ok.1 hok
  obtain ⟨ng, hng, hok⟩ := Lib.bind_eq_ok.1 hok
  have htag : Keeps cell.bits outs.1 (if entry.nodeType = .FF then outs.1.tagFf ff else outs.1) := by
    split
    · rename_i htype
      rw [cellFfConfig, if_pos htype] at hff
      refine tagFf (fun y hy => ?_) outs.1
      obtain ⟨pin, hpin⟩ := buildFfConfig_nets hff y hy
      exact ParsedCell.mem_bits_of_front hpin
    · exact refl _ _
  have hkeep := ((connectOutputs houts).trans htag).trans (recordWrapper hng)
  have hpush : ∀ node, Keeps cell.bits b.ng (b.push ng node).ng :=
    fun _ => ⟨hkeep.pis, hkeep.pseudo, hkeep.nets⟩
  simp only at hok
  split at hok
  · exact (hpush _).trans (addWbrMux hok)
  · cases hok
    exact hpush _

end Keeps

/-! ## One cell -/

/-- The bits of the output pins of a cell, as far as `is_output_pin` knows them. -/
def OutputBit (cellMap : CellMap) (cell : ParsedCell) (y : YosysNetID) : Prop :=
  ∃ p ∈ cell.conns.toList, isOutputPin cellMap cell p.1 = true ∧ y ∈ p.2

/-- A blackboxed instance makes pseudo-inputs of its output bits, and nothing else. -/
theorem blackboxInstance_spec (cellMap : CellMap) (cell : ParsedCell) (ng : NormalizedGraph) :
    (blackboxInstance cellMap cell ng).PIs = ng.PIs ∧
      (blackboxInstance cellMap cell ng).nets = ng.nets ∧
      ∀ y, y ∈ (blackboxInstance cellMap cell ng).pseudoInputs ↔
        y ∈ ng.pseudoInputs ∨ OutputBit cellMap cell y := by
  have hbits : ∀ (pin : String) (l : List YosysNetID) (ng : NormalizedGraph),
      let ng' := l.foldl (fun ng bit =>
        if isOutputPin cellMap cell pin then
          { ng with pseudoInputs := ng.pseudoInputs.insert bit }
        else { ng with TPs := ng.TPs.insert bit }) ng
      ng'.PIs = ng.PIs ∧ ng'.nets = ng.nets ∧ ∀ y, y ∈ ng'.pseudoInputs ↔
        y ∈ ng.pseudoInputs ∨ (isOutputPin cellMap cell pin = true ∧ y ∈ l) := by
    intro pin l
    induction l with
    | nil => simp
    | cons bit l ih =>
      intro ng
      obtain ⟨hpis, hnets, hmem⟩ := ih (if isOutputPin cellMap cell pin then
        { ng with pseudoInputs := ng.pseudoInputs.insert bit }
        else { ng with TPs := ng.TPs.insert bit })
      refine ⟨hpis.trans ?_, hnets.trans ?_, fun y => (hmem y).trans ?_⟩
      · split <;> rfl
      · split <;> rfl
      · split
        · rename_i hout
          simp only [TreeSet.mem_insert, Std.compare_eq_iff_eq, hout, true_and, List.mem_cons,
            eq_comm (a := bit)]
          tauto
        · rename_i hout
          simp only [hout, false_and, Bool.false_eq_true]
  suffices H : ∀ (l : List (String × List YosysNetID)) (ng : NormalizedGraph),
      let ng' := l.foldl (fun ng p =>
        p.2.foldl (fun ng bit =>
          if isOutputPin cellMap cell p.1 then
            { ng with pseudoInputs := ng.pseudoInputs.insert bit }
          else { ng with TPs := ng.TPs.insert bit }) ng) ng
      ng'.PIs = ng.PIs ∧ ng'.nets = ng.nets ∧ ∀ y, y ∈ ng'.pseudoInputs ↔
        y ∈ ng.pseudoInputs ∨ ∃ p ∈ l, isOutputPin cellMap cell p.1 = true ∧ y ∈ p.2 from H _ ng
  intro l
  induction l with
  | nil => simp
  | cons p l ih =>
    intro ng
    obtain ⟨hpis, hnets, hmem⟩ := hbits p.1 p.2 ng
    obtain ⟨hpis', hnets', hmem'⟩ := ih (p.2.foldl (fun ng bit =>
      if isOutputPin cellMap cell p.1 then
        { ng with pseudoInputs := ng.pseudoInputs.insert bit }
      else { ng with TPs := ng.TPs.insert bit }) ng)
    refine ⟨hpis'.trans hpis, hnets'.trans hnets, fun y => (hmem' y).trans ?_⟩
    rw [hmem, or_assoc]
    simp only [List.mem_cons, exists_eq_or_imp]

variable {cellMap : CellMap} {policy : String} {bb : TreeSet String}

/-- What a cell does to the inputs and the nets: a blackboxed one makes its output
bits pseudo-inputs. -/
theorem cellStep_inputs {b b' : Build} {p : String × ParsedCell}
    (hok : cellStep cellMap policy bb b p = .ok b') :
    b'.ng.PIs = b.ng.PIs ∧ (∀ y, y ∈ b'.ng.nets → y ∈ b.ng.nets ∨ y ∈ p.2.bits) ∧
      ∀ y, y ∈ b'.ng.pseudoInputs ↔
        y ∈ b.ng.pseudoInputs ∨ (bb.contains p.1 = true ∧ OutputBit cellMap p.2 y) := by
  have hconns := Keeps.ensureConns p.2 b.ng
  have hkeep : ∀ ng', bb.contains p.1 = false → Keeps p.2.bits b.ng ng' →
      ng'.PIs = b.ng.PIs ∧ (∀ y, y ∈ ng'.nets → y ∈ b.ng.nets ∨ y ∈ p.2.bits) ∧
      ∀ y, y ∈ ng'.pseudoInputs ↔
        y ∈ b.ng.pseudoInputs ∨ (bb.contains p.1 = true ∧ OutputBit cellMap p.2 y) := by
    intro ng' hbb h
    refine ⟨h.pis, h.nets, fun y => ?_⟩
    simp only [h.pseudo, hbb, Bool.false_eq_true, false_and, or_false]
  unfold cellStep at hok
  simp only at hok
  split at hok
  · rename_i hbb
    cases hok
    obtain ⟨hpis, hnets, hmem⟩ := blackboxInstance_spec cellMap p.2 (ensureConns p.2 b.ng)
    refine ⟨hpis.trans hconns.pis, fun y hy => hconns.nets y (hnets ▸ hy), fun y => ?_⟩
    rw [hmem, hconns.pseudo]
    exact or_congr Iff.rfl (iff_and_self.2 fun _ => hbb)
  rename_i hbb
  rw [Bool.not_eq_true] at hbb
  split at hok
  · split at hok
    · cases hok
      exact hkeep _ hbb (hconns.trans (Keeps.blackboxByDirection ..))
    · cases hok
  · split at hok
    · split at hok
      · cases hok
        exact hkeep _ hbb (hconns.trans (Keeps.blackboxUnsupported ..))
      · cases hok
    split at hok
    · cases hok
    · exact hkeep _ hbb (hconns.trans (Keeps.elaborateCell hok))

/-! ## The ports -/

/-- The bits of one port: input bits become inputs. -/
theorem collectPortBits_spec (name : String) (port : ParsedPort) (bits : List YosysNetID)
    (ng : NormalizedGraph) :
    (∀ y, y ∈ (bits.foldl (collectPortBit name port) ng).PIs ↔
      y ∈ ng.PIs ∨ (port.direction = "input" ∧ y ∈ bits)) ∧
    (bits.foldl (collectPortBit name port) ng).pseudoInputs = ng.pseudoInputs ∧
    ∀ y, y ∈ (bits.foldl (collectPortBit name port) ng).nets → y ∈ ng.nets ∨ y ∈ bits := by
  induction bits generalizing ng with
  | nil => simp
  | cons bit bits ih =>
    have htag : Keeps [bit] ng ((ng.ensureNet bit).tagSpecialNet bit name) :=
      (Keeps.updNet (.head _) ng _).trans (Keeps.tagSpecialNet (.head _) _ name)
    obtain ⟨hpis, hpseudo, hnets⟩ := ih (collectPortBit name port ng bit)
    have hstep : (∀ y, y ∈ (collectPortBit name port ng bit).PIs ↔
        y ∈ ng.PIs ∨ (port.direction = "input" ∧ y = bit)) ∧
        (collectPortBit name port ng bit).pseudoInputs = ng.pseudoInputs ∧
        ∀ y, y ∈ (collectPortBit name port ng bit).nets → y ∈ ng.nets ∨ y = bit := by
      have hin : ∀ y, y ∈ ((ng.ensureNet bit).tagSpecialNet bit name).nets → y ∈ ng.nets ∨ y = bit :=
        fun y hy => (htag.nets y hy).imp_right List.mem_singleton.1
      unfold collectPortBit
      simp only
      split
      · rename_i hdir
        rw [beq_iff_eq] at hdir
        refine ⟨fun y => ?_, htag.pseudo, hin⟩
        simp only [TreeSet.mem_insert, htag.pis, Std.compare_eq_iff_eq, hdir, true_and,
          eq_comm (a := bit)]
        exact or_comm
      · rename_i hdir
        have hno : ∀ y, ¬ (port.direction = "input" ∧ y = bit) := fun y h => hdir (by simp [h.1])
        split
        all_goals
          refine ⟨fun y => ?_, htag.pseudo, hin⟩
          simp only [hno, or_false, htag.pis]
    rw [List.foldl_cons]
    refine ⟨fun y => ?_, hpseudo.trans hstep.2.1, fun y hy => ?_⟩
    · rw [hpis, hstep.1, List.mem_cons]
      tauto
    · rcases hnets y hy with hy | hy
      · exact (hstep.2.2 y hy).imp_right fun h => List.mem_cons.2 (.inl h)
      · exact .inr (.tail _ hy)

/-- The inputs of the graph are the bits of the input ports. -/
theorem collectPorts_spec (ports : List (String × ParsedPort)) (ng : NormalizedGraph) :
    let ng' := ports.foldl (fun ng p => p.2.bits.foldl (collectPortBit p.1 p.2) ng) ng
    (∀ y, y ∈ ng'.PIs ↔ y ∈ ng.PIs ∨ ∃ p ∈ ports, p.2.direction = "input" ∧ y ∈ p.2.bits) ∧
    ng'.pseudoInputs = ng.pseudoInputs ∧
    ∀ y, y ∈ ng'.nets → y ∈ ng.nets ∨ y ∈ ports.flatMap fun p => p.2.bits := by
  induction ports generalizing ng with
  | nil => simp
  | cons p ports ih =>
    obtain ⟨hpis, hpseudo, hnets⟩ := collectPortBits_spec p.1 p.2 p.2.bits ng
    obtain ⟨hpis', hpseudo', hnets'⟩ := ih (p.2.bits.foldl (collectPortBit p.1 p.2) ng)
    refine ⟨fun y => ?_, hpseudo'.trans hpseudo, fun y hy => ?_⟩
    · rw [List.foldl_cons, hpis', hpis, or_assoc]
      simp only [List.mem_cons, exists_eq_or_imp]
    · rw [List.flatMap_cons, List.mem_append]
      rcases hnets' y hy with hy | hy
      · exact (hnets y hy).imp_right .inl
      · exact .inr (.inr hy)

/-! ## The graph -/

/-- The inputs and the nets of a graph, as the netlist has them. -/
structure FromNetlist (mod : ParsedModule) (cellMap : CellMap) (bb : TreeSet String)
    (ng : NormalizedGraph) : Prop where
  pis : ∀ y, y ∈ ng.PIs ↔ ∃ p ∈ mod.ports.toList, p.2.direction = "input" ∧ y ∈ p.2.bits
  pseudo : ∀ y, y ∈ ng.pseudoInputs ↔
    ∃ p ∈ mod.cells.toList, bb.contains p.1 = true ∧ OutputBit cellMap p.2 y
  nets : ∀ y, y ∈ ng.nets → y ∈ mod.bits

variable {mod : ParsedModule} {b : Build}

/-- A source on a net of the netlist. -/
theorem FromNetlist.addSource (h : FromNetlist mod cellMap bb b.ng) (type : NodeType)
    (gateType : GateType) {net : YosysNetID} (hnet : net ∈ mod.bits) :
    FromNetlist mod cellMap bb (addSource b type gateType net).ng := by
  refine ⟨h.pis, h.pseudo, fun y hy => ?_⟩
  rcases mem_setDriver.1 hy with rfl | hy
  · exact hnet
  · exact h.nets y hy

/-- A constant takes no input away and adds none. -/
theorem FromNetlist.addConst (h : FromNetlist mod cellMap bb b.ng) (net : YosysNetID)
    (gateType : GateType) :
    FromNetlist mod cellMap bb (addConst b net gateType).ng := by
  unfold NormalizedGraph.addConst
  split
  · rename_i hmem
    exact h.addSource .CONST gateType (h.nets net hmem)
  · exact h

/-- The ports and the cells, read in order. -/
theorem fromNetlist_cells (hcells : mod.cells.toList.foldlM (cellStep cellMap policy bb)
      { ng := collectPorts mod (collectNetnames mod {}) } = .ok b) :
    FromNetlist mod cellMap bb b.ng := by
  have hnames : Keeps (mod.netnames.toList.flatMap Prod.snd) {} (collectNetnames mod {}) := by
    refine Keeps.foldl (fun p hp ng => Keeps.foldl (fun bit hbit ng => ?_) ng) _
    have hmem := List.mem_flatMap.2 ⟨p, hp, hbit⟩
    exact (Keeps.updNet hmem ng _).trans (Keeps.tagSpecialNet hmem _ p.1)
  obtain ⟨hpis, hpseudo, hnets⟩ := collectPorts_spec mod.ports.toList (collectNetnames mod {})
  have hrun := Lib.foldlM_visited (fun (visited : List (String × ParsedCell)) (c : Build) =>
    c.ng.PIs = (collectPorts mod (collectNetnames mod {})).PIs ∧
    (∀ y, y ∈ c.ng.nets → y ∈ (collectPorts mod (collectNetnames mod {})).nets ∨
      y ∈ visited.flatMap fun p => p.2.bits) ∧
    ∀ y, y ∈ c.ng.pseudoInputs ↔
      ∃ p ∈ visited, bb.contains p.1 = true ∧ OutputBit cellMap p.2 y) hcells ?_ ?_
  · obtain ⟨hp, hn, hs⟩ := hrun
    refine ⟨fun y => ?_, hs, fun y hy => ?_⟩
    · rw [hp]
      refine (hpis y).trans ?_
      rw [hnames.pis]
      exact or_iff_right TreeSet.not_mem_emptyc
    · simp only [ParsedModule.bits, List.mem_append]
      rcases hn y hy with hy | hy
      · rcases hnets y hy with hy | hy
        · rcases hnames.nets y hy with hy | hy
          · exact absurd hy TreeMap.not_mem_emptyc
          · exact .inl (.inl hy)
        · exact .inl (.inr hy)
      · exact .inr hy
  · refine ⟨rfl, fun y hy => .inl hy, fun y => ?_⟩
    rw [show (collectPorts mod (collectNetnames mod {})).pseudoInputs = ∅ from
      hpseudo.trans hnames.pseudo]
    simp
  · rintro pre p post c c' - ⟨hp, hn, hs⟩ hstep
    obtain ⟨hp', hn', hs'⟩ := cellStep_inputs hstep
    refine ⟨hp'.trans hp, fun y hy => ?_, fun y => ?_⟩
    · rw [List.flatMap_append, List.flatMap_singleton, List.mem_append]
      rcases hn' y hy with hy | hy
      · exact (hn y hy).imp_right .inl
      · exact .inr (.inr hy)
    · rw [hs', hs]
      simp only [List.mem_append, List.mem_singleton, or_and_right, exists_or, exists_eq_left]

/-- **The inputs and nets of the elaborated graph are those of the netlist.** -/
theorem fromNetlist {ng : NormalizedGraph} (hok : fromParsed mod cellMap policy bb = .ok ng) :
    FromNetlist mod cellMap bb ng := by
  obtain ⟨b, hb, hret⟩ := Lib.bind_eq_ok.1 hok
  cases hret
  unfold elaborate at hb
  obtain ⟨-, -, hb⟩ := Lib.bind_eq_ok.1 hb
  obtain ⟨b1, hcells, hb⟩ := Lib.bind_eq_ok.1 hb
  obtain ⟨b2, hpis, hb⟩ := Lib.bind_eq_ok.1 hb
  cases hb
  have h1 := fromNetlist_cells hcells
  have hports : ∀ y, y ∈ b1.ng.PIs → y ∈ mod.bits := by
    intro y hy
    obtain ⟨p, hp, -, hbit⟩ := (h1.pis y).1 hy
    exact List.mem_append_left _ (List.mem_append_right _ (List.mem_flatMap.2 ⟨p, hp, hbit⟩))
  have houts : ∀ y, y ∈ b1.ng.pseudoInputs → y ∈ mod.bits := by
    intro y hy
    obtain ⟨p, hp, -, q, hq, -, hbit⟩ := (h1.pseudo y).1 hy
    exact List.mem_append_right _
      (List.mem_flatMap.2 ⟨p, hp, List.mem_flatMap.2 ⟨q, hq, hbit⟩⟩)
  have h2 : FromNetlist mod cellMap bb b2.ng := by
    refine Lib.foldlM_invariant (fun c : Build => FromNetlist mod cellMap bb c.ng) hpis h1 ?_
    intro pi hpi c c' hc hstep
    unfold addPi at hstep
    split at hstep
    · cases hstep
    · cases hstep
      exact hc.addSource .GATE .INPUT (hports pi (TreeSet.mem_toList.1 hpi))
  have h3 : FromNetlist mod cellMap bb (b2.ng.pseudoInputs.toList.foldl addPseudoPi b2).ng := by
    refine Lib.foldl_invariant (fun c : Build => FromNetlist mod cellMap bb c.ng) h2 ?_
    intro ppi hppi c hc
    unfold addPseudoPi
    split
    · exact hc
    · refine hc.addSource .GATE .INPUT (houts ppi ((h1.pseudo ppi).2 ((h2.pseudo ppi).1 ?_)))
      exact TreeSet.mem_toList.1 hppi
  have h4 := (h3.addConst const0NetId .CONST0).addConst const1NetId .CONST1
  exact ⟨h4.pis, h4.pseudo, h4.nets⟩

/-- **The primary inputs are the bits of the input ports.** -/
theorem mem_PIs {ng : NormalizedGraph} (hok : fromParsed mod cellMap policy bb = .ok ng)
    {y : YosysNetID} :
    y ∈ ng.PIs ↔ ∃ p ∈ mod.ports.toList, p.2.direction = "input" ∧ y ∈ p.2.bits :=
  (fromNetlist hok).pis y

end NormalizedGraph

end FaultFlow
