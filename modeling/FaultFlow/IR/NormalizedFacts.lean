/-
# What elaboration guarantees

The invariant of `NormalizedGraph::from_parsed` (`Inv`): nodes are numbered from
`1`, every net a node names is a net of the graph, every output of a node is
driven by that node or has been taken over by a constant, and every driver is a
node with that output.  Each phase keeps it; the phases that only tag nets or
record sets do so because they change neither nodes nor drivers (`Extends`), and
the phases that add a node do so by one lemma (`Inv.push`).

The one place where a net can get a second driver is `add_const`, which does not
look at the driver the net has.
-/

import FaultFlow.IR.NormalizedGraph

namespace FaultFlow

open Std (TreeMap TreeSet)

namespace NormalizedGraph

variable {ng : NormalizedGraph} {bit y net : YosysNetID} {f : NormNet → NormNet}
  {ng' : NormalizedGraph} {pin : String} {b b' : Build}
  {st : NormalizedGraph × TreeMap String YosysNetID} {mod : ParsedModule}

/-- An update enters its net. -/
theorem mem_updNet : y ∈ (ng.updNet bit f).nets ↔ bit = y ∨ y ∈ ng.nets := by
  rw [updNet, TreeMap.mem_insert, Std.compare_eq_iff_eq]

/-- The drivers after an update. -/
theorem driver_updNet (ng : NormalizedGraph) (bit y : YosysNetID) (f : NormNet → NormNet) :
    (ng.updNet bit f).driver y =
      if bit = y then (f (ng.nets.getD bit {})).driver else ng.driver y := by
  simp only [driver, updNet, TreeMap.getD_insert, Std.compare_eq_iff_eq]
  split <;> rfl

/-- An update that keeps the driver keeps all drivers. -/
theorem driver_updNet_of_driver (hf : ∀ n, (f n).driver = n.driver) (y : YosysNetID) :
    (ng.updNet bit f).driver y = ng.driver y := by
  rw [driver_updNet]
  split
  · next h => rw [hf, h, driver]
  · rfl

/-- The drivers after a driver is set. -/
theorem driver_setDriver (ng : NormalizedGraph) (bit y : YosysNetID) (id : Nat) :
    (ng.setDriver bit id).driver y = if bit = y then some id else ng.driver y := by
  rw [setDriver, driver_updNet]

/-- The nets a flip-flop configuration names. -/
def ffNets (cfg : FFConfig) : List YosysNetID :=
  [cfg.dataNet, cfg.clockNet, cfg.outputNet] ++
  (if cfg.clear.present then [cfg.clear.net] else []) ++
  (if cfg.preset.present then [cfg.preset.net] else []) ++
  (if cfg.enable.present then [cfg.enable.net] else []) ++
  (if cfg.hasScan then [cfg.scanInNet, cfg.scanEnableNet] else [])

/-- Every net a node names is a net of the graph. -/
structure NodeClosed (ng : NormalizedGraph) (node : NormNode) : Prop where
  inputs : ∀ (pin : String) net, node.inputPins[pin]? = some net → net ∈ ng.nets
  outputs : ∀ (pin : String) net, node.outputPins[pin]? = some net → net ∈ ng.nets
  ff : node.type = .FF → ∀ net ∈ ffNets node.ffConfig, net ∈ ng.nets

/-- **The invariant of elaboration.** -/
structure Inv (ng : NormalizedGraph) : Prop where
  ids : ng.nodes.map NormNode.id = List.range' 1 ng.nodes.length
  closed : ∀ node ∈ ng.nodes, NodeClosed ng node
  outputs : ∀ node ∈ ng.nodes, ∀ (pin : String) net, node.outputPins[pin]? = some net →
    ng.driver net = some node.id ∨
      ∃ c ∈ ng.nodes, c.type = .CONST ∧ c.inputPins.toList = [] ∧ ng.driver net = some c.id
  outputs_inj : ∀ node ∈ ng.nodes, ∀ (pin pin' : String) net, node.outputPins[pin]? = some net →
    node.outputPins[pin']? = some net → pin = pin'
  driver : ∀ net d, ng.driver net = some d →
    ∃ node ∈ ng.nodes, node.id = d ∧ ∃ pin : String, node.outputPins[pin]? = some net
  dff : ∀ node ∈ ng.nodes, node.type = .FF ↔ node.gateType = .DFF
  input : ∀ node ∈ ng.nodes, node.gateType = .INPUT → node.type = .GATE ∧
    node.inputPins.toList = [] ∧
    ∀ (pin : String) net, node.outputPins[pin]? = some net → net ∈ ng.PIs ∨ net ∈ ng.pseudoInputs

/-- The nodes and the drivers stay, nets and inputs are only added. -/
structure Extends (ng ng' : NormalizedGraph) : Prop where
  nodes : ng'.nodes = ng.nodes
  driver : ∀ y, ng'.driver y = ng.driver y
  nets : ∀ y, y ∈ ng.nets → y ∈ ng'.nets
  pis : ∀ y, y ∈ ng.PIs → y ∈ ng'.PIs
  pseudo : ∀ y, y ∈ ng.pseudoInputs → y ∈ ng'.pseudoInputs

namespace Extends

variable {ng'' : NormalizedGraph}

/-- A graph extends itself. -/
theorem refl (ng : NormalizedGraph) : Extends ng ng :=
  ⟨rfl, fun _ => rfl, fun _ h => h, fun _ h => h, fun _ h => h⟩

/-- Extensions compose. -/
theorem trans (h : Extends ng ng') (h' : Extends ng' ng'') : Extends ng ng'' :=
  ⟨h'.nodes.trans h.nodes, fun y => (h'.driver y).trans (h.driver y),
    fun y hy => h'.nets y (h.nets y hy), fun y hy => h'.pis y (h.pis y hy),
    fun y hy => h'.pseudo y (h.pseudo y hy)⟩

/-- A loop of extending steps extends. -/
theorem foldl {α : Type} {f : NormalizedGraph → α → NormalizedGraph}
    (hf : ∀ ng a, Extends ng (f ng a)) (l : List α) (ng : NormalizedGraph) :
    Extends ng (l.foldl f ng) :=
  Lib.foldl_invariant (Extends ng) (refl ng) fun a _ c hc => hc.trans (hf c a)

/-- An update that leaves the driver alone. -/
theorem updNet {f : NormNet → NormNet} (hf : ∀ n, (f n).driver = n.driver) (bit : YosysNetID) :
    Extends ng (ng.updNet bit f) :=
  ⟨rfl, driver_updNet_of_driver hf, fun _ hy => mem_updNet.2 (.inr hy), fun _ h => h,
    fun _ h => h⟩

/-- A net may be entered. -/
theorem ensureNet (ng : NormalizedGraph) (bit : YosysNetID) : Extends ng (ng.ensureNet bit) :=
  updNet (fun _ => rfl) bit

/-- A tag changes no driver. -/
theorem tagClockNet (ng : NormalizedGraph) (bit : YosysNetID) : Extends ng (ng.tagClockNet bit) :=
  updNet (by intro _; rfl) bit

/-- Nor does that of a reset. -/
theorem tagResetNet (ng : NormalizedGraph) (bit : YosysNetID) : Extends ng (ng.tagResetNet bit) :=
  updNet (by intro _; rfl) bit

/-- Nor does that of a blackbox. -/
theorem tagBlackboxed (ng : NormalizedGraph) (bit : YosysNetID) :
    Extends ng (ng.tagBlackboxed bit) :=
  updNet (by intro _; rfl) bit

/-- A step behind a condition. -/
theorem ite {c : Prop} [Decidable c] (h : Extends ng ng') :
    Extends ng (if c then ng' else ng) := by
  split
  · exact h
  · exact refl ng

/-- Nor do the tags that a name gives. -/
theorem tagSpecialNet (ng : NormalizedGraph) (bit : YosysNetID) (name : String) :
    Extends ng (ng.tagSpecialNet bit name) := by
  unfold NormalizedGraph.tagSpecialNet
  exact (ite (tagClockNet ng bit)).trans (ite (tagResetNet _ bit))

/-- The net names only tag. -/
theorem collectNetnames (mod : ParsedModule) (ng : NormalizedGraph) :
    Extends ng (collectNetnames mod ng) := by
  refine foldl (fun ng p => ?_) _ ng
  refine foldl (fun ng bit => ?_) _ ng
  exact (ensureNet ng bit).trans (tagSpecialNet _ bit p.1)

/-- One bit of a port. -/
theorem collectPortBit (name : String) (port : ParsedPort) (ng : NormalizedGraph)
    (bit : YosysNetID) : Extends ng (collectPortBit name port ng bit) := by
  have h := (ensureNet ng bit).trans (tagSpecialNet _ bit name)
  unfold NormalizedGraph.collectPortBit
  simp only
  split
  · exact h.trans ⟨rfl, fun _ => rfl, fun _ h => h,
      fun y hy => TreeSet.mem_insert.2 (.inr hy), fun _ h => h⟩
  · split
    · exact h.trans ⟨rfl, fun _ => rfl, fun _ h => h, fun _ h => h, fun _ h => h⟩
    · exact h

/-- The ports enter their bits. -/
theorem collectPorts (mod : ParsedModule) (ng : NormalizedGraph) :
    Extends ng (collectPorts mod ng) := by
  refine foldl (fun ng p => ?_) _ ng
  exact foldl (fun ng bit => collectPortBit p.1 p.2 ng bit) _ ng

/-- The nets of a cell are entered. -/
theorem ensureConns (cell : ParsedCell) (ng : NormalizedGraph) :
    Extends ng (ensureConns cell ng) := by
  refine foldl (fun ng _ => ?_) _ ng
  exact foldl (fun ng bit => ensureNet ng bit) _ ng

/-- A blackboxed instance only tags. -/
theorem blackboxInstance (cellMap : CellMap) (cell : ParsedCell) (ng : NormalizedGraph) :
    Extends ng (blackboxInstance cellMap cell ng) := by
  refine foldl (fun ng p => ?_) _ ng
  refine foldl (fun ng bit => ?_) _ ng
  split
  · exact ⟨rfl, fun _ => rfl, fun _ h => h, fun _ h => h,
      fun y hy => TreeSet.mem_insert.2 (.inr hy)⟩
  · exact ⟨rfl, fun _ => rfl, fun _ h => h, fun _ h => h, fun _ h => h⟩

/-- Its nets may be entered before. -/
theorem blackboxByDirection (cellMap : CellMap) (cell : ParsedCell) (ng : NormalizedGraph) :
    Extends ng (blackboxByDirection cellMap cell ng) := by
  refine foldl (fun ng _ => ite ?_) _ ng
  exact foldl (fun ng bit => tagBlackboxed ng bit) _ ng

/-- A cell of an unsupported kind is no different. -/
theorem blackboxUnsupported (cellMap : CellMap) (cell : ParsedCell) (entry : CellMapEntry)
    (ng : NormalizedGraph) : Extends ng (blackboxUnsupported cellMap cell entry ng) := by
  unfold NormalizedGraph.blackboxUnsupported
  split
  · exact blackboxByDirection cellMap cell ng
  · refine foldl (fun ng _ => ?_) _ ng
    exact foldl (fun ng bit => tagBlackboxed ng bit) _ ng

/-- The tags of a flip-flop. -/
theorem tagFf (ng : NormalizedGraph) (cfg : FFConfig) : Extends ng (ng.tagFf cfg) := by
  unfold NormalizedGraph.tagFf
  exact ((tagClockNet ng _).trans (ite (tagResetNet _ _))).trans (ite (tagResetNet _ _))

end Extends

/-- Extending a graph keeps the invariant. -/
theorem Inv.extend (h : Inv ng) (hx : Extends ng ng') : Inv ng' where
  ids := by rw [hx.nodes]; exact h.ids
  closed node hn := by
    rw [hx.nodes] at hn
    have hc := h.closed node hn
    exact ⟨fun p n hp => hx.nets n (hc.inputs p n hp), fun p n hp => hx.nets n (hc.outputs p n hp),
      fun ht n hn => hx.nets n (hc.ff ht n hn)⟩
  outputs node hn pin net hp := by
    rw [hx.nodes] at hn ⊢
    rw [hx.driver]
    exact h.outputs node hn pin net hp
  outputs_inj node hn := by
    rw [hx.nodes] at hn
    exact h.outputs_inj node hn
  driver net d hd := by
    rw [hx.driver] at hd
    rw [hx.nodes]
    exact h.driver net d hd
  dff node hn := by
    rw [hx.nodes] at hn
    exact h.dff node hn
  input node hn hg := by
    rw [hx.nodes] at hn
    obtain ⟨ht, hin, hout⟩ := h.input node hn hg
    exact ⟨ht, hin, fun p n hp => (hout p n hp).imp (hx.pis n) (hx.pseudo n)⟩

/-- The empty graph is well formed. -/
theorem inv_empty : Inv {} := by
  refine ⟨rfl, ?_, ?_, ?_, ?_, ?_, ?_⟩
  case refine_4 =>
    intro net d hd
    simp [NormalizedGraph.driver, TreeMap.getD_eq_getD_getElem?] at hd
  all_goals
    intro node hn
    simp at hn

/-- **A new node.**  `ng'` is the graph in which the node's outputs have been
claimed: they are driven by the new number and nothing else has changed.  Either
nothing drove them, or the node is a constant. -/
theorem Inv.push {ng ng' : NormalizedGraph} (h : Inv ng) {node : NormNode}
    (hnodes : ng'.nodes = ng.nodes) (hnets : ∀ y, y ∈ ng.nets → y ∈ ng'.nets)
    (hpis : ∀ y, y ∈ ng.PIs → y ∈ ng'.PIs)
    (hpseudo : ∀ y, y ∈ ng.pseudoInputs → y ∈ ng'.pseudoInputs)
    (hid : node.id = ng.nodes.length + 1) (hclosed : NodeClosed ng' node)
    (hout : ∀ pin : String, ∀ y, node.outputPins[pin]? = some y → ng'.driver y = some node.id)
    (hother : ∀ y, (∀ pin : String, node.outputPins[pin]? ≠ some y) →
      ng'.driver y = ng.driver y)
    (hfree : (∀ pin : String, ∀ y, node.outputPins[pin]? = some y → ng.driver y = none) ∨
      (node.type = .CONST ∧ node.inputPins.toList = []))
    (hinj : ∀ (pin pin' : String) net, node.outputPins[pin]? = some net →
      node.outputPins[pin']? = some net → pin = pin')
    (hdff : node.type = .FF ↔ node.gateType = .DFF)
    (hinput : node.gateType = .INPUT → node.type = .GATE ∧ node.inputPins.toList = [] ∧
      ∀ (pin : String) net, node.outputPins[pin]? = some net →
        net ∈ ng'.PIs ∨ net ∈ ng'.pseudoInputs) : Inv { ng' with nodes := ng'.nodes ++ [node] } := by
  have hmem : ∀ n ∈ ng'.nodes ++ [node], n ∈ ng.nodes ∨ n = node := by
    intro n hn
    rw [hnodes] at hn
    simpa using hn
  refine ⟨?_, ?_, ?_, ?_, ?_, ?_, ?_⟩
  · simp only [List.map_append, List.map_cons, List.map_nil, hnodes, h.ids, List.length_append,
      List.length_cons, List.length_nil, hid, List.range'_concat]
    congr 2
    omega
  · intro n hn
    rcases hmem n hn with hn | rfl
    · have hc := h.closed n hn
      exact ⟨fun p y hp => hnets y (hc.inputs p y hp), fun p y hp => hnets y (hc.outputs p y hp),
        fun ht y hy => hnets y (hc.ff ht y hy)⟩
    · exact ⟨hclosed.inputs, hclosed.outputs, hclosed.ff⟩
  · intro n hn pin y hp
    rcases hmem n hn with hn | rfl
    · by_cases hy : ∃ pin : String, node.outputPins[pin]? = some y
      · obtain ⟨pin', hpin'⟩ := hy
        rcases hfree with hfree | ⟨hconst, hin⟩
        · -- the net was free, so no earlier node has it as an output
          have hnone := hfree pin' y hpin'
          rcases h.outputs n hn pin y hp with hd | ⟨c, -, -, -, hd⟩ <;> simp [hnone] at hd
        · exact .inr ⟨node, by simp, hconst, hin, hout pin' y hpin'⟩
      · have hd := hother y (not_exists.1 hy)
        rcases h.outputs n hn pin y hp with hp | ⟨c, hc, hct, hci, hcd⟩
        · exact .inl (hd.trans hp)
        · exact .inr ⟨c, by simp [hnodes, hc], hct, hci, hd.trans hcd⟩
    · exact .inl (hout pin y hp)
  · intro n hn
    rcases hmem n hn with hn | rfl
    · exact h.outputs_inj n hn
    · exact hinj
  · intro y d hd
    by_cases hy : ∃ pin : String, node.outputPins[pin]? = some y
    · obtain ⟨pin, hpin⟩ := hy
      refine ⟨node, by simp, ?_, pin, hpin⟩
      exact Option.some.inj ((hout pin y hpin).symm.trans hd)
    · have hd' : ng.driver y = some d := (hother y (not_exists.1 hy)).symm.trans hd
      obtain ⟨n, hn, hid, hpin⟩ := h.driver y d hd'
      exact ⟨n, by simp [hnodes, hn], hid, hpin⟩
  · intro n hn
    rcases hmem n hn with hn | rfl
    · exact h.dff n hn
    · exact hdff
  · intro n hn hg
    rcases hmem n hn with hn | rfl
    · obtain ⟨ht, hin, hout⟩ := h.input n hn hg
      exact ⟨ht, hin, fun p y hp => (hout p y hp).imp (hpis y) (hpseudo y)⟩
    · exact hinput hg

/-- The invariant with the next number. -/
structure Build.Inv (b : Build) : Prop where
  ng : NormalizedGraph.Inv b.ng
  next : b.nextNodeId = b.ng.nodes.length + 1

/-- A map with one pin. -/
theorem getElem?_single {pin' : String} :
    ((∅ : TreeMap String YosysNetID).insert pin net)[pin']? = some y ↔ pin = pin' ∧ net = y := by
  simp only [TreeMap.getElem?_insert, Std.compare_eq_iff_eq]
  split <;> simp [*]

variable {id : Nat}

/-- Setting a driver enters the net. -/
theorem mem_setDriver : y ∈ (ng.setDriver net id).nets ↔ net = y ∨ y ∈ ng.nets := mem_updNet

/-- A node that drives one net. -/
theorem Build.Inv.pushSingle (h : b.Inv) (node : NormNode) {pin : String}
    (hid : node.id = b.nextNodeId)
    (houts : node.outputPins = (∅ : TreeMap String YosysNetID).insert pin net)
    (hin : ∀ (pin : String) y, node.inputPins[pin]? = some y → y ∈ b.ng.nets)
    (hfree : b.ng.driver net = none ∨ (node.type = .CONST ∧ node.inputPins.toList = []))
    (htype : node.type ≠ .FF ∧ node.gateType ≠ .DFF)
    (hinput : node.gateType = .INPUT → node.type = .GATE ∧ node.inputPins.toList = [] ∧
      (net ∈ b.ng.PIs ∨ net ∈ b.ng.pseudoInputs)) :
    (b.push (b.ng.setDriver net b.nextNodeId) node).Inv := by
  have hout : ∀ (p : String) y, node.outputPins[p]? = some y ↔ pin = p ∧ net = y := by
    intro p y
    rw [houts, getElem?_single]
  refine ⟨h.ng.push rfl (fun y hy => mem_setDriver.2 (.inr hy)) (fun _ hy => hy) (fun _ hy => hy)
    (hid.trans h.next) ⟨fun p y hp => mem_setDriver.2 (.inr (hin p y hp)), fun p y hp => ?_,
      fun ht => absurd ht htype.1⟩ ?_ ?_ ?_ ?_ (iff_of_false htype.1 htype.2) ?_, ?_⟩
  · exact mem_setDriver.2 (.inl ((hout p y).1 hp).2)
  · intro p y hp
    rw [driver_setDriver, if_pos ((hout p y).1 hp).2, hid]
  · intro y hy
    rw [driver_setDriver, if_neg fun hny => hy pin ((hout pin y).2 ⟨rfl, hny⟩)]
  · refine hfree.imp_left fun hnone p y hp => ?_
    rw [← ((hout p y).1 hp).2]
    exact hnone
  · intro p p' y hp hp'
    rw [← ((hout p y).1 hp).1, ← ((hout p' y).1 hp').1]
  · intro hg
    obtain ⟨ht, hi, hnet⟩ := hinput hg
    refine ⟨ht, hi, fun p y hp => ?_⟩
    rw [← ((hout p y).1 hp).2]
    exact hnet
  · simp [Build.push, setDriver, updNet, h.next]

/-- A source on a net without a driver; a constant may find one. -/
theorem Build.Inv.addSource (h : b.Inv) {type : NodeType} {gateType : GateType}
    (hfree : b.ng.driver net = none ∨ type = .CONST) (htype : type ≠ .FF ∧ gateType ≠ .DFF)
    (hinput : gateType = .INPUT → type = .GATE ∧ (net ∈ b.ng.PIs ∨ net ∈ b.ng.pseudoInputs)) :
    (addSource b type gateType net).Inv := by
  refine h.pushSingle (sourceNode b.nextNodeId type gateType net) rfl rfl ?_ ?_ htype ?_
  · intro pin y hy
    simp [sourceNode] at hy
  · exact hfree.imp_right fun hc => ⟨hc, rfl⟩
  · exact fun hg => ⟨(hinput hg).1, rfl, (hinput hg).2⟩

/-- The graph of `addSource` has the same inputs. -/
theorem addSource_pis (b : Build) (type : NodeType) (gateType : GateType) (net : YosysNetID) :
    (addSource b type gateType net).ng.PIs = b.ng.PIs ∧
      (addSource b type gateType net).ng.pseudoInputs = b.ng.pseudoInputs := ⟨rfl, rfl⟩

/-- One input. -/
theorem Build.Inv.addPi (h : b.Inv) {pi : YosysNetID} (hpi : pi ∈ b.ng.PIs)
    (hok : addPi b pi = .ok b') : b'.Inv ∧ b'.ng.PIs = b.ng.PIs ∧
      b'.ng.pseudoInputs = b.ng.pseudoInputs := by
  unfold NormalizedGraph.addPi at hok
  split at hok
  · cases hok
  · next hd =>
    cases hok
    refine ⟨h.addSource (.inl ?_) (by decide) fun _ => ⟨rfl, .inl hpi⟩, addSource_pis ..⟩
    simpa using hd

/-- One pseudo-input; it is left out if its net is driven. -/
theorem Build.Inv.addPseudoPi (h : b.Inv) {ppi : YosysNetID} (hppi : ppi ∈ b.ng.pseudoInputs) :
    (addPseudoPi b ppi).Inv ∧
      (addPseudoPi b ppi).ng.pseudoInputs = b.ng.pseudoInputs := by
  unfold NormalizedGraph.addPseudoPi
  split
  · exact ⟨h, rfl⟩
  · next hd =>
    refine ⟨h.addSource (.inl ?_) (by decide) fun _ => ⟨rfl, .inr hppi⟩, rfl⟩
    simpa using hd

/-- One constant. -/
theorem Build.Inv.addConst (h : b.Inv) (net : YosysNetID) {gateType : GateType}
    (hg : gateType ≠ .DFF ∧ gateType ≠ .INPUT) : (addConst b net gateType).Inv := by
  unfold NormalizedGraph.addConst
  split
  · exact h.addSource (.inr rfl) ⟨by decide, hg.1⟩ fun hin => absurd hin hg.2
  · exact h

/-- Every connected net of a cell is a net of the graph. -/
def ConnsIn (cell : ParsedCell) (ng : NormalizedGraph) : Prop :=
  ∀ pin net, cell.front? pin = some net → net ∈ ng.nets

/-- The connections are in the graph once they are entered. -/
theorem connsIn_ensureConns (cell : ParsedCell) (ng : NormalizedGraph) :
    ConnsIn cell (ensureConns cell ng) := by
  intro pin net hnet
  obtain ⟨bits, hbits, hhead⟩ := Option.bind_eq_some_iff.1 hnet
  have hmem : (pin, bits) ∈ cell.conns.toList := TreeMap.mem_toList_iff_getElem?_eq_some.2 hbits
  have hbit : net ∈ bits := List.mem_of_mem_head? hhead
  have hinner : ∀ (l : List YosysNetID) (ng : NormalizedGraph), net ∈ l →
      net ∈ (l.foldl ensureNet ng).nets := by
    intro l
    induction l with
    | nil => simp
    | cons y l ih =>
      intro ng hy
      rcases List.mem_cons.1 hy with rfl | hy
      · exact (Extends.foldl (fun ng bit => Extends.ensureNet ng bit) l _).nets _
          (mem_updNet.2 (.inl rfl))
      · exact ih _ hy
  suffices H : ∀ (l : List (String × List YosysNetID)) (ng : NormalizedGraph), (pin, bits) ∈ l →
      net ∈ (l.foldl (fun ng p => p.2.foldl ensureNet ng) ng).nets from H _ _ hmem
  intro l
  induction l with
  | nil => simp
  | cons p l ih =>
    intro ng hp
    rcases List.mem_cons.1 hp with rfl | hp
    · refine (Extends.foldl (fun ng _ => ?_) l _).nets _ (hinner bits ng hbit)
      exact Extends.foldl (fun ng bit => Extends.ensureNet ng bit) _ ng
    · exact ih _ hp

variable {inst : String} {cell : ParsedCell} {entry : CellMapEntry}

/-- An input pin has the net of a connection. -/
theorem connectInputs_mem {pins : TreeMap String YosysNetID}
    (h : connectInputs inst cell entry = .ok pins) :
    ∀ (pin : String) net, pins[pin]? = some net → ∃ pin', cell.front? pin' = some net := by
  refine Lib.foldlM_invariant
    (fun pins => ∀ (pin : String) net, pins[pin]? = some net → ∃ pin', cell.front? pin' = some net)
    h (by simp) ?_
  intro pin _ pins pins' hpins hok p net hp
  split at hok
  · next y hy =>
    cases hok
    simp only [TreeMap.getElem?_insert, Std.compare_eq_iff_eq] at hp
    split at hp
    · exact ⟨pin, hy.trans hp⟩
    · exact hpins p net hp
  · split at hok
    · cases hok
    · cases hok
      exact hpins p net hp

/-- What the loop over the output pins has done after the pins `visited`: the
outputs connected so far are driven by the new node, were free before, and
nothing else has changed. -/
structure OutInv (ng : NormalizedGraph) (cell : ParsedCell) (id : Nat)
    (visited : List (String × String)) (st : NormalizedGraph × TreeMap String YosysNetID) :
    Prop where
  nodes : st.1.nodes = ng.nodes
  nets : ∀ y, y ∈ ng.nets → y ∈ st.1.nets
  pis : st.1.PIs = ng.PIs
  pseudo : st.1.pseudoInputs = ng.pseudoInputs
  keys : ∀ (pin : String) y, st.2[pin]? = some y → pin ∈ visited.map Prod.fst
  conn : ∀ (pin : String) y, st.2[pin]? = some y → ∃ pin', cell.front? pin' = some y
  out : ∀ (pin : String) y, st.2[pin]? = some y → st.1.driver y = some id ∧ ng.driver y = none
  other : ∀ y, (∀ pin : String, st.2[pin]? ≠ some y) → st.1.driver y = ng.driver y
  inj : ∀ (pin pin' : String) y, st.2[pin]? = some y → st.2[pin']? = some y → pin = pin'

/-- One more output pin. -/
theorem outInv_step {visited : List (String × String)} {p : String × String}
    {st' : NormalizedGraph × TreeMap String YosysNetID} (hfresh : p.1 ∉ visited.map Prod.fst)
    (h : OutInv ng cell id visited st) (hok : connectOutput cell entry id st p = .ok st') :
    OutInv ng cell id (visited ++ [p]) st' := by
  have hkeys : ∀ (pin : String) y, st.2[pin]? = some y → pin ∈ (visited ++ [p]).map Prod.fst := by
    intro pin y hy
    rw [List.map_append]
    exact List.mem_append_left _ (h.keys pin y hy)
  have hmono : OutInv ng cell id (visited ++ [p]) st := { h with keys := hkeys }
  unfold connectOutput at hok
  split at hok
  · cases hok
    exact hmono
  split at hok
  · next net hnet =>
    obtain ⟨ng', hclaim, hret⟩ := Lib.bind_eq_ok.1 hok
    cases hret
    unfold claimDriver at hclaim
    split at hclaim
    · cases hclaim
    next hdrv =>
    cases hclaim
    have hnone : st.1.driver net = none := by simpa using hdrv
    -- the net was free, so it is not among the outputs connected so far
    have hnew : ∀ pin : String, st.2[pin]? ≠ some net := fun pin hpin => by
      have := (h.out pin net hpin).1
      rw [hnone] at this
      cases this
    have hget : ∀ (pin : String) y, (st.2.insert p.1 net)[pin]? = some y ↔
        (p.1 = pin ∧ net = y) ∨ (p.1 ≠ pin ∧ st.2[pin]? = some y) := by
      intro pin y
      simp only [TreeMap.getElem?_insert, Std.compare_eq_iff_eq]
      split <;> simp [*]
    have hdrive : ∀ y, (st.1.setDriver net id).driver y =
        if net = y then some id else st.1.driver y := fun y => driver_setDriver ..
    have hkey : ∀ y, st.2[p.1]? ≠ some y := fun y hy => hfresh (h.keys p.1 y hy)
    refine ⟨h.nodes, fun y hy => mem_setDriver.2 (.inr (h.nets y hy)), h.pis, h.pseudo,
      ?_, ?_, ?_, ?_, ?_⟩
    · intro pin y hy
      rcases (hget pin y).1 hy with ⟨rfl, -⟩ | ⟨-, hy⟩
      · simp
      · exact hmono.keys pin y hy
    · intro pin y hy
      rcases (hget pin y).1 hy with ⟨-, rfl⟩ | ⟨-, hy⟩
      · exact ⟨p.2, hnet⟩
      · exact h.conn pin y hy
    · intro pin y hy
      rw [hdrive]
      rcases (hget pin y).1 hy with ⟨-, rfl⟩ | ⟨-, hy⟩
      · exact ⟨if_pos rfl, (h.other net hnew).symm.trans hnone⟩
      · refine ⟨?_, (h.out pin y hy).2⟩
        rw [if_neg fun hny : net = y => hnew pin (hny ▸ hy)]
        exact (h.out pin y hy).1
    · intro y hy
      have hne : net ≠ y := fun hny => hy p.1 ((hget p.1 y).2 (.inl ⟨rfl, hny⟩))
      rw [hdrive, if_neg hne]
      refine h.other y fun pin hpin => ?_
      by_cases hp : p.1 = pin
      · exact hkey y (hp ▸ hpin)
      · exact hy pin ((hget pin y).2 (.inr ⟨hp, hpin⟩))
    · intro pin pin' y hy hy'
      rcases (hget pin y).1 hy with ⟨h1, h2⟩ | ⟨-, hy⟩ <;>
        rcases (hget pin' y).1 hy' with ⟨h1', h2'⟩ | ⟨-, hy'⟩
      · exact h1.symm.trans h1'
      · exact absurd hy' (h2 ▸ hnew pin')
      · exact absurd hy (h2' ▸ hnew pin)
      · exact h.inj pin pin' y hy hy'
  · cases hok
    exact hmono

/-- The loop over the output pins of a cell. -/
theorem outInv_outputs
    (hok : entry.outputs.toList.foldlM (connectOutput cell entry id) (ng, ∅) = .ok st) :
    OutInv ng cell id entry.outputs.toList st := by
  refine Lib.foldlM_visited (OutInv ng cell id) hok ?_ ?_
  · exact ⟨rfl, fun _ h => h, rfl, rfl, by simp, by simp, by simp, fun _ _ => rfl, by simp⟩
  · intro pre p post c c' hl hc hstep
    refine outInv_step ?_ hc hstep
    have hd := TreeMap.distinct_keys_toList (t := entry.outputs)
    rw [hl, List.pairwise_append] at hd
    rintro hmem
    obtain ⟨q, hq, hqp⟩ := List.mem_map.1 hmem
    exact hd.2.2 q hq p (by simp) (by simp [hqp])

/-- A pin that must be connected has a net. -/
theorem firstConnOrThrow_eq_ok {cellType : String}
    (h : firstConnOrThrow cell pin cellType = .ok net) : cell.front? pin = some net := by
  unfold firstConnOrThrow at h
  split at h
  · next hn => cases h; exact hn
  · cases h

/-- The net of a control that is present comes from a pin. -/
theorem buildFfControl_net {ctl : CellFFControl} {keep : Bool} {cfg : FFControlConfig}
    (h : buildFfControl ctl cell keep = .ok cfg) (hp : cfg.present = true) :
    ∃ pin, cell.front? pin = some cfg.net := by
  unfold buildFfControl at h
  split at h
  · obtain ⟨net, hnet, hret⟩ := Lib.bind_eq_ok.1 h
    cases hret
    exact ⟨ctl.pin, firstConnOrThrow_eq_ok hnet⟩
  · cases h
    cases hp

/-- Every net of a flip-flop configuration is connected to a pin of the cell. -/
theorem buildFfConfig_nets {cfg : FFConfig} (h : buildFfConfig entry cell = .ok cfg) :
    ∀ net ∈ ffNets cfg, ∃ pin, cell.front? pin = some net := by
  unfold buildFfConfig at h
  obtain ⟨clk, hclk, h⟩ := Lib.bind_eq_ok.1 h
  obtain ⟨d, hd, h⟩ := Lib.bind_eq_ok.1 h
  obtain ⟨libPin, -, h⟩ := Lib.bind_eq_ok.1 h
  obtain ⟨q, hq, h⟩ := Lib.bind_eq_ok.1 h
  obtain ⟨clear, hclear, h⟩ := Lib.bind_eq_ok.1 h
  obtain ⟨preset, hpreset, h⟩ := Lib.bind_eq_ok.1 h
  obtain ⟨enable, henable, h⟩ := Lib.bind_eq_ok.1 h
  obtain ⟨⟨si, se⟩, hscan, h⟩ := Lib.bind_eq_ok.1 h
  cases h
  intro net hnet
  simp only [ffNets, List.mem_append, List.mem_cons, List.not_mem_nil, or_false] at hnet
  rcases hnet with (((hnet | hnet) | hnet) | hnet) | hnet
  · rcases hnet with rfl | rfl | rfl
    exacts [⟨_, firstConnOrThrow_eq_ok hd⟩, ⟨_, firstConnOrThrow_eq_ok hclk⟩,
      ⟨_, firstConnOrThrow_eq_ok hq⟩]
  · split at hnet
    · next hp => exact List.mem_singleton.1 hnet ▸ buildFfControl_net hclear hp
    · simp at hnet
  · split at hnet
    · next hp => exact List.mem_singleton.1 hnet ▸ buildFfControl_net hpreset hp
    · simp at hnet
  · split at hnet
    · next hp => exact List.mem_singleton.1 hnet ▸ buildFfControl_net henable hp
    · simp at hnet
  · split at hnet
    · next hs =>
      rw [ffScanNets, if_pos hs] at hscan
      obtain ⟨si', hsi, hscan⟩ := Lib.bind_eq_ok.1 hscan
      obtain ⟨se', hse, hscan⟩ := Lib.bind_eq_ok.1 hscan
      cases hscan
      simp only [List.mem_cons, List.not_mem_nil, or_false] at hnet
      rcases hnet with rfl | rfl
      exacts [⟨_, firstConnOrThrow_eq_ok hsi⟩, ⟨_, firstConnOrThrow_eq_ok hse⟩]
    · simp at hnet

/-- The mode multiplexer of a scan wrapper. -/
theorem Build.Inv.addWbrMux (h : b.Inv) (hconn : ConnsIn cell b.ng)
    (hok : addWbrMux inst cell entry b = .ok b') : b'.Inv := by
  unfold NormalizedGraph.addWbrMux at hok
  split at hok
  · next cfi cto drive hcfi hcto hdrive =>
    obtain ⟨ng', hclaim, hret⟩ := Lib.bind_eq_ok.1 hok
    cases hret
    unfold claimDriver at hclaim
    split at hclaim
    · cases hclaim
    next hd =>
    cases hclaim
    refine h.pushSingle _ rfl rfl ?_ (.inl (by simpa using hd)) ⟨by simp, ?_⟩ ?_
    · intro pin y hy
      simp only [TreeMap.getElem?_insert, Std.compare_eq_iff_eq] at hy
      split at hy
      · cases hy; exact hconn _ _ hcto
      · split at hy
        · cases hy; exact hconn _ _ hcfi
        · simp at hy
    · simp only
      split <;> simp
    · intro hg
      simp only at hg
      split at hg <;> cases hg
  · cases hok

/-- **Elaborating a cell keeps the invariant.** -/
theorem Build.Inv.elaborateCell (h : b.Inv) (hconn : ConnsIn cell b.ng) (hparsed : entry.Parsed)
    (hok : elaborateCell inst cell entry b = .ok b') : b'.Inv := by
  unfold NormalizedGraph.elaborateCell at hok
  obtain ⟨ins, hins, hok⟩ := Lib.bind_eq_ok.1 hok
  obtain ⟨outs, houts, hok⟩ := Lib.bind_eq_ok.1 hok
  obtain ⟨ff, hff, hok⟩ := Lib.bind_eq_ok.1 hok
  obtain ⟨ng2, hng2, hok⟩ := Lib.bind_eq_ok.1 hok
  have hout := outInv_outputs houts
  -- the tags and the wrapper record change neither nodes nor drivers
  have hext : Extends outs.1 ng2 := by
    have htag : Extends outs.1 (if entry.nodeType = .FF then outs.1.tagFf ff else outs.1) :=
      Extends.ite (Extends.tagFf outs.1 ff)
    unfold recordWrapper at hng2
    split at hng2
    · obtain ⟨wc, -, hng2⟩ := Lib.bind_eq_ok.1 hng2
      cases hng2
      exact htag.trans ⟨rfl, fun _ => rfl, fun _ h => h, fun _ h => h, fun _ h => h⟩
    · cases hng2
      exact htag
  have hnet : ∀ pin net, cell.front? pin = some net → net ∈ ng2.nets :=
    fun pin net hp => hext.nets net (hout.nets net (hconn pin net hp))
  let node : NormNode :=
    { id := b.nextNodeId, instanceName := inst, type := entry.nodeType,
      gateType := if entry.nodeType = .FF then .DFF else entry.gateType,
      inputPins := ins, outputPins := outs.2, ffConfig := ff }
  have hgate : entry.gateType ≠ .INPUT ∧ entry.gateType ≠ .DFF := by
    have := hparsed.1
    simp only [List.mem_cons, not_or] at this
    exact ⟨this.1, this.2.1⟩
  have hpush : (b.push ng2 node).Inv := by
    refine ⟨h.ng.push (hext.nodes.trans hout.nodes) (fun y hy => hext.nets y (hout.nets y hy))
      (fun y hy => hext.pis y (hout.pis ▸ hy)) (fun y hy => hext.pseudo y (hout.pseudo ▸ hy))
      h.next ⟨?_, ?_, ?_⟩ ?_ ?_ (.inl fun pin y hy => (hout.out pin y hy).2) hout.inj ?_ ?_, ?_⟩
    · intro pin y hy
      obtain ⟨pin', hpin'⟩ := connectInputs_mem hins pin y hy
      exact hnet pin' y hpin'
    · intro pin y hy
      obtain ⟨pin', hpin'⟩ := hout.conn pin y hy
      exact hnet pin' y hpin'
    · intro ht net hmem
      rw [cellFfConfig, if_pos ht] at hff
      obtain ⟨pin, hpin⟩ := buildFfConfig_nets hff net hmem
      exact hnet pin net hpin
    · exact fun pin y hy => (hext.driver y).trans (hout.out pin y hy).1
    · exact fun y hy => (hext.driver y).trans (hout.other y hy)
    · by_cases ht : entry.nodeType = .FF
      · simp [node, ht]
      · simp [node, ht, hgate.2]
    · intro hg
      by_cases ht : entry.nodeType = .FF
      · simp [node, ht] at hg
      · simp [node, ht, hgate.1] at hg
    · have hlen := congrArg List.length (hext.nodes.trans hout.nodes)
      simp [Build.push, hlen, h.next]
  change (if isScanWbr entry = true then NormalizedGraph.addWbrMux inst cell entry (b.push ng2 node)
    else pure (b.push ng2 node)) = .ok b' at hok
  split at hok
  · exact hpush.addWbrMux (fun pin net hp => hnet pin net hp) hok
  · cases hok
    exact hpush

variable {cellMap : CellMap} {policy : String} {bb : TreeSet String}

/-- One cell, of whatever kind. -/
theorem Build.Inv.cellStep (h : b.Inv) {p : String × ParsedCell}
    (hok : cellStep cellMap policy bb b p = .ok b') : b'.Inv := by
  have hx := Extends.ensureConns p.2 b.ng
  have hkeep : ∀ ng', Extends b.ng ng' → Build.Inv { b with ng := ng' } := fun ng' hng' =>
    ⟨h.ng.extend hng', by rw [hng'.nodes]; exact h.next⟩
  unfold NormalizedGraph.cellStep at hok
  simp only at hok
  split at hok
  · cases hok
    exact hkeep _ (hx.trans (Extends.blackboxInstance ..))
  split at hok
  · split at hok
    · cases hok
      exact hkeep _ (hx.trans (Extends.blackboxByDirection ..))
    · cases hok
  · next entry hentry =>
    split at hok
    · split at hok
      · cases hok
        exact hkeep _ (hx.trans (Extends.blackboxUnsupported ..))
      · cases hok
    split at hok
    · cases hok
    · exact (hkeep _ hx).elaborateCell (connsIn_ensureConns p.2 b.ng)
        (CellMap.parsed_of_lookup hentry) hok

/-- **The graph is well formed once the cells are in.** -/
theorem cells_inv {mod : ParsedModule} (hok : mod.cells.toList.foldlM (cellStep cellMap policy bb)
      { ng := collectPorts mod (collectNetnames mod {}) } = .ok b) : b.Inv := by
  have hx : Extends {} (collectPorts mod (collectNetnames mod {})) :=
    (Extends.collectNetnames mod {}).trans (Extends.collectPorts mod _)
  have h0 : Build.Inv { ng := collectPorts mod (collectNetnames mod {}) } :=
    ⟨inv_empty.extend hx, by rw [hx.nodes]; rfl⟩
  exact Lib.foldlM_invariant Build.Inv hok h0 fun _ _ _ _ hc hstep => hc.cellStep hstep

/-- All inputs of the ports. -/
theorem Build.Inv.addPis (h : b.Inv) (hok : b.ng.PIs.toList.foldlM NormalizedGraph.addPi b = .ok b') :
    b'.Inv ∧ b'.ng.PIs = b.ng.PIs := by
  refine Lib.foldlM_invariant (fun c : Build => c.Inv ∧ c.ng.PIs = b.ng.PIs) hok ⟨h, rfl⟩ ?_
  intro pi hpi c c' hc hstep
  have hmem : pi ∈ c.ng.PIs := by
    rw [hc.2]
    exact TreeSet.mem_toList.1 hpi
  obtain ⟨hinv, hp, -⟩ := hc.1.addPi hmem hstep
  exact ⟨hinv, hp.trans hc.2⟩

/-- **Elaboration keeps the invariant**, through all its phases. -/
theorem elaborate_inv (hok : elaborate mod cellMap policy bb = .ok b) : b.Inv := by
  unfold elaborate at hok
  obtain ⟨-, -, hok⟩ := Lib.bind_eq_ok.1 hok
  obtain ⟨b1, hcells, hok⟩ := Lib.bind_eq_ok.1 hok
  obtain ⟨b2, hpis, hok⟩ := Lib.bind_eq_ok.1 hok
  have h2 := (cells_inv hcells).addPis hpis
  have h3 : (b2.ng.pseudoInputs.toList.foldl addPseudoPi b2).Inv := by
    refine (Lib.foldl_invariant
      (fun c : Build => c.Inv ∧ c.ng.pseudoInputs = b2.ng.pseudoInputs) ⟨h2.1, rfl⟩ ?_).1
    intro ppi hppi c hc
    have hmem : ppi ∈ c.ng.pseudoInputs := by
      rw [hc.2]
      exact TreeSet.mem_toList.1 hppi
    obtain ⟨hinv, hp⟩ := hc.1.addPseudoPi hmem
    exact ⟨hinv, hp.trans hc.2⟩
  cases hok
  exact (h3.addConst const0NetId (by decide)).addConst const1NetId (by decide)

/-- Levels are no part of the invariant. -/
theorem Inv.levelize (h : Inv ng) : Inv (levelize ng) := by
  have hmem : ∀ node ∈ (NormalizedGraph.levelize ng).nodes, ∃ n ∈ ng.nodes, ∃ l,
      node = { n with level := l } := by
    intro node hnode
    obtain ⟨n, hn, rfl⟩ := List.mem_map.1 hnode
    exact ⟨n, hn, _, rfl⟩
  have hlift : ∀ n ∈ ng.nodes, ∃ node ∈ (NormalizedGraph.levelize ng).nodes, ∃ l,
      node = { n with level := l } := fun n hn => ⟨_, List.mem_map_of_mem hn, _, rfl⟩
  refine ⟨?_, ?_, ?_, ?_, ?_, ?_, ?_⟩
  · simpa [NormalizedGraph.levelize, Function.comp_def] using h.ids
  · intro node hnode
    obtain ⟨n, hn, l, rfl⟩ := hmem node hnode
    have hc := h.closed n hn
    exact ⟨hc.inputs, hc.outputs, hc.ff⟩
  · intro node hnode pin net hp
    obtain ⟨n, hn, l, rfl⟩ := hmem node hnode
    rcases h.outputs n hn pin net hp with hd | ⟨c, hc, hct, hci, hcd⟩
    · exact .inl hd
    · obtain ⟨c', hc', l', rfl⟩ := hlift c hc
      exact .inr ⟨_, hc', hct, hci, hcd⟩
  · intro node hnode
    obtain ⟨n, hn, l, rfl⟩ := hmem node hnode
    exact h.outputs_inj n hn
  · intro net d hd
    obtain ⟨n, hn, hid, pin, hp⟩ := h.driver net d hd
    obtain ⟨n', hn', l, rfl⟩ := hlift n hn
    exact ⟨_, hn', hid, pin, hp⟩
  · intro node hnode
    obtain ⟨n, hn, l, rfl⟩ := hmem node hnode
    exact h.dff n hn
  · intro node hnode
    obtain ⟨n, hn, l, rfl⟩ := hmem node hnode
    exact h.input n hn

end NormalizedGraph

end FaultFlow
