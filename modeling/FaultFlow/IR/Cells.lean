/-
# The nodes of the cells

`from_parsed` turns every supported cell into one node, a scan wrapper into two, and
then adds a source for every primary input, for every undriven pseudo-input and for
the constants that are used.  Without their numbers and levels, which depend on the
rest of the netlist, the nodes are a function of the netlist: `cellNodes` of every
cell, and the sources (`exists_nodes_eq`).
-/

import FaultFlow.IR.Ports

namespace FaultFlow

open Std (TreeMap TreeSet)

/-- A node without its number and its level. -/
def NormNode.bare (n : NormNode) : NormNode := { n with id := 0, level := 0 }

namespace NormalizedGraph

/-- The declared input pins that are connected. -/
def inputPinsOf (cell : ParsedCell) (entry : CellMapEntry) : TreeMap String YosysNetID :=
  entry.inputs.foldl (fun pins pin =>
    match cell.front? pin with
    | some net => pins.insert pin net
    | none => pins) ∅

/-- The declared output pins that are connected, without the one that a scan wrapper
leaves to its multiplexer. -/
def outputPinsOf (cell : ParsedCell) (entry : CellMapEntry) : TreeMap String YosysNetID :=
  entry.outputs.toList.foldl (fun pins p =>
    if isScanWbr entry && p.1 == wbrDrivePin entry then pins
    else match cell.front? p.2 with
      | some net => pins.insert p.1 net
      | none => pins) ∅

/-- The node of a supported cell. -/
def cellNode (inst : String) (cell : ParsedCell) (entry : CellMapEntry) : NormNode :=
  { instanceName := inst, type := entry.nodeType
    gateType := if entry.nodeType = .FF then .DFF else entry.gateType
    inputPins := inputPinsOf cell entry, outputPins := outputPinsOf cell entry
    ffConfig := ((cellFfConfig cell entry).toOption).getD {} }

/-- The multiplexer of a scan wrapper. -/
def wbrMuxNodes (inst : String) (cell : ParsedCell) (entry : CellMapEntry) : List NormNode :=
  match cell.front? entry.wbr.funcInPin, cell.front? entry.wbr.chainOutPin,
      cell.front? (wbrDrivePin entry) with
  | some cfi, some cto, some drive =>
    [{ instanceName := inst ++ "$wbrmux", type := .GATE
       gateType := if entry.wbr.isInput then .WBR_IN else .WBR_OUT
       inputPins := ((∅ : TreeMap String YosysNetID).insert entry.wbr.funcInPin cfi).insert
         entry.wbr.chainOutPin cto
       outputPins := (∅ : TreeMap String YosysNetID).insert (wbrDrivePin entry) drive }]
  | _, _, _ => []

/-- The nodes of a supported cell. -/
def entryNodes (inst : String) (cell : ParsedCell) (entry : CellMapEntry) : List NormNode :=
  cellNode inst cell entry :: if isScanWbr entry then wbrMuxNodes inst cell entry else []

/-- The nodes of a cell; a blackboxed or unsupported cell has none. -/
def cellNodes (cellMap : CellMap) (bb : TreeSet String) (p : String × ParsedCell) :
    List NormNode :=
  if bb.contains p.1 then []
  else match cellMap.lookup p.2.type with
    | none => []
    | some entry => if entry.unsupported then [] else entryNodes p.1 p.2 entry

/-! ## The pins -/

variable {cell : ParsedCell} {entry : CellMapEntry} {inst policy : String} {b b' : Build}
  {p : String × ParsedCell} {cellMap : CellMap} {bb : TreeSet String}

/-- The pins that are connected; a plain gate has all of its inputs. -/
theorem connectInputs_eq {pins : TreeMap String YosysNetID}
    (h : connectInputs inst cell entry = .ok pins) :
    pins = inputPinsOf cell entry ∧ (entry.nodeType = .GATE → entry.wbr.present = false →
      ∀ pin ∈ entry.inputs, (cell.front? pin).isSome) := by
  have hrun := Lib.foldlM_visited (fun (visited : List String) pins =>
    pins = visited.foldl (fun pins pin =>
      match cell.front? pin with
      | some net => pins.insert pin net
      | none => pins) ∅ ∧ (entry.nodeType = .GATE → entry.wbr.present = false →
      ∀ pin ∈ visited, (cell.front? pin).isSome)) h ⟨rfl, by simp⟩ ?_
  · exact hrun
  · rintro pre pin post pins pins' - ⟨rfl, hall⟩ hstep
    simp only [List.foldl_append, List.foldl_cons, List.foldl_nil, List.forall_mem_append,
      List.forall_mem_singleton]
    cases hfront : cell.front? pin with
    | some net =>
      simp only [hfront] at hstep
      cases hstep
      exact ⟨rfl, fun hg hw => ⟨hall hg hw, rfl⟩⟩
    | none =>
      simp only [hfront] at hstep
      split at hstep
      · cases hstep
      · rename_i hnot
        cases hstep
        exact ⟨rfl, fun hg hw => absurd ⟨hg, hw⟩ hnot⟩

/-- A pin of the map is an input that the cell connects. -/
theorem getElem?_inputPinsOf (cell : ParsedCell) (entry : CellMapEntry) (pin : String) :
    (inputPinsOf cell entry)[pin]? = if pin ∈ entry.inputs then cell.front? pin else none := by
  have hrun := Lib.foldl_visited (fun (visited : List String) (pins : TreeMap String YosysNetID) =>
      ∀ q : String, pins[q]? = if q ∈ visited then cell.front? q else none)
    (f := fun pins pin =>
      match cell.front? pin with
      | some net => pins.insert pin net
      | none => pins) (l := entry.inputs) (b := (∅ : TreeMap String YosysNetID)) ?_ ?_
  · exact hrun pin
  · intro q
    simp
  · intro pre a post pins _ hpins q
    simp only [List.mem_append, List.mem_singleton]
    cases hfront : cell.front? a with
    | some net =>
      simp only [TreeMap.getElem?_insert, Std.compare_eq_iff_eq, hpins]
      by_cases hq : a = q
      · simp [← hq, hfront]
      · simp [hq, Ne.symm hq]
    | none =>
      simp only [hpins]
      by_cases hq : q = a
      · simp [hq, hfront]
      · simp [hq]

variable {ng : NormalizedGraph}

/-- What `connectOutput` does to the pins. -/
theorem outputs_eq {id : Nat} {st : NormalizedGraph × TreeMap String YosysNetID}
    (h : entry.outputs.toList.foldlM (connectOutput cell entry id) (ng, ∅) = .ok st) :
    st.2 = outputPinsOf cell entry := by
  refine Lib.foldlM_visited (fun (visited : List (String × String)) st =>
    st.2 = visited.foldl (fun pins p =>
      if isScanWbr entry && p.1 == wbrDrivePin entry then pins
      else match cell.front? p.2 with
        | some net => pins.insert p.1 net
        | none => pins) ∅) h rfl ?_
  intro pre p post c c' _ hc hstep
  simp only [List.foldl_append, List.foldl_cons, List.foldl_nil, ← hc]
  unfold connectOutput at hstep
  split at hstep
  · rename_i hskip
    cases hstep
    rw [if_pos hskip]
  · rename_i hskip
    rw [if_neg hskip]
    cases hfront : cell.front? p.2 with
    | some net =>
      simp only [hfront] at hstep
      obtain ⟨ng', -, hret⟩ := Lib.bind_eq_ok.1 hstep
      cases hret
      rfl
    | none =>
      simp only [hfront] at hstep
      cases hstep
      rfl

/-- A pin of `outputPinsOf`. -/
theorem getElem?_outputPinsOf {pin : String} {y : YosysNetID} :
    (outputPinsOf cell entry)[pin]? = some y ↔
      ∃ lib, (pin, lib) ∈ entry.outputs.toList ∧
        ¬ (isScanWbr entry = true ∧ pin = wbrDrivePin entry) ∧ cell.front? lib = some y := by
  have hkeys := TreeMap.distinct_keys_toList (t := entry.outputs)
  have hrun := Lib.foldl_visited (fun (visited : List (String × String))
      (pins : TreeMap String YosysNetID) => ∀ q z, pins[q]? = some z ↔
        ∃ lib, (q, lib) ∈ visited ∧ ¬ (isScanWbr entry = true ∧ q = wbrDrivePin entry) ∧
          cell.front? lib = some z)
    (f := fun pins p =>
      if isScanWbr entry && p.1 == wbrDrivePin entry then pins
      else match cell.front? p.2 with
        | some net => pins.insert p.1 net
        | none => pins)
    (l := entry.outputs.toList) (b := (∅ : TreeMap String YosysNetID)) ?_ ?_
  · exact hrun pin y
  · intro q z
    simp
  · rintro pre ⟨a, l⟩ post pins hl hpins q z
    -- the keys of the outputs are distinct, so the pin is new
    have hnew : ∀ lib, (a, lib) ∉ pre := by
      intro lib hmem
      rw [hl, List.pairwise_append] at hkeys
      exact hkeys.2.2 _ hmem (a, l) (.head _) (by simp)
    simp only [List.mem_append, List.mem_singleton, Prod.mk.injEq]
    split
    · rename_i hskip
      simp only [Bool.and_eq_true, beq_iff_eq] at hskip
      rw [hpins]
      constructor
      · rintro ⟨lib, hmem, hrest⟩
        exact ⟨lib, .inl hmem, hrest⟩
      · rintro ⟨lib, hmem | ⟨rfl, rfl⟩, hnot, hz⟩
        · exact ⟨lib, hmem, hnot, hz⟩
        · exact absurd hskip hnot
    · rename_i hskip
      simp only [Bool.and_eq_true, beq_iff_eq] at hskip
      cases hfront : cell.front? l with
      | some net =>
        simp only [TreeMap.getElem?_insert, Std.compare_eq_iff_eq]
        by_cases hq : a = q
        · subst hq
          rw [if_pos rfl, Option.some.injEq]
          constructor
          · rintro rfl
            exact ⟨l, .inr ⟨rfl, rfl⟩, hskip, hfront⟩
          · rintro ⟨lib, hmem | ⟨-, rfl⟩, -, hz⟩
            · exact absurd hmem (hnew lib)
            · exact Option.some.inj (hfront.symm.trans hz)
        · rw [if_neg hq, hpins]
          constructor
          · rintro ⟨lib, hmem, hrest⟩
            exact ⟨lib, .inl hmem, hrest⟩
          · rintro ⟨lib, hmem | ⟨rfl, -⟩, hrest⟩
            · exact ⟨lib, hmem, hrest⟩
            · exact absurd rfl hq
      | none =>
        simp only [hpins]
        constructor
        · rintro ⟨lib, hmem, hrest⟩
          exact ⟨lib, .inl hmem, hrest⟩
        · rintro ⟨lib, hmem | ⟨rfl, rfl⟩, hnot, hz⟩
          · exact ⟨lib, hmem, hnot, hz⟩
          · exact absurd (hfront.symm.trans hz) (Option.some_ne_none _).symm

/-! ## The cells -/

/-- What elaboration has checked of a cell with a supported entry. -/
structure Supported (p : String × ParsedCell) (entry : CellMapEntry) : Prop where
  unsupported : entry.unsupported = false
  type : entry.nodeType ≠ .LATCH ∧ entry.nodeType ≠ .TBUF
  inputs : entry.nodeType = .GATE → entry.wbr.present = false →
    ∀ pin ∈ entry.inputs, (p.2.front? pin).isSome
  ff : entry.nodeType = .FF → ∃ cfg, buildFfConfig entry p.2 = .ok cfg
  mux : isScanWbr entry = true → wbrMuxNodes p.1 p.2 entry ≠ []

/-- A wrapper cell adds its nodes, and at least one. -/
theorem nodes_addWbrMux (hok : addWbrMux inst cell entry b = .ok b') :
    b'.ng.nodes.map NormNode.bare =
        b.ng.nodes.map NormNode.bare ++ wbrMuxNodes inst cell entry ∧
      wbrMuxNodes inst cell entry ≠ [] := by
  unfold addWbrMux at hok
  split at hok
  · rename_i cfi cto drive hcfi hcto hdrive
    obtain ⟨ng, hclaim, hret⟩ := Lib.bind_eq_ok.1 hok
    cases hret
    unfold claimDriver at hclaim
    split at hclaim
    · cases hclaim
    · cases hclaim
      simp only [wbrMuxNodes, hcfi, hcto, hdrive, Build.push, List.map_append, List.map_singleton]
      exact ⟨rfl, List.cons_ne_nil _ _⟩
  · cases hok

/-- **A supported cell adds the nodes of its entry.** -/
theorem nodes_elaborateCell (huns : entry.unsupported = false)
    (htype : ¬ (entry.nodeType = .LATCH ∨ entry.nodeType = .TBUF))
    (hok : elaborateCell p.1 p.2 entry b = .ok b') :
    b'.ng.nodes.map NormNode.bare = b.ng.nodes.map NormNode.bare ++ entryNodes p.1 p.2 entry ∧
      Supported p entry := by
  unfold elaborateCell at hok
  obtain ⟨ins, hins, hok⟩ := Lib.bind_eq_ok.1 hok
  obtain ⟨outs, houts, hok⟩ := Lib.bind_eq_ok.1 hok
  obtain ⟨ff, hff, hok⟩ := Lib.bind_eq_ok.1 hok
  obtain ⟨ng, hng, hok⟩ := Lib.bind_eq_ok.1 hok
  obtain ⟨rfl, hconn⟩ := connectInputs_eq hins
  have hcfg : entry.nodeType = .FF → ∃ cfg, buildFfConfig entry p.2 = .ok cfg := by
    intro hff'
    rw [cellFfConfig, if_pos hff'] at hff
    exact ⟨ff, hff⟩
  have hnodes : ng.nodes = b.ng.nodes := by
    have htag : (if entry.nodeType = .FF then outs.1.tagFf ff else outs.1).nodes = b.ng.nodes := by
      rw [← (outInv_outputs houts).nodes]
      split
      · exact (Extends.tagFf outs.1 ff).nodes
      · rfl
    rw [← htag]
    unfold recordWrapper at hng
    split at hng
    · obtain ⟨wc, -, hng⟩ := Lib.bind_eq_ok.1 hng
      cases hng
      rfl
    · cases hng
      rfl
  have hff' : ff = ((cellFfConfig p.2 entry).toOption).getD {} := by rw [hff]; rfl
  simp only at hok
  split at hok
  · rename_i hscan
    obtain ⟨hmux, hne⟩ := nodes_addWbrMux hok
    refine ⟨?_, huns, not_or.1 htype, hconn, hcfg, fun _ => hne⟩
    rw [hmux, entryNodes, if_pos hscan]
    simp only [Build.push, List.map_append, hnodes, List.map_singleton, List.append_assoc,
      outputs_eq houts, hff']
    rfl
  · rename_i hscan
    cases hok
    refine ⟨?_, huns, not_or.1 htype, hconn, hcfg, fun h => absurd h hscan⟩
    rw [entryNodes, if_neg hscan]
    simp only [Build.push, List.map_append, hnodes, List.map_singleton, outputs_eq houts, hff']
    rfl

/-- What elaboration has checked of a cell. -/
def Accepted (cellMap : CellMap) (policy : String) (bb : TreeSet String)
    (p : String × ParsedCell) : Prop :=
  bb.contains p.1 = true ∨ policy = "blackbox" ∨
    ∃ entry, cellMap.lookup p.2.type = some entry ∧ Supported p entry

/-- **A turn of the loop over the cells.** -/
theorem nodes_cellStep (hok : cellStep cellMap policy bb b p = .ok b') :
    b'.ng.nodes.map NormNode.bare = b.ng.nodes.map NormNode.bare ++ cellNodes cellMap bb p ∧
      (∀ entry, bb.contains p.1 = false → cellMap.lookup p.2.type = some entry →
        entry.unsupported = false → Supported p entry) ∧ Accepted cellMap policy bb p := by
  have hconns := (Extends.ensureConns p.2 b.ng).nodes
  unfold cellStep at hok
  unfold cellNodes
  simp only at hok
  split at hok
  · rename_i hbb
    cases hok
    rw [if_pos hbb, List.append_nil, (Extends.blackboxInstance ..).nodes, hconns]
    exact ⟨rfl, fun _ h => absurd (h.symm.trans hbb) Bool.false_ne_true, .inl hbb⟩
  rename_i hbb
  rw [if_neg hbb]
  split at hok
  · rename_i hlook
    split at hok
    · rename_i hpolicy
      cases hok
      rw [hlook, List.append_nil, (Extends.blackboxByDirection ..).nodes, hconns]
      exact ⟨rfl, fun _ _ h => absurd h (Option.some_ne_none _).symm,
        .inr (.inl (beq_iff_eq.1 hpolicy))⟩
    · cases hok
  · rename_i entry hlook
    rw [hlook]
    split at hok
    · rename_i huns
      split at hok
      · rename_i hpolicy
        cases hok
        rw [(Extends.blackboxUnsupported ..).nodes, hconns]
        simp only [huns, if_true, List.append_nil, true_and]
        refine ⟨fun entry' _ h h' => ?_, .inr (.inl (beq_iff_eq.1 hpolicy))⟩
        obtain rfl := Option.some.inj h
        exact absurd (h'.symm.trans huns) Bool.false_ne_true
      · cases hok
    · rename_i huns
      rw [Bool.not_eq_true] at huns
      split at hok
      · cases hok
      · rename_i htype
        obtain ⟨hnodes, hsup⟩ := nodes_elaborateCell huns htype hok
        rw [hnodes, hconns]
        simp only [huns, if_false, Bool.false_eq_true, true_and]
        refine ⟨fun entry' _ h _ => ?_, .inr (.inr ⟨entry, hlook, hsup⟩)⟩
        obtain rfl := Option.some.inj h
        exact hsup

/-! ## The sources -/

/-- The constants that are used. -/
def constNodes (ng : NormalizedGraph) : List NormNode :=
  ([(const0NetId, GateType.CONST0), (const1NetId, .CONST1)].filter fun c =>
    ng.nets.contains c.1).map fun c => sourceNode 0 .CONST c.2 c.1

/-- A source is one node. -/
theorem nodes_addSource (b : Build) (type : NodeType) (gateType : GateType) (net : YosysNetID) :
    (addSource b type gateType net).ng.nodes.map NormNode.bare =
      b.ng.nodes.map NormNode.bare ++ [sourceNode 0 type gateType net] := by
  simp only [addSource, Build.push, List.map_append, List.map_singleton]
  rfl

/-- The primary inputs. -/
theorem nodes_addPis {pis : List YosysNetID} (hok : pis.foldlM addPi b = .ok b') :
    b'.ng.nodes.map NormNode.bare =
      b.ng.nodes.map NormNode.bare ++ pis.map (sourceNode 0 .GATE .INPUT) := by
  refine Lib.foldlM_visited (fun (visited : List YosysNetID) (c : Build) =>
    c.ng.nodes.map NormNode.bare =
      b.ng.nodes.map NormNode.bare ++ visited.map (sourceNode 0 .GATE .INPUT)) hok (by simp) ?_
  intro pre pi post c c' _ hc hstep
  unfold addPi at hstep
  split at hstep
  · cases hstep
  · cases hstep
    rw [nodes_addSource, hc, List.map_append, List.map_singleton, List.append_assoc]

/-- The pseudo inputs, where nothing drives the net. -/
theorem nodes_addPseudoPis (b : Build) {ppis : List YosysNetID} (hnd : ppis.Nodup) :
    (ppis.foldl addPseudoPi b).ng.nodes.map NormNode.bare = b.ng.nodes.map NormNode.bare ++
      (ppis.filter fun y => (b.ng.driver y).isNone).map (sourceNode 0 .GATE .INPUT) := by
  have hrun := Lib.foldl_visited (fun (visited : List YosysNetID) (c : Build) =>
    c.ng.nodes.map NormNode.bare = b.ng.nodes.map NormNode.bare ++
      (visited.filter fun y => (b.ng.driver y).isNone).map (sourceNode 0 .GATE .INPUT) ∧
    ∀ y ∉ visited, c.ng.driver y = b.ng.driver y) (f := addPseudoPi) (l := ppis) (b := b) ?_ ?_
  · exact hrun.1
  · exact ⟨by simp, fun _ _ => rfl⟩
  · rintro pre ppi post c hl ⟨hc, hdrv⟩
    have hnew : ppi ∉ pre := by
      rw [hl] at hnd
      exact fun hmem => (List.nodup_append.1 hnd).2.2 ppi hmem ppi (.head _) rfl
    rw [List.filter_append, List.map_append]
    unfold addPseudoPi
    rw [hdrv ppi hnew]
    cases hdr : b.ng.driver ppi with
    | some d =>
      simp only [Option.isSome_some, if_true, hc, hdr, Option.isNone_some, List.filter_cons,
        Bool.false_eq_true, if_false, List.filter_nil, List.map_nil, List.append_nil, true_and]
      exact fun y hy => hdrv y fun hmem => hy (List.mem_append_left _ hmem)
    | none =>
      simp only [Option.isSome_none, Bool.false_eq_true, if_false, nodes_addSource, hc, hdr,
        Option.isNone_none, List.filter_cons, if_true, List.filter_nil, List.map_singleton,
        List.append_assoc, true_and]
      intro y hy
      rw [List.mem_append, List.mem_singleton, not_or] at hy
      exact (driver_setDriver ..).trans ((if_neg (Ne.symm hy.2)).trans (hdrv y hy.1))

/-- A constant, where the netlist has its net. -/
theorem nodes_addConst (b : Build) (net : YosysNetID) (gateType : GateType) :
    (addConst b net gateType).ng.nodes.map NormNode.bare = b.ng.nodes.map NormNode.bare ++
        (if b.ng.nets.contains net then [sourceNode 0 .CONST gateType net] else []) ∧
      ∀ y, (addConst b net gateType).ng.nets.contains y = b.ng.nets.contains y := by
  unfold addConst
  split
  · rename_i hmem
    refine ⟨nodes_addSource b .CONST gateType net, fun y => ?_⟩
    rw [Bool.eq_iff_iff]
    refine mem_setDriver.trans ⟨?_, .inr⟩
    rintro (rfl | hy)
    · exact hmem
    · exact hy
  · exact ⟨by simp, fun _ => rfl⟩

/-- The sources leave the sets of inputs alone. -/
theorem inputs_addSources (b : Build) (ppis : List YosysNetID) :
    let b' := addConst (addConst (ppis.foldl addPseudoPi b) const0NetId .CONST0) const1NetId .CONST1
    b'.ng.PIs = b.ng.PIs ∧ b'.ng.pseudoInputs = b.ng.pseudoInputs := by
  have hconst : ∀ (c : Build) net gateType, (addConst c net gateType).ng.PIs = c.ng.PIs ∧
      (addConst c net gateType).ng.pseudoInputs = c.ng.pseudoInputs := by
    intro c net gateType
    unfold addConst
    split <;> exact ⟨rfl, rfl⟩
  have hppis : (ppis.foldl addPseudoPi b).ng.PIs = b.ng.PIs ∧
      (ppis.foldl addPseudoPi b).ng.pseudoInputs = b.ng.pseudoInputs := by
    refine Lib.foldl_invariant (fun c : Build => c.ng.PIs = b.ng.PIs ∧
      c.ng.pseudoInputs = b.ng.pseudoInputs) ⟨rfl, rfl⟩ ?_
    intro ppi _ c hc
    unfold addPseudoPi
    split
    · exact hc
    · exact hc
  exact ⟨(hconst ..).1.trans ((hconst ..).1.trans hppis.1),
    (hconst ..).2.trans ((hconst ..).2.trans hppis.2)⟩

/-- Both constants. -/
theorem nodes_addConsts (b : Build) :
    let b' := addConst (addConst b const0NetId .CONST0) const1NetId .CONST1
    b'.ng.nodes.map NormNode.bare = b.ng.nodes.map NormNode.bare ++ constNodes b'.ng := by
  obtain ⟨hnodes, hnets⟩ := nodes_addConst b const0NetId .CONST0
  obtain ⟨hnodes', hnets'⟩ :=
    nodes_addConst (addConst b const0NetId .CONST0) const1NetId .CONST1
  simp only [hnodes', hnodes, constNodes, hnets', hnets, List.append_assoc]
  by_cases h0 : b.ng.nets.contains const0NetId <;> by_cases h1 : b.ng.nets.contains const1NetId <;>
    simp [h0, h1]

/-- Levels leave the nodes alone. -/
theorem nodes_levelize (ng : NormalizedGraph) :
    (levelize ng).nodes.map NormNode.bare = ng.nodes.map NormNode.bare := by
  simp [levelize, Function.comp_def, NormNode.bare]

/-! ## The graph -/

/-- A net that a node claims. -/
def Claims (n : NormNode) (y : YosysNetID) : Prop := ∃ pin : String, n.outputPins[pin]? = some y

/-- A net has a driver exactly when a node claims it. -/
theorem Inv.driver_isSome_iff (h : Inv ng) (y : YosysNetID) :
    (ng.driver y).isSome ↔ ∃ n ∈ ng.nodes.map NormNode.bare, Claims n y := by
  constructor
  · intro hsome
    obtain ⟨d, hd⟩ := Option.isSome_iff_exists.1 hsome
    obtain ⟨n, hn, -, pin, hpin⟩ := h.driver y d hd
    exact ⟨n.bare, List.mem_map_of_mem hn, pin, hpin⟩
  · rintro ⟨_, hmem, pin, hpin⟩
    obtain ⟨n, hn, rfl⟩ := List.mem_map.1 hmem
    rcases h.outputs n hn pin y hpin with hd | ⟨c, -, -, -, hd⟩
    · rw [hd]; rfl
    · rw [hd]; rfl

/-- **The nodes of the graph**: those of the cells, a source for every primary input
and for every pseudo-input that nothing claims, and the constants. -/
theorem exists_nodes_eq {mod : ParsedModule} (hok : fromParsed mod cellMap policy bb = .ok ng) :
    (∃ ppis : List YosysNetID, ng.nodes.map NormNode.bare =
        mod.cells.toList.flatMap (cellNodes cellMap bb) ++
          ng.PIs.toList.map (sourceNode 0 .GATE .INPUT) ++
          ppis.map (sourceNode 0 .GATE .INPUT) ++ constNodes ng ∧
      ppis.Nodup ∧ ∀ y, y ∈ ppis ↔ y ∈ ng.pseudoInputs ∧ y ∉ ng.PIs ∧
        ∀ n ∈ mod.cells.toList.flatMap (cellNodes cellMap bb), ¬ Claims n y) ∧
    ∀ p ∈ mod.cells.toList, (∀ entry, bb.contains p.1 = false →
      cellMap.lookup p.2.type = some entry → entry.unsupported = false → Supported p entry) ∧
      Accepted cellMap policy bb p := by
  obtain ⟨b, hb, hret⟩ := Lib.bind_eq_ok.1 hok
  cases hret
  unfold elaborate at hb
  obtain ⟨-, -, hb⟩ := Lib.bind_eq_ok.1 hb
  obtain ⟨b1, hcells, hb⟩ := Lib.bind_eq_ok.1 hb
  obtain ⟨b2, hpis, hb⟩ := Lib.bind_eq_ok.1 hb
  cases hb
  have h1 := Lib.foldlM_visited (fun (visited : List (String × ParsedCell)) (c : Build) =>
    c.ng.nodes.map NormNode.bare = visited.flatMap (cellNodes cellMap bb) ∧ ∀ p ∈ visited,
      (∀ entry, bb.contains p.1 = false → cellMap.lookup p.2.type = some entry →
        entry.unsupported = false → Supported p entry) ∧ Accepted cellMap policy bb p) hcells ?_ ?_
  · have hnodes2 := nodes_addPis hpis
    obtain ⟨hinv2, hpis2⟩ := (cells_inv hcells).addPis hpis
    rw [h1.1] at hnodes2
    have hnd : b2.ng.pseudoInputs.toList.Nodup :=
      TreeSet.distinct_toList.imp fun h heq => h (Std.compare_eq_iff_eq.2 heq)
    obtain ⟨hp, hps⟩ := inputs_addSources b2 b2.ng.pseudoInputs.toList
    refine ⟨⟨b2.ng.pseudoInputs.toList.filter fun y => (b2.ng.driver y).isNone, ?_, hnd.filter _,
      fun y => ?_⟩, h1.2⟩
    · rw [nodes_levelize, nodes_addConsts, nodes_addPseudoPis b2 hnd, hnodes2, ← hpis2, ← hp]
      rfl
    · show y ∈ b2.ng.pseudoInputs.toList.filter (fun y => (b2.ng.driver y).isNone) ↔
        y ∈ (addConst _ const1NetId .CONST1).ng.pseudoInputs ∧
          y ∉ (addConst _ const1NetId .CONST1).ng.PIs ∧ _
      rw [List.mem_filter, TreeSet.mem_toList, hp, hps, hpis2, ← Option.not_isSome, Bool.not_eq_true',
        ← Bool.not_eq_true, hinv2.ng.driver_isSome_iff, hnodes2]
      refine and_congr Iff.rfl ?_
      simp only [List.mem_append, or_and_right, exists_or, not_or, not_exists, not_and]
      rw [and_comm]
      refine and_congr ?_ Iff.rfl
      constructor
      · intro h hy
        exact h _ (List.mem_map_of_mem (TreeSet.mem_toList.2 hy)) ⟨"Y", getElem?_single.2 ⟨rfl, rfl⟩⟩
      · rintro hy _ hmem ⟨pin, hpin⟩
        obtain ⟨z, hz, rfl⟩ := List.mem_map.1 hmem
        obtain ⟨-, rfl⟩ := getElem?_single.1 hpin
        exact hy (TreeSet.mem_toList.1 hz)
  · have hx : Extends {} (collectPorts mod (collectNetnames mod {})) :=
      (Extends.collectNetnames mod {}).trans (Extends.collectPorts mod _)
    exact ⟨by rw [hx.nodes]; rfl, by simp⟩
  · rintro pre p post c c' - ⟨hc, hall⟩ hstep
    obtain ⟨hnodes, hsup, hacc⟩ := nodes_cellStep hstep
    refine ⟨by rw [hnodes, hc, List.flatMap_append, List.flatMap_singleton], ?_⟩
    intro q hq
    rcases List.mem_append.1 hq with hq | hq
    · exact hall q hq
    · rw [List.mem_singleton.1 hq]
      exact ⟨hsup, hacc⟩

end NormalizedGraph

end FaultFlow
