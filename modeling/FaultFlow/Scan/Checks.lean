/-
# The structural check of a scanned netlist

`faultflow/scan/checks.py`.  `check_scan_structure` indexes the scan flip-flops (`SDI` to
`Q`) and the wrapper cells (`CTI` to `CTO`) of a netlist, follows every chain of the manifest
from its scan-in port, and compares what it finds with the cells that the manifest lists.
It returns its findings as texts; the netlist has passed when there are none.

The hash of the netlist file, its top module and the files that exist are arguments.  An
exception ends the check with the findings so far and its own text.
-/

import FaultFlow.Lib.Maps
import FaultFlow.Scan.WbrView

namespace FaultFlow

open Lib
open Std (TreeMap TreeSet)

namespace Scan

/-- A chain of a manifest, as the check reads it. -/
structure ChainEntry where
  index : ℤ
  scanIn : String
  scanOut : String
  cells : List String
deriving DecidableEq, Repr

/-- A manifest, as the check reads it. -/
structure CheckedManifest where
  genericJsonHash : String
  scanEnable : String
  chains : List ChainEntry
  wrapperChains : List ChainEntry
  sky130Verilog : Option String := none
deriving DecidableEq, Repr

/-- `_port_bit`. -/
def portBit (m : Module) (name direction : String) : Except String YosysNetID :=
  match m.ports[name]? with
  | none => .error ("missing scan port: " ++ name)
  | some port =>
    if port.direction ≠ direction then
      .error ("scan port " ++ name ++ " must be direction " ++ direction)
    else
      match maybeOneBit (some port.bits) with
      | some net => .ok net
      | none => .error ("scan port " ++ name ++ " must be one concrete bit")

/-- `_conn_bit`. -/
def connBit (cell : Cell) (pin inst : String) : Except String YosysNetID :=
  match maybeOneBit (cell.pin pin) with
  | some net => .ok net
  | none => .error (inst ++ "." ++ pin ++ " must be one concrete bit")

/-- The nets of a cell that `_collect_chain_cells` reads. -/
structure ChainCell where
  instanceName : String
  chainIn : YosysNetID
  chainOut : YosysNetID
  se : YosysNetID
  clk : YosysNetID
deriving DecidableEq, Repr

/-- The reading part of one step of `_collect_chain_cells`. -/
def readChainCell (inPin outPin : String) (p : String × Cell) : Except String ChainCell := do
  let chainIn ← connBit p.2 inPin p.1
  let chainOut ← connBit p.2 outPin p.1
  let se ← connBit p.2 "SE" p.1
  let clk ← connBit p.2 "CLK" p.1
  return ⟨p.1, chainIn, chainOut, se, clk⟩

/-- What `_collect_chain_cells` returns. -/
structure ChainCells where
  nodeByIn : TreeMap YosysNetID String := ∅
  outByNode : TreeMap String YosysNetID := ∅
  clockNets : TreeSet YosysNetID := ∅
  names : TreeSet String := ∅
  seNets : TreeSet YosysNetID := ∅

/-- The storing part of one step of `_collect_chain_cells`, with the findings so far. -/
def ChainCells.add (inPin : String) (requireSe : Option YosysNetID)
    (st : ChainCells × List String) (c : ChainCell) : ChainCells × List String :=
  ({ nodeByIn := st.1.nodeByIn.insert c.chainIn c.instanceName
     outByNode := st.1.outByNode.insert c.instanceName c.chainOut
     clockNets := st.1.clockNets.insert c.clk
     names := st.1.names.insert c.instanceName
     seNets := st.1.seNets.insert c.se },
   st.2 ++
     (if st.1.nodeByIn.contains c.chainIn then
       ["multiple scan cells share " ++ inPin ++ " net " ++ toString c.chainIn] else []) ++
     if requireSe.any (· ≠ c.se) then
       [c.instanceName ++ ": SE does not use shared scan enable"] else [])

/-- The cells of some types, by instance name. -/
def Module.cellsOf (m : Module) (types : List String) : List (String × Cell) :=
  m.cells.toList.filter fun p => p.2.type ∈ types

/-- `_collect_chain_cells`. -/
def collectChainCells (m : Module) (types : List String) (inPin outPin : String)
    (requireSe : Option YosysNetID) (errors : List String) :
    Except (List String) (ChainCells × List String) :=
  (m.cellsOf types).foldlM (fun st p =>
    match readChainCell inPin outPin p with
    | .error message => .error (st.2 ++ [message])
    | .ok c => .ok (ChainCells.add inPin requireSe st c)) ({}, errors)

/-- Where a walk from net to net has ended: the cells on its way, the net, and the cell that it
came back to, if it did. -/
structure NetWalk where
  derived : List String
  cur : YosysNetID
  cycle : Option String := none
deriving DecidableEq, Repr

/-- The loop `while cur in node_by_in`, which `_validate_chains` and `trace_wrapper_chain`
share.  Every instance in `nodeByIn` is a key of `outByNode`. -/
def walkNets (nodeByIn : TreeMap YosysNetID String) (outByNode : TreeMap String YosysNetID) :
    ℕ → List String → YosysNetID → NetWalk
  | 0, derived, cur => ⟨derived, cur, none⟩
  | fuel + 1, derived, cur =>
    match nodeByIn[cur]? with
    | none => ⟨derived, cur, none⟩
    | some inst =>
      if inst ∈ derived then ⟨derived, cur, some inst⟩
      else walkNets nodeByIn outByNode fuel (derived ++ [inst]) (outByNode.getD inst cur)

/-- One step of the loop that looks for a cell in two chains. -/
def seeCell (st : TreeSet String × List String) (inst : String) : TreeSet String × List String :=
  (st.1.insert inst,
    if st.1.contains inst then st.2 ++ ["duplicate scan cell in chains: " ++ inst] else st.2)

/-- One chain of `_validate_chains`: `seen` and the findings. -/
def validateChain (m : Module) (cells : ChainCells) (st : TreeSet String × List String)
    (chain : ChainEntry) : TreeSet String × List String :=
  match portBit m chain.scanIn "input", portBit m chain.scanOut "output" with
  | .error message, _ => (st.1, st.2 ++ [message])
  | .ok _, .error message => (st.1, st.2 ++ [message])
  | .ok start, .ok scanOutNet =>
    let w := walkNets cells.nodeByIn cells.outByNode (cells.nodeByIn.size + 1) [] start
    w.derived.foldl seeCell (st.1, st.2 ++
      (if w.cycle.isSome then ["cycle found in chain " ++ toString chain.index] else []) ++
      (if w.cur ≠ scanOutNet then
        ["chain " ++ toString chain.index ++ " terminates at net " ++ toString w.cur ++
          ", not scan_out " ++ toString scanOutNet] else []) ++
      if w.derived ≠ chain.cells then
        ["chain " ++ toString chain.index ++ " manifest order does not match JSON connectivity"]
        else [])

/-- The findings about the scan enables of the wrapper cells. -/
def enableErrors (ff wbr : ChainCells) (seNet : YosysNetID) : List String :=
  if 1 < wbr.seNets.size then ["WBR scan cells do not share one scan enable"]
  else if ¬ wbr.seNets.isEmpty ∧ ff.names.isEmpty ∧ wbr.seNets.toList ≠ [seNet] then
    ["WBR scan cells: SE does not use shared scan enable"]
  else []

/-- The finding that some names are in `a` and not in `b`. -/
def absentErrors (label : String) (a b : TreeSet String) : List String :=
  let names := a.toList.filter fun name => !b.contains name
  if names.isEmpty then [] else [label ++ ", ".intercalate names]

/-- The body of `check_scan_structure`: the findings, also when an exception ends it. -/
def checkBody (manifest : CheckedManifest) (hash : String) (m : Module) (requireTechmap : Bool)
    (fileExists : String → Bool) : Except (List String) (List String) := do
  let errors := if hash ≠ manifest.genericJsonHash then
    ["generic JSON hash does not match manifest"] else []
  let seNet ← (portBit m manifest.scanEnable "input").mapError fun message => errors ++ [message]
  let (ff, errors) ← collectChainCells m scanCellTypes "SDI" "Q" (some seNet) errors
  let (wbr, errors) ←
    collectChainCells m (wbrScanInTypes ++ wbrScanOutTypes) "CTI" "CTO" none errors
  let errors := errors ++ enableErrors ff wbr seNet ++
    if ff.clockNets.isEmpty ∧ wbr.clockNets.isEmpty then
      ["scanned design has no scan clock net"] else []
  let (seen, errors) := manifest.chains.foldl (validateChain m ff) (∅, errors)
  let (wbrSeen, errors) := manifest.wrapperChains.foldl (validateChain m wbr) (∅, errors)
  return errors ++ absentErrors "scan FFs missing from manifest: " ff.names seen ++
    absentErrors "manifest lists non-scan FFs: " seen ff.names ++
    absentErrors "WBR scan cells missing from manifest wrapper_chains: " wbr.names wbrSeen ++
    absentErrors "manifest wrapper_chains list non-WBR cells: " wbrSeen wbr.names ++
    if requireTechmap ∧ ¬ manifest.sky130Verilog.any (fun sky => sky ≠ "" ∧ fileExists sky) then
      ["required Sky130 techmap artifact is missing"] else []

/-- `check_scan_structure`: the list `errors` of its result. -/
def checkScanStructure (manifest : CheckedManifest) (hash : String) (m : Module)
    (requireTechmap : Bool := false) (fileExists : String → Bool := fun _ => false) :
    List String :=
  match checkBody manifest hash m requireTechmap fileExists with
  | .error errors => errors
  | .ok errors => errors

/-! ## Walks -/

section

variable (nodeByIn : TreeMap YosysNetID String) (outByNode : TreeMap String YosysNetID)
  {derived : List String}

/-- A walk lists every cell once and stands behind the last one. -/
theorem walkNets_spec (fuel : ℕ) (cur : YosysNetID) (hnodup : derived.Nodup) :
    (walkNets nodeByIn outByNode fuel derived cur).derived.Nodup ∧
      ((walkNets nodeByIn outByNode fuel derived cur).derived = derived ∧
          (walkNets nodeByIn outByNode fuel derived cur).cur = cur ∨
        ∃ inst, (walkNets nodeByIn outByNode fuel derived cur).derived.getLast? = some inst ∧
          ∀ net, outByNode[inst]? = some net →
            (walkNets nodeByIn outByNode fuel derived cur).cur = net) := by
  induction fuel generalizing derived cur with
  | zero => exact ⟨hnodup, .inl ⟨rfl, rfl⟩⟩
  | succ fuel ih =>
    cases hnode : nodeByIn[cur]? with
    | none => simpa [walkNets, hnode] using hnodup
    | some inst =>
      by_cases hmem : inst ∈ derived
      · simpa [walkNets, hnode, hmem] using hnodup
      · have hnodup' : (derived ++ [inst]).Nodup :=
          List.nodup_append_comm.1 (List.nodup_cons.2 ⟨hmem, hnodup⟩)
        obtain ⟨hnd, hend⟩ := ih (outByNode.getD inst cur) hnodup'
        simp only [walkNets, hnode, if_neg hmem]
        refine ⟨hnd, .inr ?_⟩
        rcases hend with ⟨hder, hcur⟩ | hend
        · refine ⟨inst, by simp [hder], fun net hnet => ?_⟩
          rw [hcur, TreeMap.getD_eq_getD_getElem?, hnet, Option.getD_some]
        · exact hend

/-- A walk lists cells of the map only. -/
theorem forall_mem_walkNets {P : String → Prop} (fuel : ℕ) (cur : YosysNetID)
    (hderived : ∀ inst ∈ derived, P inst)
    (hnodes : ∀ (net : YosysNetID) inst, nodeByIn[net]? = some inst → P inst) :
    ∀ inst ∈ (walkNets nodeByIn outByNode fuel derived cur).derived, P inst := by
  induction fuel generalizing derived cur with
  | zero => exact hderived
  | succ fuel ih =>
    cases hnode : nodeByIn[cur]? with
    | none => simpa [walkNets, hnode] using hderived
    | some inst =>
      by_cases hmem : inst ∈ derived
      · simpa [walkNets, hnode, hmem] using hderived
      · simp only [walkNets, hnode, if_neg hmem]
        refine ih _ fun inst' h => ?_
        rcases List.mem_append.1 h with h | h
        · exact hderived inst' h
        · exact List.mem_singleton.1 h ▸ hnodes cur inst hnode

/-- **A walk comes to its end**: after as many steps as there are cells it has left them or
found a cycle. -/
theorem walkNets_ends {fuel : ℕ} (cur : YosysNetID) (hnodup : derived.Nodup)
    (hvalues : derived ⊆ nodeByIn.toList.map Prod.snd)
    (hfuel : nodeByIn.size < derived.length + fuel) :
    (walkNets nodeByIn outByNode fuel derived cur).cycle.isSome = true ∨
      (walkNets nodeByIn outByNode fuel derived cur).cur ∉ nodeByIn := by
  induction fuel generalizing derived cur with
  | zero =>
    have hle := (hnodup.subperm hvalues).length_le
    rw [List.length_map, TreeMap.length_toList] at hle
    omega
  | succ fuel ih =>
    cases hnode : nodeByIn[cur]? with
    | none =>
      refine .inr ?_
      simp [walkNets, hnode, TreeMap.mem_iff_isSome_getElem?]
    | some inst =>
      by_cases hmem : inst ∈ derived
      · simp [walkNets, hnode, hmem]
      · simp only [walkNets, hnode, if_neg hmem]
        refine ih _ (List.nodup_append_comm.1 (List.nodup_cons.2 ⟨hmem, hnodup⟩)) ?_ ?_
        · refine List.append_subset.2 ⟨hvalues, ?_⟩
          have hentry := TreeMap.mem_toList_iff_getElem?_eq_some.2 hnode
          exact List.cons_subset.2 ⟨List.mem_map_of_mem hentry, List.nil_subset _⟩
        · rw [List.length_append, List.length_singleton]
          omega

/-- A ring of two cells. -/
theorem walkNets_ends_ring :
    let nodeByIn := TreeMap.ofList [((1 : YosysNetID), "a"), (2, "b")]
    let w := walkNets nodeByIn (.ofList [("a", (2 : YosysNetID)), ("b", 1)]) 3 [] 1
    w.cycle.isSome = true ∨ w.cur ∉ nodeByIn :=
  walkNets_ends _ _ 1 List.nodup_nil (List.nil_subset _) (by decide +kernel)

end

/-! ## The cells of the chains -/

variable {inPin outPin : String} {types errors : List String} {requireSe : Option YosysNetID}
  {cs : List ChainCell}

theorem readChainCell_eq_ok {p : String × Cell} {c : ChainCell} :
    readChainCell inPin outPin p = .ok c ↔ connBit p.2 inPin p.1 = .ok c.chainIn ∧
      connBit p.2 outPin p.1 = .ok c.chainOut ∧ connBit p.2 "SE" p.1 = .ok c.se ∧
        connBit p.2 "CLK" p.1 = .ok c.clk ∧ p.1 = c.instanceName := by
  constructor
  · intro h
    obtain ⟨chainIn, hin, h⟩ := bind_eq_ok.1 h
    obtain ⟨chainOut, hout, h⟩ := bind_eq_ok.1 h
    obtain ⟨se, hse, h⟩ := bind_eq_ok.1 h
    obtain ⟨clk, hclk, h⟩ := bind_eq_ok.1 h
    cases h
    exact ⟨hin, hout, hse, hclk, rfl⟩
  · rintro ⟨hin, hout, hse, hclk, hname⟩
    rw [readChainCell, hin, hout, hse, hclk, hname]
    rfl

variable {m : Module}

/-- **What is collected**: the cells in their order, when every pin that is read has one net. -/
theorem collectChainCells_eq_ok {r : ChainCells × List String} :
    collectChainCells m types inPin outPin requireSe errors = .ok r ↔
      ∃ cs, (m.cellsOf types).mapM (readChainCell inPin outPin) = .ok cs ∧
        r = cs.foldl (ChainCells.add inPin requireSe) ({}, errors) := by
  unfold collectChainCells
  generalize (({}, errors) : ChainCells × List String) = st
  induction m.cellsOf types generalizing st with
  | nil => simp [pure, Except.pure, eq_comm]
  | cons p l ih =>
    rw [List.foldlM_cons, List.mapM_cons]
    cases hread : readChainCell inPin outPin p with
    | error message => simp [bind, Except.bind]
    | ok c =>
      refine (ih (ChainCells.add inPin requireSe st c)).trans ⟨?_, ?_⟩
      · rintro ⟨cs, hcs, rfl⟩
        exact ⟨c :: cs, by rw [hcs]; rfl, rfl⟩
      · rintro ⟨cs', hcs', rfl⟩
        obtain ⟨c', hc', hcs'⟩ := bind_eq_ok.1 hcs'
        obtain ⟨cs, hcs, hcs'⟩ := bind_eq_ok.1 hcs'
        cases hc'
        cases hcs'
        exact ⟨cs, hcs, rfl⟩

/-- What is stored of the cells. -/
structure ChainCells.Holds (cells : ChainCells) (cs : List ChainCell) : Prop where
  nodeByIn : cells.nodeByIn = cs.foldl (fun map c => map.insert c.chainIn c.instanceName) ∅
  outByNode : cells.outByNode = cs.foldl (fun map c => map.insert c.instanceName c.chainOut) ∅
  ins : ∀ net, net ∈ cells.nodeByIn ↔ ∃ c ∈ cs, c.chainIn = net
  clockNets : ∀ net, net ∈ cells.clockNets ↔ ∃ c ∈ cs, c.clk = net
  names : ∀ name, name ∈ cells.names ↔ ∃ c ∈ cs, c.instanceName = name
  seNets : ∀ net, net ∈ cells.seNets ↔ ∃ c ∈ cs, c.se = net

theorem ChainCells.holds_foldl (inPin : String) (requireSe : Option YosysNetID)
    (errors : List String) (cs : List ChainCell) :
    (cs.foldl (ChainCells.add inPin requireSe) ({}, errors)).1.Holds cs := by
  refine foldl_visited (fun pre (st : ChainCells × List String) => st.1.Holds pre) ?_ ?_
  · exact ⟨rfl, rfl, by simp, by simp, by simp, by simp⟩
  · intro pre c post st _ h
    refine ⟨?_, ?_, ?_, ?_, ?_, ?_⟩
    · simp [ChainCells.add, h.nodeByIn]
    · simp [ChainCells.add, h.outByNode]
    · intro net
      rw [show (ChainCells.add inPin requireSe st c).1.nodeByIn = st.1.nodeByIn.insert c.chainIn
        c.instanceName from rfl, TreeMap.mem_insert, h.ins]
      simp [or_and_right, exists_or, or_comm]
    all_goals
      intro x
      simp only [ChainCells.add, mem_insert_iff, h.clockNets, h.names, h.seNets, List.mem_append,
        List.mem_singleton, or_and_right, exists_or, exists_eq_left, or_comm]

/-- Cells with inputs of their own give no finding when no scan enable is required. -/
theorem errors_foldl_add (inPin : String) (errors : List String)
    (hnodup : (cs.map ChainCell.chainIn).Nodup) :
    (cs.foldl (ChainCells.add inPin none) ({}, errors)).2 = errors := by
  induction cs using List.reverseRecOn with
  | nil => rfl
  | append_singleton cs c ih =>
    rw [List.map_append, List.nodup_append] at hnodup
    have hnew : ¬ (cs.foldl (ChainCells.add inPin none) ({}, errors)).1.nodeByIn.contains
        c.chainIn = true := by
      rw [← TreeMap.mem_iff_contains, (ChainCells.holds_foldl inPin none errors cs).ins]
      rintro ⟨d, hd, heq⟩
      exact hnodup.2.2 _ (List.mem_map_of_mem hd) c.chainIn (by simp) heq
    rw [List.foldl_append, List.foldl_cons, List.foldl_nil, ChainCells.add, if_neg hnew,
      ih hnodup.1]
    simp

/-! ## A chain of the manifest -/

theorem foldl_seeCell {insts : List String} (hnodup : insts.Nodup) (seen : TreeSet String)
    (hnew : ∀ inst ∈ insts, inst ∉ seen) (errors : List String) :
    (insts.foldl seeCell (seen, errors)).2 = errors ∧
      ∀ name, name ∈ (insts.foldl seeCell (seen, errors)).1 ↔ name ∈ seen ∨ name ∈ insts := by
  induction insts generalizing seen with
  | nil => simp
  | cons inst insts ih =>
    have hinst : seen.contains inst = false := by
      rw [← Bool.not_eq_true]
      exact fun hmem => hnew inst (by simp) (TreeSet.mem_iff_contains.2 hmem)
    rw [List.nodup_cons] at hnodup
    have hnew' : ∀ x ∈ insts, x ∉ seen.insert inst := by
      intro x hx hmem
      rcases mem_insert_iff.1 hmem with heq | hmem
      · exact hnodup.1 (heq ▸ hx)
      · exact hnew x (List.mem_cons_of_mem _ hx) hmem
    obtain ⟨herr, hmem⟩ := ih hnodup.2 _ hnew'
    simp only [List.foldl_cons, seeCell, hinst, Bool.false_eq_true, if_false, herr, true_and]
    intro name
    rw [hmem, mem_insert_iff, List.mem_cons, eq_comm (a := inst), or_assoc, or_left_comm]

/-- **A chain that is followed to its end** and lists the cells on the way gives at most the
finding that it ends elsewhere. -/
theorem validateChain_spec {cells : ChainCells} {chain : ChainEntry} {start scanOutNet : YosysNetID}
    (hin : portBit m chain.scanIn "input" = .ok start)
    (hout : portBit m chain.scanOut "output" = .ok scanOutNet) {w : NetWalk}
    (hw : walkNets cells.nodeByIn cells.outByNode (cells.nodeByIn.size + 1) [] start = w)
    (hcycle : w.cycle = none) (hcells : w.derived = chain.cells) (errors : List String) :
    (∃ found, (validateChain m cells (∅, errors) chain).2 = errors ++ found ∧
        (found = [] ↔ w.cur = scanOutNet)) ∧
      ∀ name, name ∈ (validateChain m cells (∅, errors) chain).1 ↔ name ∈ chain.cells := by
  have hnodup : w.derived.Nodup := hw ▸ (walkNets_spec _ _ _ start List.nodup_nil).1
  obtain ⟨found, hfound, heq⟩ : ∃ found, (found = [] ↔ w.cur = scanOutNet) ∧
      validateChain m cells (∅, errors) chain = w.derived.foldl seeCell (∅, errors ++ found) := by
    refine ⟨if w.cur ≠ scanOutNet then
      ["chain " ++ toString chain.index ++ " terminates at net " ++ toString w.cur ++
        ", not scan_out " ++ toString scanOutNet] else [], ?_, ?_⟩
    · split <;> simp_all
    · simp [validateChain, hin, hout, hw, hcycle, hcells]
  obtain ⟨herr, hmem⟩ := foldl_seeCell hnodup ∅ (by simp) (errors ++ found)
  rw [heq, ← hcells]
  exact ⟨⟨found, herr, hfound⟩, fun name => by simp [hmem]⟩

/-! ## The findings -/

theorem ne_nil_of_collectChainCells {e : List String}
    (h : collectChainCells m types inPin outPin requireSe errors = .error e) : e ≠ [] := by
  unfold collectChainCells at h
  revert h
  generalize (({}, errors) : ChainCells × List String) = st
  induction m.cellsOf types generalizing st with
  | nil => nofun
  | cons p l ih =>
    intro h
    rw [List.foldlM_cons] at h
    rcases bind_eq_error.1 h with hp | ⟨st', -, h⟩
    · split at hp <;> cases hp
      simp
    · exact ih st' h

theorem absentErrors_eq_nil {label : String} {a b : TreeSet String} :
    absentErrors label a b = [] ↔ ∀ name ∈ a, name ∈ b := by
  simp only [absentErrors, List.isEmpty_iff]
  split
  · next hnil =>
    rw [List.filter_eq_nil_iff] at hnil
    simpa using hnil
  · next hne =>
    rw [List.filter_eq_nil_iff] at hne
    simpa using hne

/-- The wrapper cells of a netlist without internal scan cells use the scan enable. -/
theorem enableErrors_eq_nil {ff wbr : ChainCells} (hff : ff.names.isEmpty) (hwbr : wbr.Holds cs)
    (hne : cs ≠ []) {seNet : YosysNetID} :
    enableErrors ff wbr seNet = [] ↔ ∀ c ∈ cs, c.se = seNet := by
  have hmem : ∀ net, net ∈ wbr.seNets.toList ↔ ∃ c ∈ cs, c.se = net := by
    intro net
    rw [TreeSet.mem_toList, hwbr.seNets]
  obtain ⟨c₀, hc₀⟩ := List.exists_mem_of_ne_nil cs hne
  have hempty : ¬ wbr.seNets.isEmpty := by
    rw [TreeSet.isEmpty_iff_forall_not_mem, not_forall]
    exact ⟨c₀.se, not_not.2 ((hwbr.seNets _).2 ⟨c₀, hc₀, rfl⟩)⟩
  have hlist : wbr.seNets.toList = [seNet] ↔ ∀ c ∈ cs, c.se = seNet := by
    constructor
    · intro hone c hc
      have := (hmem c.se).2 ⟨c, hc, rfl⟩
      rw [hone] at this
      exact List.mem_singleton.1 this
    · intro hall
      have hse : ∀ net ∈ wbr.seNets.toList, net = seNet := by
        intro net hnet
        obtain ⟨c, hc, rfl⟩ := (hmem net).1 hnet
        exact hall c hc
      have hdistinct := TreeSet.distinct_toList (t := wbr.seNets)
      cases hlist : wbr.seNets.toList with
      | nil => exact absurd ((hmem c₀.se).2 ⟨c₀, hc₀, rfl⟩) (by simp [hlist])
      | cons a l =>
        rw [hlist] at hse hdistinct
        cases l with
        | nil => rw [hse a (by simp)]
        | cons b l =>
          have hab := (List.pairwise_cons.1 hdistinct).1 b (by simp)
          rw [hse a (by simp), hse b (by simp)] at hab
          exact absurd Std.compare_self hab
  unfold enableErrors
  split
  · next hsize =>
    refine ⟨nofun, fun hall => ?_⟩
    rw [← TreeSet.length_toList, hlist.2 hall] at hsize
    exact absurd hsize (lt_irrefl 1)
  · split
    · next hcond => exact ⟨nofun, fun hall => absurd (hlist.2 hall) hcond.2.2⟩
    · next hcond =>
      refine ⟨fun _ => hlist.1 ?_, fun _ => rfl⟩
      by_contra hne
      exact hcond ⟨hempty, hff, hne⟩

end Scan

end FaultFlow
