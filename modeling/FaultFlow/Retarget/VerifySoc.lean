/-
# Replaying a retargeted pattern

`verify_soc` of `faultflow/retarget/verify_soc.py` replays a retargeted pattern on the netlist of
the SoC and compares the bits that belong to the block.

A sequence belongs to the index of a chain here and to the position of a port in the simulator;
`verifySoc_own_ports` says when the two agree.
-/

import FaultFlow.Retarget.Transform
import FaultFlow.Scan.PatternSim

namespace FaultFlow

open Std (TreeMap)
open Lib

namespace Retarget

open Scan (ScanPattern ScanPatternRequest ScanPatternResult)

/-- `SocVerifyResult`; a mismatch is the chain, the bit, the value expected and the one seen. -/
structure SocVerifyResult where
  verified : Bool
  compared : ℕ
  mismatches : List (ℤ × ℕ × Bool × Option Bool)
deriving DecidableEq, Repr

/-- `sorted(soc_access.soc_chains, key=lambda c: c.index)`. -/
def sortedChains (access : SocAccess) : List SocChain :=
  access.socChains.insertionSort fun a b => a.index ≤ b.index

/-- The arguments of `simulate_scan_pattern` in `verify_soc`. -/
def socRequest (access : SocAccess) (pattern : SocScanPattern) (mode : TestMode) :
    ScanPatternRequest :=
  { clockPorts := access.clockPorts
    clockOffStates := access.clockPorts.map fun _ => false
    scanEnablePort := access.scanEnable
    scanInputPorts := (sortedChains access).map SocChain.scanIn
    scanOutputPorts := (sortedChains access).map SocChain.scanOut
    maxChainLength := access.maxChainLength
    loadSeqs := pattern.loadSeqs
    capturePiValues := pattern.capturePiValues
    testMode := mode }

/-- The bits of a chain that belong to the block, each with the value expected and the one
seen. -/
def ownedBits (pattern : SocScanPattern) (result : ScanPatternResult) (chain : SocChain) :
    List (ℤ × ℕ × Bool × Option Bool) :=
  (((pattern.unloadMask.getD chain.index []).zipIdx.filter Prod.fst).map Prod.snd).map fun k =>
    (chain.index, k, (pattern.expectedUnload.getD chain.index []).getD k false,
      (result.unloadSeqs.getD chain.index [])[k]?)

/-- `verify_soc`. -/
def verifySoc (simulate : ScanPatternRequest → Except FlowError ScanPatternResult)
    (access : SocAccess) (pattern : SocScanPattern) (mode : TestMode) :
    Except FlowError SocVerifyResult := do
  let result ← simulate (socRequest access pattern mode)
  let owned := (sortedChains access).flatMap (ownedBits pattern result)
  let mismatches := owned.filter fun m => m.2.2.2 ≠ some m.2.2.1
  return { verified := mismatches.isEmpty, compared := owned.length, mismatches := mismatches }

/-- A flip-flop that captures its own value inverted, behind a chain of one. -/
def invertedFlop : CachedGraph :=
  .load (.ofCells [("si", 3), ("se", 4), ("ck", 5)] [("so", 6)]
      [("f", .ofPins "$scanff_faultflow"
        [("D", 7), ("SDI", 3), ("SE", 4), ("CLK", 5), ("Q", 6)]),
       ("i", .ofPins "$faultflow_capture_inv" [("A", 6), ("Y", 7)])])
    Scan.scanCells "fail" ∅ (by decide +kernel) (by decide +kernel)

/-- The SoC is the block, with the same chain under a number. -/
def indexedAccess (index : ℤ) : Except SocAccessError SocAccess :=
  parseSocAccess {
    schema := some socAccessSchema
    socScan := some {
      scanInputs := some ["si"], scanOutputs := some ["so"], scanEnable := some "se"
      clockPorts := ["ck"], maxChainLength := some 1 }
    socChains := some [{
      index := some index, scanIn := some "si", scanOut := some "so", length := some 1
      segments := some [{ block := some "blk", blockChain := some 0, socOffset := some 0
                          length := some 1 }] }]
    assemblyTop := some "soc" }

def firstIndexed : SocAccess := Lib.resultOf (indexedAccess 0) (by decide +kernel)

/-- A stuck-at pattern: `1` is loaded, and the inverter captures `0`. -/
def loadedOne : ScanPattern :=
  Lib.resultOf (Scan.serializeVector (TreeMap.ofList [("__ppi_f", true), ("__ppo_f", false)])
    [⟨0, 0, "__ppi_f", some "__ppo_f"⟩]
    { chains := [⟨some 0, some 1⟩], maxChainLength := some 1 }) (by decide +kernel)

def firstPattern : SocScanPattern :=
  Lib.resultOf (retargetBlockPattern loadedOne firstIndexed "blk") (by decide +kernel)

/-! ## The ports of a chain

`verify_soc` hands the simulator the ports of the chains in the order of their indices, and the
simulator numbers the sequences by position.  A chain has its own sequences at its own ports if its
index is its position. -/

/-- The indices of the chains are their positions. -/
def Numbered (access : SocAccess) : Prop :=
  (sortedChains access).map SocChain.index =
    (List.range (sortedChains access).length).map fun (i : ℕ) => (i : ℤ)

instance (access : SocAccess) : Decidable (Numbered access) :=
  inferInstanceAs (Decidable (_ = _))

/-- No scan input is shared, or a clock. -/
structure OwnScanIns (access : SocAccess) : Prop where
  nodup : (access.socChains.map SocChain.scanIn).Nodup
  clock : ∀ chain ∈ access.socChains, chain.scanIn ∉ access.clockPorts

/-- The values of the ports while bit `k` of the load is shifted in. -/
def loadValues (req : ScanPatternRequest) (k : ℕ) : TreeMap String Bool :=
  req.setScanInputs (fun chain => (req.loadSeqs.getD chain []).getD k false)
    (req.baseValues.insert req.scanEnablePort true)

/-- At both levels of the clocks, the scan input of a chain has the bits of the chain's load. -/
def DrivesOwn (access : SocAccess) (pattern : SocScanPattern) (mode : TestMode) : Prop :=
  ∀ chain ∈ access.socChains, ∀ (k : ℕ) (level : ℕ → Bool),
    ((socRequest access pattern mode).setClocks level
      (loadValues (socRequest access pattern mode) k))[chain.scanIn]? =
        some ((pattern.loadSeqs.getD chain.index []).getD k false)

/-- The bits that a port shows while the chains are unloaded. -/
def ShowsPort (g : CachedGraph) (req : ScanPatternRequest) (port : String) (bits : List Bool) :
    Prop :=
  ∃ vec yids, req.buildVector g.parsed = .ok vec ∧ Scan.scanSampleYids g.parsed req = .ok yids ∧
    ((List.range req.shiftCount).mapM fun k => Scan.sampleBit g.parsed
      ((Golden.simulateSequenceSampled g.cg vec yids).getD (req.functionalIdx + 1 + k) fun _ => none)
      port) = .ok bits

/-- What is compared with the expected bits of a chain was seen at its scan output. -/
def ReadsOwn (access : SocAccess) (pattern : SocScanPattern) (mode : TestMode) : Prop :=
  ∀ g result, Scan.simulateScanPattern g (socRequest access pattern mode) = .ok result →
    ∀ chain ∈ access.socChains, ShowsPort g (socRequest access pattern mode) chain.scanOut
      (result.unloadSeqs.getD chain.index [])

section OwnPorts

variable {access : SocAccess} {chain : SocChain}

theorem mem_sortedChains : chain ∈ sortedChains access ↔ chain ∈ access.socChains :=
  (List.perm_insertionSort _ _).mem_iff

theorem Numbered.index (h : Numbered access) {i : ℕ} (hi : (sortedChains access)[i]? = some chain) :
    chain.index = i := by
  have hlt := (List.getElem?_eq_some_iff.1 hi).1
  have hget := congrArg (·[i]?) h
  simpa [List.getElem?_map, hi, List.getElem?_range hlt] using hget

theorem numbered_of_index
    (h : ∀ (i : ℕ) (chain : SocChain), (sortedChains access)[i]? = some chain → chain.index = i) :
    Numbered access := by
  refine List.ext_getElem? fun i => ?_
  rw [List.getElem?_map, List.getElem?_map]
  cases hi : (sortedChains access)[i]? with
  | none =>
    rw [List.getElem?_eq_none_iff] at hi
    simp [List.getElem?_eq_none_iff.2 (show (List.range _).length ≤ i by simpa using hi)]
  | some chain =>
    have hlt := (List.getElem?_eq_some_iff.1 hi).1
    simp [List.getElem?_range hlt, h i chain hi]

/-- **A port is driven by the sequence of its position.** -/
theorem getElem?_loadValues (hports : OwnScanIns access) (pattern : SocScanPattern)
    (mode : TestMode) {i : ℕ} (hi : (sortedChains access)[i]? = some chain) (k : ℕ)
    (level : ℕ → Bool) :
    ((socRequest access pattern mode).setClocks level
      (loadValues (socRequest access pattern mode) k))[chain.scanIn]? =
        some ((pattern.loadSeqs.getD i []).getD k false) := by
  have hchain := mem_sortedChains.1 (List.mem_of_getElem? hi)
  have hclocks : ∀ values : TreeMap String Bool,
      ((socRequest access pattern mode).setClocks level values)[chain.scanIn]? =
        values[chain.scanIn]? := by
    intro values
    refine Lib.foldl_invariant (fun m : TreeMap String Bool => m[chain.scanIn]? = _) rfl ?_
    intro p hp m hm
    have hne : p.1 ≠ chain.scanIn := fun heq =>
      hports.clock chain hchain (heq ▸ List.fst_mem_of_mem_zipIdx hp)
    rw [TreeMap.getElem?_insert, if_neg (by simpa using hne), hm]
  rw [hclocks]
  have hnd : ((socRequest access pattern mode).scanInputPorts.zipIdx.map Prod.fst).Nodup := by
    rw [List.zipIdx_map_fst]
    exact ((List.perm_insertionSort _ _).map SocChain.scanIn).nodup_iff.2 hports.nodup
  have hmem : (chain.scanIn, i) ∈ (socRequest access pattern mode).scanInputPorts.zipIdx := by
    rw [List.mk_mem_zipIdx_iff_getElem?]
    show ((sortedChains access).map SocChain.scanIn)[i]? = _
    rw [List.getElem?_map, hi]
    rfl
  exact (Lib.getElem?_foldl_insert Prod.fst (fun p : String × ℕ =>
    (pattern.loadSeqs.getD (p.2 : ℤ) []).getD k false) hnd).1 (chain.scanIn, i) hmem

/-- **A sequence of bits is read at the port of its position.** -/
theorem showsPort_of_simulate {g : CachedGraph} {req : ScanPatternRequest}
    {result : ScanPatternResult} (h : Scan.simulateScanPattern g req = .ok result) {i : ℕ}
    {port : String} (hi : req.scanOutputPorts[i]? = some port) :
    ShowsPort g req port (result.unloadSeqs.getD (i : ℤ) []) := by
  obtain ⟨p, hp, hret⟩ := Lib.bind_eq_ok.1 h
  cases hret
  obtain ⟨vec, hvec, h⟩ := Lib.bind_eq_ok.1 hp
  obtain ⟨yids, hyids, h⟩ := Lib.bind_eq_ok.1 h
  obtain ⟨golden, hgolden, hret⟩ := Lib.bind_eq_ok.1 h
  cases hret
  refine ⟨vec, yids, hvec, hyids, ?_⟩
  unfold Scan.extractScanObservations ScanPatternRequest.extractObservations at hgolden
  split at hgolden
  · cases hgolden
  split at hgolden
  · cases hgolden
  obtain ⟨pos, -, h⟩ := Lib.bind_eq_ok.1 hgolden
  obtain ⟨seqs, hseqs, hret⟩ := Lib.bind_eq_ok.1 h
  cases hret
  have hnd : (req.scanOutputPorts.zipIdx.map fun p : String × ℕ => (p.2 : ℤ)).Nodup := by
    rw [show (fun p : String × ℕ => (p.2 : ℤ)) = (fun i : ℕ => (i : ℤ)) ∘ Prod.snd from rfl,
      ← List.map_map, List.zipIdx_map_snd]
    exact List.Nodup.map (fun a b hab => Int.ofNat_inj.1 hab) List.nodup_range'
  obtain ⟨bits, hbits, hget⟩ := (Lib.getElem?_foldlM_insert _ hseqs hnd).1 (port, i)
    (List.mk_mem_zipIdx_iff_getElem?.2 hi)
  dsimp only
  rw [TreeMap.getD_eq_getD_getElem?, hget]
  exact hbits

end OwnPorts

/-- **Every chain has its own sequences at its own ports**, in whatever pattern, exactly if the
indices of the chains are `0, …, n - 1`, in any order. -/
theorem verifySoc_own_ports {access : SocAccess} (hports : OwnScanIns access) :
    Numbered access ↔ ∀ (pattern : SocScanPattern) (mode : TestMode),
      DrivesOwn access pattern mode ∧ ReadsOwn access pattern mode := by
  refine ⟨fun hnum pattern mode => ⟨fun chain hchain k level => ?_, ?_⟩, fun h => ?_⟩
  · obtain ⟨i, hi⟩ := List.getElem?_of_mem (mem_sortedChains.2 hchain)
    rw [hnum.index hi]
    exact getElem?_loadValues hports pattern mode hi k level
  · intro g result hsim chain hchain
    obtain ⟨i, hi⟩ := List.getElem?_of_mem (mem_sortedChains.2 hchain)
    rw [hnum.index hi]
    refine showsPort_of_simulate hsim ?_
    show ((sortedChains access).map SocChain.scanOut)[i]? = _
    rw [List.getElem?_map, hi]
    rfl
  · refine numbered_of_index fun i chain hi => ?_
    by_contra hne
    -- a one for the chain, and nothing at its position
    have hown := (h ⟨TreeMap.ofList [(chain.index, [true])], ∅, ∅, ∅, "", []⟩ .INTEST).1 chain
      (mem_sortedChains.1 (List.mem_of_getElem? hi)) 0 fun _ => false
    rw [getElem?_loadValues hports _ _ hi, Option.some_inj] at hown
    have hat : ∀ c : ℤ, (TreeMap.ofList [(chain.index, [true])]).getD c [] =
        if chain.index = c then [true] else [] := by
      intro c
      rw [TreeMap.getD_eq_getD_getElem?]
      split <;> simp_all [TreeMap.ofList_singleton]
    rw [hat, hat, if_neg hne, if_pos rfl] at hown
    cases hown

/-- What the scan input is driven with, what the chain's load is, and the verdict. -/
def indexedReplay (index : ℤ) : Option (Option Bool × List Bool × SocVerifyResult) := do
  let access ← (indexedAccess index).toOption
  let soc ← (retargetBlockPattern loadedOne access "blk").toOption
  let verdict ← (verifySoc (Scan.simulateScanPattern invertedFlop) access soc .INTEST).toOption
  return ((loadValues (socRequest access soc .INTEST) 0)["si"]?, soc.loadSeqs.getD index [],
    verdict)

theorem firstIndexed_own_ports :
    DrivesOwn firstIndexed firstPattern .INTEST ∧ ReadsOwn firstIndexed firstPattern .INTEST :=
  (verifySoc_own_ports ⟨by decide +kernel, by decide +kernel⟩).1 (by decide +kernel) _ _

/-- **A chain with index `1` and no chain before it.**  Its load is not driven, its unload is not
found, and a pattern that is verified under index `0` fails. -/
theorem indexedReplay_one :
    indexedReplay 0 = some (some true, [true], ⟨true, 1, []⟩) ∧
    indexedReplay 1 = some (some false, [true], ⟨false, 1, [(1, 0, false, none)]⟩) := by
  decide +kernel

end Retarget

end FaultFlow
