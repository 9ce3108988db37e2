/-
# The scan access of a SoC

`faultflow/retarget/soc_access.py`: the manifest that says where the chains of the blocks
lie in the chains of the SoC.  `_parse_chain` sorts the segments of a chain by their offset
and checks that each begins where the one before it ends, so a parsed chain carries that
its segments tile it.  Numbers are Python's: a length may be negative.

A key that is absent is `none`.
-/

import FaultFlow.Common.Types
import FaultFlow.Lib.Loop
import Mathlib.Data.List.Sort

namespace FaultFlow

open Std (TreeMap)

namespace Retarget

/-- `SocAccessError`. -/
structure SocAccessError where
  msg : String
deriving DecidableEq, Repr

/-- `SocSegment`; `block_chain` is `none` for a bypass. -/
structure SocSegment where
  block : String
  blockChain : Option ℤ
  socOffset : ℤ
  length : ℤ
deriving DecidableEq, Repr

/-- Each segment begins where the one before it ends, and the last one ends at the length
of the chain. -/
def Tiles (covered : ℤ) (segments : List SocSegment) (length : ℤ) : Prop :=
  match segments with
  | [] => covered = length
  | seg :: rest => seg.socOffset = covered ∧ Tiles (covered + seg.length) rest length

/-- `SocChain`, with what `_parse_chain` has checked. -/
structure SocChain where
  index : ℤ
  scanIn : String
  scanOut : String
  length : ℤ
  segments : List SocSegment
  tiles : Tiles 0 segments length
  sorted : segments.Pairwise fun a b => a.socOffset ≤ b.socOffset

/-- `SocAccess`. -/
structure SocAccess where
  assemblyTop : String
  scanInputs : List String
  scanOutputs : List String
  scanEnable : String
  clockPorts : List String
  maxChainLength : ℤ
  socChains : List SocChain
  wrapperInstruction : TreeMap String String

/-! ## The manifest -/

/-- A segment as the manifest has it. -/
structure RawSegment where
  block : Option String := none
  blockChain : Option ℤ := none
  socOffset : Option ℤ := none
  length : Option ℤ := none

/-- A chain as the manifest has it. -/
structure RawChain where
  index : Option ℤ := none
  scanIn : Option String := none
  scanOut : Option String := none
  length : Option ℤ := none
  segments : Option (List RawSegment) := none

/-- The object `soc_scan`. -/
structure RawSocScan where
  scanInputs : Option (List String) := none
  scanOutputs : Option (List String) := none
  scanEnable : Option String := none
  clockPorts : List String := []
  maxChainLength : Option ℤ := none

/-- The manifest. -/
structure RawAccess where
  schema : Option String := none
  socScan : Option RawSocScan := none
  socChains : Option (List RawChain) := none
  assemblyTop : Option String := none
  wrapperInstruction : TreeMap String String := ∅

/-- `SOC_ACCESS_SCHEMA`. -/
def socAccessSchema : String := "faultflow_soc_access_v1"

/-- `_req`. -/
def req {α : Type} (value : Option α) (key location : String) : Except SocAccessError α :=
  match value with
  | some a => .ok a
  | none => .error ⟨location ++ ": missing required field " ++ quoted key⟩

/-- The place of an element in an error. -/
def elementOf (list : String) (i : ℕ) : String := list ++ "[" ++ toString i ++ "]"

/-- The loop of `_parse_chain` over the sorted segments, from the `j`-th on. -/
def parseSegments (location : String) (covered : ℤ) (j : ℕ) :
    List RawSegment → Except SocAccessError (List SocSegment × ℤ)
  | [] => return ([], covered)
  | rs :: rest => do
    let sw := elementOf (location ++ ".segments") j
    let offset ← req rs.socOffset "soc_offset" sw
    let segLen ← req rs.length "length" sw
    if offset ≠ covered then
      .error ⟨sw ++ ": soc_offset " ++ toString offset ++ " leaves a gap/overlap (expected " ++
        toString covered ++ "); segments must tile the chain"⟩
    else do
      let block ← req rs.block "block" sw
      let (segs, total) ← parseSegments location (covered + segLen) (j + 1) rest
      return ({ block := block, blockChain := rs.blockChain, socOffset := offset,
                length := segLen } :: segs, total)

variable {location : String} {covered : ℤ} {j : ℕ} {raw : List RawSegment} {segs : List SocSegment}
  {total : ℤ}

theorem tiles_of_parseSegments (h : parseSegments location covered j raw = .ok (segs, total)) :
    Tiles covered segs total := by
  induction raw generalizing covered j segs total with
  | nil =>
    cases h
    rfl
  | cons rs rest ih =>
    rw [parseSegments] at h
    obtain ⟨offset, -, h⟩ := Lib.bind_eq_ok.1 h
    obtain ⟨segLen, -, h⟩ := Lib.bind_eq_ok.1 h
    split at h
    · cases h
    · rename_i hcov
      obtain ⟨block, -, h⟩ := Lib.bind_eq_ok.1 h
      obtain ⟨⟨segs', total'⟩, hrest, h⟩ := Lib.bind_eq_ok.1 h
      cases h
      exact ⟨not_not.1 hcov, ih hrest⟩

/-- The offsets of the parsed segments are those of the manifest. -/
theorem offsets_of_parseSegments (h : parseSegments location covered j raw = .ok (segs, total)) :
    segs.map SocSegment.socOffset = raw.map fun rs => rs.socOffset.getD 0 := by
  induction raw generalizing covered j segs total with
  | nil =>
    cases h
    rfl
  | cons rs rest ih =>
    rw [parseSegments] at h
    obtain ⟨offset, hoff, h⟩ := Lib.bind_eq_ok.1 h
    obtain ⟨segLen, -, h⟩ := Lib.bind_eq_ok.1 h
    split at h
    · cases h
    · obtain ⟨block, -, h⟩ := Lib.bind_eq_ok.1 h
      obtain ⟨⟨segs', total'⟩, hrest, h⟩ := Lib.bind_eq_ok.1 h
      cases h
      have hval : rs.socOffset = some offset := by
        unfold req at hoff
        split at hoff
        · cases hoff
          assumption
        · cases hoff
      rw [List.map_cons, List.map_cons, ih hrest, hval]
      rfl

/-- The segments in the order of their offsets. -/
def sortSegments (raw : List RawSegment) : List RawSegment :=
  raw.insertionSort fun a b => a.socOffset.getD 0 ≤ b.socOffset.getD 0

theorem sorted_of_parseSegments
    (h : parseSegments location covered j (sortSegments raw) = .ok (segs, total)) :
    segs.Pairwise fun a b => a.socOffset ≤ b.socOffset := by
  let before : RawSegment → RawSegment → Prop := fun a b => a.socOffset.getD 0 ≤ b.socOffset.getD 0
  have htotal : Std.Total before := ⟨fun a b => le_total (a.socOffset.getD 0) (b.socOffset.getD 0)⟩
  have htrans : IsTrans RawSegment before := ⟨fun _ _ _ hab hbc => le_trans hab hbc⟩
  have hsorted : (sortSegments raw).Pairwise before := List.pairwise_insertionSort before raw
  have hmap : ((sortSegments raw).map fun rs => rs.socOffset.getD 0).Pairwise (· ≤ ·) :=
    List.pairwise_map.2 hsorted
  rw [← offsets_of_parseSegments h] at hmap
  exact List.pairwise_map.1 hmap

/-- `_parse_chain`. -/
def parseChain (raw : RawChain) (i : ℕ) : Except SocAccessError SocChain := do
  let location := elementOf "soc_chains" i
  let rawSegs ← req raw.segments "segments" location
  if rawSegs.isEmpty then
    throw (⟨location ++ ".segments must be a non-empty list"⟩ : SocAccessError)
  let length ← req raw.length "length" location
  match h : parseSegments location 0 0 (sortSegments rawSegs) with
  | .error e => .error e
  | .ok (segments, covered) =>
    if hlen : covered = length then do
      let index ← req raw.index "index" location
      let scanIn ← req raw.scanIn "scan_in" location
      let scanOut ← req raw.scanOut "scan_out" location
      return {
        index := index, scanIn := scanIn, scanOut := scanOut, length := length
        segments := segments
        tiles := hlen ▸ tiles_of_parseSegments h
        sorted := sorted_of_parseSegments h }
    else .error ⟨location ++ ": segments cover " ++ toString covered ++
      " bits but chain length is " ++ toString length⟩

/-- `parse_soc_access`. -/
def parseSocAccess (data : RawAccess) : Except SocAccessError SocAccess := do
  if data.schema ≠ some socAccessSchema then
    throw (⟨"unsupported schema " ++ (data.schema.map quoted).getD "None" ++ "; expected " ++
      quoted socAccessSchema⟩ : SocAccessError)
  let socScan ← req data.socScan "soc_scan" "soc_access"
  let rawChains ← req data.socChains "soc_chains" "soc_access"
  if rawChains.isEmpty then
    throw (⟨"soc_chains must be a non-empty list"⟩ : SocAccessError)
  let chains ← rawChains.zipIdx.mapM fun p => parseChain p.1 p.2
  let assemblyTop ← req data.assemblyTop "assembly_top" "soc_access"
  let scanInputs ← req socScan.scanInputs "scan_inputs" "soc_scan"
  let scanOutputs ← req socScan.scanOutputs "scan_outputs" "soc_scan"
  let scanEnable ← req socScan.scanEnable "scan_enable" "soc_scan"
  let maxChainLength ← req socScan.maxChainLength "max_chain_length" "soc_scan"
  return {
    assemblyTop := assemblyTop, scanInputs := scanInputs, scanOutputs := scanOutputs
    scanEnable := scanEnable, clockPorts := socScan.clockPorts
    maxChainLength := maxChainLength, socChains := chains
    wrapperInstruction := data.wrapperInstruction }

/-! ## The segments of a chain -/

/-- **The segments of a chain do not overlap.** -/
theorem Tiles.separate {covered length : ℤ} (h : Tiles covered segs length)
    (hsorted : segs.Pairwise fun a b => a.socOffset ≤ b.socOffset) :
    (∀ seg ∈ segs, covered ≤ seg.socOffset) ∧
      segs.Pairwise fun a b => a.socOffset + a.length ≤ b.socOffset := by
  induction segs generalizing covered with
  | nil => simp
  | cons seg rest ih =>
    obtain ⟨hoff, hrest⟩ := h
    obtain ⟨hle, hsorted⟩ := List.pairwise_cons.1 hsorted
    obtain ⟨hlow, hsep⟩ := ih hrest hsorted
    refine ⟨fun s hs => ?_, List.pairwise_cons.2 ⟨fun s hs => hoff ▸ hlow s hs, hsep⟩⟩
    rcases List.mem_cons.1 hs with rfl | hs
    · exact hoff.ge
    · exact hoff ▸ hle s hs

namespace SocChain

variable (chain : SocChain)

theorem offset_nonneg {seg : SocSegment} (h : seg ∈ chain.segments) : 0 ≤ seg.socOffset :=
  (chain.tiles.separate chain.sorted).1 seg h

theorem separate : chain.segments.Pairwise fun a b => a.socOffset + a.length ≤ b.socOffset :=
  (chain.tiles.separate chain.sorted).2

end SocChain

end Retarget

end FaultFlow
