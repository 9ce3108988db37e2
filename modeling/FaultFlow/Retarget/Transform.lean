/-
# Retargeting a block pattern

`retarget_block_pattern` of `faultflow/retarget/transform.py`: the bits of a block's chains
are placed in the chains of the SoC, at the offsets of the block's segments.  All other
positions are filled with `0` and masked.

The placed bits are right for a manifest that gives every chain its own index and every
segment the length of the block's chain (`retarget_places`).  `parse_soc_access` checks
neither.
-/

import FaultFlow.Retarget.SocAccess
import FaultFlow.Scan.Protocol
import Mathlib.Data.List.Pairwise

namespace FaultFlow

open Std (TreeMap TreeSet)
open Lib

namespace Retarget

open Scan (ScanPattern)

/-- `SocScanPattern`. -/
structure SocScanPattern where
  loadSeqs : TreeMap ℤ (List Bool)
  capturePiValues : TreeMap String Bool
  expectedUnload : TreeMap ℤ (List Bool)
  unloadMask : TreeMap ℤ (List Bool)
  sourceBlock : String
  blockChains : List ℤ

/-- `_block_value_at`. -/
def blockValueAt (seq : List Bool) (length blockPos : ℤ) : Bool :=
  let shiftIdx := length - 1 - blockPos
  if 0 ≤ shiftIdx then seq.getD shiftIdx.toNat false else false

/-- `seq[:n]`: a negative bound counts from the end. -/
def sliceTo (seq : List Bool) (n : ℤ) : List Bool :=
  if 0 ≤ n then seq.take n.toNat else seq.take (seq.length + n).toNat

/-- `_strip_block_level_padding`. -/
def stripBlockLevelPadding (seq : List Bool) (realLength : ℤ) (padAtFront : Bool) : List Bool :=
  if (seq.length : ℤ) ≤ realLength then seq
  else if padAtFront then seq.drop (seq.length - realLength).toNat
  else sliceTo seq realLength

/-- The values at the positions of one chain. -/
structure Placement where
  load : List Bool
  unload : List Bool
  mask : List Bool

/-- The chain of the block that a segment carries. -/
def SocSegment.carries (seg : SocSegment) (sourceBlock : String) : Option ℤ :=
  if seg.block = sourceBlock then seg.blockChain else none

section

variable (pattern : ScanPattern) (sourceBlock : String) (chain : SocChain)

/-- One position of a segment. -/
def placeBit (seg : SocSegment) (bc : ℤ) (v : Placement) (p : ℕ) :
    Except SocAccessError Placement :=
  let bload := stripBlockLevelPadding (pattern.loadSeqs.getD bc []) seg.length true
  let bunload := stripBlockLevelPadding (pattern.expectedUnload.getD bc []) seg.length false
  let socPos := seg.socOffset + p
  if chain.length ≤ socPos then
    .error ⟨"segment for " ++ quoted sourceBlock ++ " chain " ++ toString bc ++
      " overruns SoC chain " ++ toString chain.index ++ " (pos " ++ toString socPos ++ " >= " ++
      toString chain.length ++ ")"⟩
  else .ok {
    load := v.load.set socPos.toNat (blockValueAt bload seg.length p)
    unload := v.unload.set socPos.toNat (blockValueAt bunload seg.length p)
    mask := v.mask.set socPos.toNat true }

/-- One segment; that of a sibling or a bypass is left alone. -/
def placeSegment (v : Placement) (seg : SocSegment) : Except SocAccessError Placement :=
  match seg.carries sourceBlock with
  | none => return v
  | some bc => (List.range seg.length.toNat).foldlM (placeBit pattern sourceBlock chain seg bc) v

/-- All positions of a chain. -/
def placeChain : Except SocAccessError Placement :=
  let blank := List.replicate chain.length.toNat false
  chain.segments.foldlM (placeSegment pattern sourceBlock chain) ⟨blank, blank, blank⟩

end

/-- Position-indexed values in shift order. -/
def encode (length : ℕ) (v : List Bool) : List Bool :=
  (List.range length).map fun k => v.getD (length - 1 - k) false

/-- One chain: the bits to load, the bits expected and their mask. -/
def retargetChain (pattern : ScanPattern) (access : SocAccess) (sourceBlock : String)
    (chain : SocChain) : Except SocAccessError Placement := do
  let v ← placeChain pattern sourceBlock chain
  let length := chain.length.toNat
  let pad := access.maxChainLength - chain.length
  if pad < 0 then
    .error ⟨"SoC chain " ++ toString chain.index ++ " length " ++ toString chain.length ++
      " exceeds max_chain_length"⟩
  else
    let padding := List.replicate pad.toNat false
    return {
      load := padding ++ encode length v.load
      unload := encode length v.unload ++ padding
      mask := encode length v.mask ++ padding }

/-- The chains of the block that have a segment. -/
def placedBlockChains (access : SocAccess) (sourceBlock : String) : TreeSet ℤ :=
  .ofList (access.socChains.flatMap fun chain =>
    chain.segments.filterMap fun seg => seg.carries sourceBlock)

/-- `retarget_block_pattern`. -/
def retargetBlockPattern (pattern : ScanPattern) (access : SocAccess) (sourceBlock : String) :
    Except SocAccessError SocScanPattern := do
  let bits : TreeMap ℤ Placement ← access.socChains.foldlM (fun m chain => do
    return m.insert chain.index (← retargetChain pattern access sourceBlock chain)) ∅
  let placed := placedBlockChains access sourceBlock
  let missing := pattern.loadSeqs.keys.filter fun bc => !placed.contains bc
  if missing ≠ [] then
    .error ⟨"block " ++ quoted sourceBlock ++ " chains " ++ toString missing ++
      " have no SoC segment in the access manifest"⟩
  else return {
    loadSeqs := bits.map fun _ (b : Placement) => b.load
    capturePiValues := pattern.capturePiValues
    expectedUnload := bits.map fun _ (b : Placement) => b.unload
    unloadMask := bits.map fun _ (b : Placement) => b.mask
    sourceBlock := sourceBlock
    blockChains := placed.toList }

/-! ## Placing the bits -/

theorem getD_set {α : Type} {l : List α} {i j : ℕ} {a d : α} (hi : i < l.length) :
    (l.set i a).getD j d = if j = i then a else l.getD j d := by
  rw [List.getD_eq_getElem?_getD, List.getElem?_set, List.getD_eq_getElem?_getD]
  by_cases h : i = j
  · subst h
    simp [hi]
  · rw [if_neg h, if_neg (Ne.symm h)]

/-- The elements of a range are their positions. -/
theorem eq_length_of_range {n p : ℕ} {pre post : List ℕ} (h : List.range n = pre ++ p :: post) :
    p = pre.length := by
  have hlt : pre.length < n := by
    have := congrArg List.length h
    rw [List.length_range, List.length_append, List.length_cons] at this
    omega
  have hget := congrArg (·[pre.length]?) h
  rw [List.getElem?_range hlt, List.getElem?_append_right le_rfl, Nat.sub_self] at hget
  exact (Option.some.inj hget).symm

/-- A list after the first `n` positions of a segment have been written: their bits, and
what it held elsewhere. -/
structure Placed (seg : SocSegment) (n : ℕ) (value : ℕ → Bool) (old new : List Bool) : Prop where
  length : new.length = old.length
  getD : ∀ q : ℕ, new.getD q false =
    if seg.socOffset ≤ q ∧ (q : ℤ) < seg.socOffset + n then value (q - seg.socOffset.toNat)
    else old.getD q false

theorem Placed.zero (seg : SocSegment) (value : ℕ → Bool) (old : List Bool) :
    Placed seg 0 value old old :=
  ⟨rfl, fun q => (if_neg (by simp)).symm⟩

variable {seg : SocSegment}

theorem Placed.step (hoff : 0 ≤ seg.socOffset) {n : ℕ} {value : ℕ → Bool} {old new : List Bool}
    (h : Placed seg n value old new) (hlt : seg.socOffset + n < old.length) :
    Placed seg (n + 1) value old (new.set (seg.socOffset + n).toNat (value n)) := by
  have hl := h.length
  refine ⟨by rw [List.length_set, hl], fun q => ?_⟩
  rw [getD_set (by omega), h.getD q]
  by_cases hqn : q = (seg.socOffset + n).toNat
  · rw [if_pos hqn, if_pos (by omega)]
    congr 1
    omega
  · rw [if_neg hqn]
    exact if_congr (by omega) rfl rfl

/-- The bits a segment takes from a block's chain: those to load. -/
def loadedBit (pattern : ScanPattern) (seg : SocSegment) (bc : ℤ) (p : ℕ) : Bool :=
  blockValueAt (stripBlockLevelPadding (pattern.loadSeqs.getD bc []) seg.length true) seg.length p

/-- The bits a segment takes from a block's chain: those expected. -/
def expectedBit (pattern : ScanPattern) (seg : SocSegment) (bc : ℤ) (p : ℕ) : Bool :=
  blockValueAt (stripBlockLevelPadding (pattern.expectedUnload.getD bc []) seg.length false)
    seg.length p

/-- The three lists of a chain have its length. -/
structure Placement.Sized (v : Placement) (n : ℕ) : Prop where
  load : v.load.length = n
  unload : v.unload.length = n
  mask : v.mask.length = n

section Segment

variable {pattern : ScanPattern} {sourceBlock : String} {chain : SocChain} {bc : ℤ}

/-- What a segment has written after `n` positions. -/
structure Written (pattern : ScanPattern) (seg : SocSegment) (bc : ℤ) (n : ℕ) (v v' : Placement) :
    Prop where
  load : Placed seg n (loadedBit pattern seg bc) v.load v'.load
  unload : Placed seg n (expectedBit pattern seg bc) v.unload v'.unload
  mask : Placed seg n (fun _ => true) v.mask v'.mask

/-- **The loop over the positions of a segment.** -/
theorem written_of_foldlM (hoff : 0 ≤ seg.socOffset) {v v' : Placement}
    (hsize : v.Sized chain.length.toNat)
    (h : (List.range seg.length.toNat).foldlM (placeBit pattern sourceBlock chain seg bc) v =
      .ok v') : Written pattern seg bc seg.length.toNat v v' := by
  have hinv := Lib.foldlM_visited
    (fun (pre : List ℕ) (w : Placement) => Written pattern seg bc pre.length v w) h
    ⟨.zero _ _ _, .zero _ _ _, .zero _ _ _⟩ ?_
  · rwa [List.length_range] at hinv
  · intro pre p post w w' hl hw hbit
    obtain rfl := eq_length_of_range hl
    unfold placeBit at hbit
    dsimp only at hbit
    split at hbit
    · cases hbit
    · cases hbit
      obtain ⟨h1, h2, h3⟩ := hsize
      rw [List.length_append, List.length_singleton]
      refine ⟨hw.load.step hoff ?_, hw.unload.step hoff ?_, hw.mask.step hoff ?_⟩
      all_goals omega

/-- A position of the visited segments that carry the block. -/
def OwnedIn (sourceBlock : String) (segs : List SocSegment) (q : ℕ) : Prop :=
  ∃ seg ∈ segs, (seg.carries sourceBlock).isSome ∧ seg.socOffset ≤ q ∧
    (q : ℤ) < seg.socOffset + seg.length

/-- **What the loop over the segments has placed.** -/
structure ChainPlaced (pattern : ScanPattern) (sourceBlock : String) (n : ℕ)
    (segs : List SocSegment) (v : Placement) : Prop where
  sized : v.Sized n
  mask : ∀ q, v.mask.getD q false = true ↔ OwnedIn sourceBlock segs q
  bits : ∀ seg ∈ segs, ∀ bc, seg.carries sourceBlock = some bc → ∀ p : ℕ, (p : ℤ) < seg.length →
    v.load.getD (seg.socOffset.toNat + p) false = loadedBit pattern seg bc p ∧
      v.unload.getD (seg.socOffset.toNat + p) false = expectedBit pattern seg bc p

theorem chainPlaced_placeChain {v : Placement} (h : placeChain pattern sourceBlock chain = .ok v) :
    ChainPlaced pattern sourceBlock chain.length.toNat chain.segments v := by
  refine Lib.foldlM_visited
    (ChainPlaced pattern sourceBlock chain.length.toNat) h ?_ ?_
  · refine ⟨⟨List.length_replicate, List.length_replicate, List.length_replicate⟩, fun q => ?_,
      fun _ h => absurd h List.not_mem_nil⟩
    simp [OwnedIn]
  · intro pre seg post v v' hl hv hstep
    have hmem : seg ∈ chain.segments := by simp [hl]
    have hoff := chain.offset_nonneg hmem
    -- the segments before this one end where it begins, or before
    have hbefore : ∀ s ∈ pre, s.socOffset + s.length ≤ seg.socOffset := by
      have hsep := chain.separate
      rw [hl, List.pairwise_append] at hsep
      exact fun s hs => hsep.2.2 s hs seg (.head _)
    unfold placeSegment at hstep
    cases hcar : seg.carries sourceBlock with
    | none =>
      rw [hcar] at hstep
      cases hstep
      refine ⟨hv.sized, fun q => (hv.mask q).trans ?_, fun s hs bc hbc => ?_⟩
      · simp [OwnedIn, hcar]
      · rcases List.mem_append.1 hs with hs | hs
        · exact hv.bits s hs bc hbc
        · rw [List.mem_singleton.1 hs, hcar] at hbc
          cases hbc
    | some bc =>
      rw [hcar] at hstep
      have hw := written_of_foldlM hoff hv.sized hstep
      refine ⟨⟨hw.load.length.trans hv.sized.load, hw.unload.length.trans hv.sized.unload,
        hw.mask.length.trans hv.sized.mask⟩, fun q => ?_, fun s hs bc' hbc p hp => ?_⟩
      · rw [hw.mask.getD q]
        have hcase : OwnedIn sourceBlock (pre ++ [seg]) q ↔ OwnedIn sourceBlock pre q ∨
            (seg.socOffset ≤ q ∧ (q : ℤ) < seg.socOffset + seg.length) := by
          simp [OwnedIn, or_and_right, exists_or, hcar]
        rw [hcase]
        split
        · rename_i hin
          exact iff_of_true rfl (.inr (by omega))
        · rename_i hout
          rw [hv.mask q]
          exact ⟨.inl, fun h => h.resolve_right (by omega)⟩
      · rcases List.mem_append.1 hs with hs | hs
        · have hoff' := chain.offset_nonneg (hl ▸ List.mem_append_left _ hs)
          have hb := hbefore s hs
          rw [hw.load.getD, hw.unload.getD, if_neg (by omega), if_neg (by omega)]
          exact hv.bits s hs bc' hbc p hp
        · obtain rfl := List.mem_singleton.1 hs
          obtain rfl := Option.some.inj (hcar.symm.trans hbc)
          rw [hw.load.getD, hw.unload.getD, if_pos (by omega), if_pos (by omega),
            Nat.add_sub_cancel_left]
          exact ⟨rfl, rfl⟩

end Segment

/-! ## The bits in shift order -/

theorem getD_encode {n k : ℕ} {v : List Bool} (hk : k < n) :
    (encode n v).getD k false = v.getD (n - 1 - k) false := by
  rw [encode, List.getD_eq_getElem?_getD, List.getElem?_map, List.getElem?_range hk]
  rfl

@[simp]
theorem length_encode (n : ℕ) (v : List Bool) : (encode n v).length = n := by
  rw [encode, List.length_map, List.length_range]

/-- **What `retarget_block_pattern` makes of a chain.** -/
structure ChainRetargeted (pattern : ScanPattern) (access : SocAccess) (sourceBlock : String)
    (chain : SocChain) (b : Placement) : Prop where
  le : chain.length ≤ access.maxChainLength
  length : 0 ≤ chain.length → (List.length b.load : ℤ) = access.maxChainLength
  load : ∀ seg ∈ chain.segments, ∀ bc, seg.carries sourceBlock = some bc → ∀ p : ℕ,
    (p : ℤ) < seg.length → seg.socOffset + p < chain.length ∧
    b.load.getD (access.maxChainLength - 1 - (seg.socOffset + p)).toNat false =
      loadedBit pattern seg bc p
  unload : ∀ seg ∈ chain.segments, ∀ bc, seg.carries sourceBlock = some bc → ∀ p : ℕ,
    (p : ℤ) < seg.length →
    b.unload.getD (chain.length - 1 - (seg.socOffset + p)).toNat false = expectedBit pattern seg bc p
  mask : ∀ k : ℕ, b.mask.getD k false = true ↔
    (k : ℤ) < chain.length ∧ OwnedIn sourceBlock chain.segments (chain.length - 1 - k).toNat

variable {pattern : ScanPattern} {access : SocAccess} {sourceBlock : String} {chain : SocChain}

theorem chainRetargeted_of_retargetChain {b : Placement}
    (h : retargetChain pattern access sourceBlock chain = .ok b) :
    ChainRetargeted pattern access sourceBlock chain b := by
  obtain ⟨v, hv, h⟩ := Lib.bind_eq_ok.1 h
  have hplaced := chainPlaced_placeChain hv
  dsimp only at h
  split at h
  · cases h
  cases h
  -- a masked position is one of the list, so the owned positions are inside the chain
  have hinside : ∀ seg ∈ chain.segments, ∀ bc, seg.carries sourceBlock = some bc → ∀ p : ℕ,
      (p : ℤ) < seg.length → 0 ≤ seg.socOffset ∧ seg.socOffset + p < chain.length := by
    intro seg hseg bc hbc p hp
    have hoff := chain.offset_nonneg hseg
    have howned : OwnedIn sourceBlock chain.segments (seg.socOffset.toNat + p) :=
      ⟨seg, hseg, by rw [hbc]; rfl, by omega, by omega⟩
    have hmask := (hplaced.mask _).2 howned
    have hsize := hplaced.sized.mask
    by_contra hout
    rw [List.getD_eq_default _ _ (by omega)] at hmask
    cases hmask
  refine ⟨by omega, fun hnonneg => ?_, fun seg hseg bc hbc p hp => ?_, fun seg hseg bc hbc p hp => ?_,
    fun k => ?_⟩
  · rw [List.length_append, List.length_replicate, length_encode]
    push_cast
    omega
  · obtain ⟨hoff, hin⟩ := hinside seg hseg bc hbc p hp
    refine ⟨hin, ?_⟩
    rw [List.getD_append_right _ _ _ _ (by rw [List.length_replicate]; omega),
      List.length_replicate, getD_encode (by omega), ← (hplaced.bits seg hseg bc hbc p hp).1]
    congr 1
    omega
  · obtain ⟨hoff, hin⟩ := hinside seg hseg bc hbc p hp
    rw [List.getD_append _ _ _ _ (by rw [length_encode]; omega), getD_encode (by omega),
      ← (hplaced.bits seg hseg bc hbc p hp).2]
    congr 1
    omega
  · by_cases hk : (k : ℤ) < chain.length
    · rw [List.getD_append _ _ _ _ (by rw [length_encode]; omega), getD_encode (by omega),
        hplaced.mask, and_iff_right hk]
      have hidx : chain.length.toNat - 1 - k = (chain.length - 1 - k).toNat := by omega
      rw [hidx]
    · rw [List.getD_append_right _ _ _ _ (by rw [length_encode]; omega)]
      simp [hk]

/-- **The chains of a retargeted pattern**, when each has its own index. -/
theorem exists_chainRetargeted {soc : SocScanPattern}
    (hindex : (access.socChains.map SocChain.index).Nodup)
    (h : retargetBlockPattern pattern access sourceBlock = .ok soc)
    (hchain : chain ∈ access.socChains) :
    ∃ b, ChainRetargeted pattern access sourceBlock chain b ∧
      soc.loadSeqs[chain.index]? = some b.load ∧ soc.expectedUnload[chain.index]? = some b.unload ∧
      soc.unloadMask[chain.index]? = some b.mask := by
  obtain ⟨bits, hbits, h⟩ := Lib.bind_eq_ok.1 h
  dsimp only at h
  split at h
  · cases h
  cases h
  obtain ⟨b, hb, hget⟩ := (Lib.getElem?_foldlM_insert SocChain.index hbits hindex).1 chain hchain
  refine ⟨b, chainRetargeted_of_retargetChain hb, ?_, ?_, ?_⟩ <;>
  · rw [TreeMap.getElem?_map, hget]
    rfl

/-! ## The bits of the block -/

/-- The bits that the simulator feeds to a chain in `n` shifts: `0` where the pattern has
none. -/
def fed (seqs : TreeMap ℤ (List Bool)) (n : ℤ) (chain : ℤ) : List Bool :=
  (List.range n.toNat).map fun k => (seqs.getD chain []).getD k false

/-- The register of a chain after the load, from any state. -/
def loaded (seqs : TreeMap ℤ (List Bool)) (n : ℤ) (chain : ℤ) (init : ℕ → Bool) : ℕ → Bool :=
  (fed seqs n chain).foldl shiftIn init

variable {bits : List Bool} {p : ℕ}

theorem loaded_apply {seqs : TreeMap ℤ (List Bool)} {n chain : ℤ} (hbits : seqs[chain]? = some bits)
    (hp : (p : ℤ) < n) (init : ℕ → Bool) :
    loaded seqs n chain init p = bits.getD (n - 1 - p).toNat false := by
  have hlen : (fed seqs n chain).length = n.toNat := by simp [fed]
  rw [loaded, foldl_shiftIn_of_lt (d := false) (by omega), hlen, fed, List.getD_eq_getElem?_getD,
    List.getElem?_map, List.getElem?_range (by omega), Option.map_some, Option.getD_some,
    TreeMap.getD_eq_getD_getElem?, hbits, Option.getD_some]
  congr 1
  omega

/-- The bit of a segment to load is that of the block's chain, when the segment is not
longer than the block's sequence. -/
theorem loadedBit_eq {bc : ℤ} (hbits : pattern.loadSeqs[bc]? = some bits)
    (hle : seg.length ≤ bits.length) (hp : (p : ℤ) < seg.length) :
    loadedBit pattern seg bc p = bits.getD (bits.length - 1 - p) false := by
  rw [loadedBit, blockValueAt, TreeMap.getD_eq_getD_getElem?, hbits, Option.getD_some,
    stripBlockLevelPadding, if_pos (by omega)]
  split
  · congr 1
    omega
  · rw [if_pos rfl, List.getD_eq_getElem?_getD, List.getElem?_drop, List.getD_eq_getElem?_getD]
    congr 2
    omega

/-- The expected bit of a segment is that of the block's chain. -/
theorem expectedBit_eq {bc : ℤ} (hbits : pattern.expectedUnload[bc]? = some bits)
    (hp : (p : ℤ) < seg.length) :
    expectedBit pattern seg bc p = bits.getD (seg.length - 1 - p).toNat false := by
  rw [expectedBit, blockValueAt, TreeMap.getD_eq_getD_getElem?, hbits, Option.getD_some,
    stripBlockLevelPadding, if_pos (by omega)]
  split
  · rfl
  · rw [if_neg Bool.false_ne_true, sliceTo, if_pos (by omega), List.getD_eq_getElem?_getD,
      List.getElem?_take_of_lt (by omega), List.getD_eq_getElem?_getD]

/-! ## The pattern -/

/-- **The bits are in their places**: after the load a position of a segment holds what the
block's own load leaves at that position of its chain, from whatever states, the unmasked
bits are those of the block's positions, with the bits that the block expects, and those of
siblings are masked.  A bit `k` of an unload comes from the position `k` before the last. -/
structure PlacesBits (ports : List Scan.PseudoPort) (manifest : Scan.Manifest)
    (pattern : ScanPattern) (access : SocAccess) (sourceBlock : String) (soc : SocScanPattern) :
    Prop where
  load : ∀ chain ∈ access.socChains, ∀ seg ∈ chain.segments, ∀ bc,
    seg.carries sourceBlock = some bc → bc ∈ pattern.loadSeqs → ∀ p : ℕ, (p : ℤ) < seg.length →
    ∀ init init', loaded soc.loadSeqs access.maxChainLength chain.index init
        (seg.socOffset + p).toNat =
      loaded pattern.loadSeqs (Scan.maxChainLength manifest) bc init' p
  unmasked : ∀ chain ∈ access.socChains, ∀ k : ℕ,
    (soc.unloadMask.getD chain.index []).getD k false = true ↔ (k : ℤ) < chain.length ∧
      OwnedIn sourceBlock chain.segments (chain.length - 1 - k).toNat
  expected : ∀ chain ∈ access.socChains, ∀ seg ∈ chain.segments, ∀ bc,
    seg.carries sourceBlock = some bc → bc ∈ pattern.loadSeqs → ∀ p : ℕ, (p : ℤ) < seg.length →
    (soc.expectedUnload.getD chain.index []).getD
        (chain.length - 1 - (seg.socOffset + p)).toNat false =
      (pattern.expectedUnload.getD bc []).getD
        (Scan.chainLength manifest ports bc - 1 - p).toNat false
  siblings : ∀ chain ∈ access.socChains, ∀ seg ∈ chain.segments, seg.block ≠ sourceBlock →
    ∀ p : ℕ, (p : ℤ) < seg.length → seg.socOffset + p < chain.length →
    (soc.unloadMask.getD chain.index []).getD (chain.length - 1 - (seg.socOffset + p)).toNat false =
      false

/-- The manifest of the SoC fits that of the block: the chains have distinct indices, and
the segments have the lengths of the block's chains. -/
structure Fits (ports : List Scan.PseudoPort) (manifest : Scan.Manifest) (access : SocAccess)
    (sourceBlock : String) : Prop where
  index : (access.socChains.map SocChain.index).Nodup
  length : ∀ chain ∈ access.socChains, ∀ seg ∈ chain.segments, ∀ bc,
    seg.carries sourceBlock = some bc → seg.length = Scan.chainLength manifest ports bc

/-- A position of a sibling is not owned by the block. -/
theorem not_ownedIn_of_sibling (hseg : seg ∈ chain.segments) (hblock : seg.block ≠ sourceBlock)
    {p q : ℕ} (hp : (p : ℤ) < seg.length) (hq : (q : ℤ) = seg.socOffset + p) :
    ¬ OwnedIn sourceBlock chain.segments q := by
  rintro ⟨s, hs, hcar, hlow, hhigh⟩
  have hne : s ≠ seg := by
    rintro rfl
    rw [SocSegment.carries, if_neg hblock] at hcar
    cases hcar
  have hapart : chain.segments.Pairwise fun a b =>
      a.socOffset + a.length ≤ b.socOffset ∨ b.socOffset + b.length ≤ a.socOffset :=
    chain.separate.imp .inl
  have hsymm : Std.Symm fun a b : SocSegment =>
      a.socOffset + a.length ≤ b.socOffset ∨ b.socOffset + b.length ≤ a.socOffset :=
    ⟨fun _ _ h => h.symm⟩
  rcases hapart.forall hs hseg hne with h | h <;> omega

/-- The chains of a pattern are serialized. -/
def SerializedChains (vector : TreeMap String Bool) (ports : List Scan.PseudoPort)
    (manifest : Scan.Manifest) (pattern : ScanPattern) : Prop :=
  ∀ bc ∈ pattern.loadSeqs, ∃ load expected, pattern.loadSeqs[bc]? = some load ∧
    pattern.expectedUnload[bc]? = some expected ∧
    Scan.Serialized vector ports manifest bc load expected

/-- A pattern with serialized chains is placed, whatever is applied after its load. -/
theorem placesBits_of_serialized {vector : TreeMap String Bool} {ports : List Scan.PseudoPort}
    {manifest : Scan.Manifest} (hpattern : SerializedChains vector ports manifest pattern)
    {soc : SocScanPattern} (h : retargetBlockPattern pattern access sourceBlock = .ok soc)
    (hfits : Fits ports manifest access sourceBlock) :
    PlacesBits ports manifest pattern access sourceBlock soc where
  load := by
    intro chain hchain seg hseg bc hbc hmem p hp init init'
    obtain ⟨b, hb, hload, -, -⟩ := exists_chainRetargeted hfits.index h hchain
    obtain ⟨load, expected, hblock, -, hser⟩ := hpattern bc hmem
    obtain ⟨hin, hbit⟩ := hb.load seg hseg bc hbc p hp
    have hoff := chain.offset_nonneg hseg
    have hlen := hfits.length chain hchain seg hseg bc hbc
    have hle := hser.le
    have hM := hser.lengthLoad
    have hmax := hb.le
    rw [loaded_apply hload (by omega), loaded_apply hblock (by omega), Int.toNat_of_nonneg (by omega),
      hbit, loadedBit_eq hblock (by omega) hp]
    congr 1
    omega
  unmasked := by
    intro chain hchain k
    obtain ⟨b, hb, -, -, hmask⟩ := exists_chainRetargeted hfits.index h hchain
    rw [TreeMap.getD_eq_getD_getElem?, hmask, Option.getD_some]
    exact hb.mask k
  expected := by
    intro chain hchain seg hseg bc hbc hmem p hp
    obtain ⟨b, hb, -, hunload, -⟩ := exists_chainRetargeted hfits.index h hchain
    obtain ⟨load, expected, -, hblock, -⟩ := hpattern bc hmem
    rw [TreeMap.getD_eq_getD_getElem?, hunload, Option.getD_some,
      TreeMap.getD_eq_getD_getElem? (a := bc), hblock, Option.getD_some, hb.unload seg hseg bc hbc p hp,
      expectedBit_eq hblock hp, hfits.length chain hchain seg hseg bc hbc]
  siblings := by
    intro chain hchain seg hseg hblock p hp hin
    obtain ⟨b, hb, -, -, hmask⟩ := exists_chainRetargeted hfits.index h hchain
    have hoff := chain.offset_nonneg hseg
    rw [TreeMap.getD_eq_getD_getElem?, hmask, Option.getD_some, ← Bool.not_eq_true, hb.mask]
    rintro ⟨-, howned⟩
    exact not_ownedIn_of_sibling hseg hblock hp (by omega) howned

/-- **The retargeted pattern places the bits of a serialized one.** -/
theorem retarget_places {vector : TreeMap String Bool} {ports : List Scan.PseudoPort}
    {manifest : Scan.Manifest} {pattern : ScanPattern}
    (hpattern : Scan.serializeVector vector ports manifest = .ok pattern) {access : SocAccess}
    {sourceBlock : String} {soc : SocScanPattern}
    (h : retargetBlockPattern pattern access sourceBlock = .ok soc)
    (hfits : Fits ports manifest access sourceBlock) :
    PlacesBits ports manifest pattern access sourceBlock soc :=
  placesBits_of_serialized (fun _ hmem => Scan.serializeVector_spec hpattern hmem) h hfits

/-- A manifest of chains with one scan-in and scan-out each. -/
def rawAccess (maxChainLength : ℤ) (chains : List (ℤ × ℤ × List (String × Option ℤ × ℤ × ℤ))) :
    RawAccess where
  schema := some socAccessSchema
  socScan := some {
    scanInputs := some (chains.map fun _ => "si"), scanOutputs := some (chains.map fun _ => "so")
    scanEnable := some "se", maxChainLength := some maxChainLength }
  socChains := some (chains.map fun c => {
    index := some c.1, scanIn := some "si", scanOut := some "so", length := some c.2.1
    segments := some (c.2.2.map fun s => {
      block := some s.1, blockChain := s.2.1, socOffset := some s.2.2.1
      length := some s.2.2.2 }) })
  assemblyTop := some "soc"

/-- A block of two chains, of two flip-flops and of one. -/
def blockPorts : List Scan.PseudoPort :=
  [⟨0, 0, "__ppi_a", some "__ppo_a"⟩, ⟨0, 1, "__ppi_b", some "__ppo_b"⟩,
   ⟨1, 0, "__ppi_c", some "__ppo_c"⟩]

def blockManifest : Scan.Manifest :=
  { chains := [⟨some 0, some 2⟩, ⟨some 1, some 1⟩], maxChainLength := some 2 }

def blockPattern : ScanPattern :=
  Lib.resultOf (Scan.serializeVector (TreeMap.ofList [("__ppi_a", true), ("__ppi_b", true),
    ("__ppi_c", true), ("__ppo_b", true)]) blockPorts blockManifest) (by decide +kernel)

/-- The block's chains, one at the head of a chain and one behind a sibling. -/
def splitAccess : SocAccess :=
  Lib.resultOf (parseSocAccess (rawAccess 4
    [(0, 3, [("blkB", some 0, 0, 2), ("__bypass", none, 2, 1)]),
     (1, 2, [("blkB", some 1, 1, 1), ("blkA", some 0, 0, 1)])])) (by decide +kernel)

theorem splitAccess_places : PlacesBits blockPorts blockManifest blockPattern splitAccess "blkB"
    (Lib.resultOf (retargetBlockPattern blockPattern splitAccess "blkB") (by decide +kernel)) :=
  retarget_places (Lib.eq_ok_resultOf _ (by decide +kernel)) (Lib.eq_ok_resultOf _ _)
    ⟨by decide +kernel, by decide +kernel⟩

/-- Two chains with one index. -/
def twiceIndexed : SocAccess :=
  Lib.resultOf (parseSocAccess (rawAccess 2
    [(0, 2, [("blkB", some 0, 0, 2)]), (0, 1, [("blkB", some 1, 0, 1)])])) (by decide +kernel)

/-- A segment that is shorter than the block's chain. -/
def shortSegment : SocAccess :=
  Lib.resultOf (parseSocAccess (rawAccess 2
    [(0, 1, [("blkB", some 0, 0, 1)]), (1, 1, [("blkB", some 1, 0, 1)])])) (by decide +kernel)

/-- The second of two chains with one index takes the place of the first, so the block's
flip-flop at position `1` is not loaded; and a short segment expects the bit of another
position. -/
theorem retarget_misplaces :
    ((retargetBlockPattern blockPattern twiceIndexed "blkB").toOption.map fun soc =>
      (loaded soc.loadSeqs twiceIndexed.maxChainLength 0 (fun _ => false) 1,
        loaded blockPattern.loadSeqs 2 0 (fun _ => false) 1)) = some (false, true) ∧
    ((retargetBlockPattern blockPattern shortSegment "blkB").toOption.map fun soc =>
      ((soc.unloadMask.getD 0 []).getD 0 false, (soc.expectedUnload.getD 0 []).getD 0 false,
        (blockPattern.expectedUnload.getD 0 []).getD (2 - 1 - 0) false)) =
      some (true, true, false) := by
  decide +kernel

end Retarget

end FaultFlow
