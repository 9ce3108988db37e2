/-
# Scan patterns

`faultflow/scan/protocol.py` and `protocol_constants.py`: a vector of the reduced view
becomes, per chain, the bits to shift in and the bits to see shifted out.  Both are in the
order of descending positions.  A chain shorter than the longest one is padded: before the
bits to load, and behind the bits to unload.

Of a manifest the chains and `max_chain_length` are kept, as `serialize_vector` reads them.
-/

import FaultFlow.Lib.Loop
import FaultFlow.Lib.Shift
import Mathlib.Data.Int.Init
import Mathlib.Data.List.GetD

namespace FaultFlow

open Std (TreeMap)

namespace Scan

/-- A `ValueError`. -/
structure ValueError where
  msg : String
deriving DecidableEq, Repr

/-- The launch of a transition pattern, between the load and the capture. -/
inductive Launch where
  | none | loc | los
deriving DecidableEq, Repr

/-- `ScanPattern`. -/
structure ScanPattern where
  loadSeqs : TreeMap ℤ (List Bool) := ∅
  capturePiValues : TreeMap String Bool := ∅
  expectedUnload : TreeMap ℤ (List Bool) := ∅
  launch : Launch := .none
  launchScanIn : TreeMap ℤ Bool := ∅

/-- A chain of a manifest; a key that is absent or no integer is `none`. -/
structure ManifestChain where
  index : Option ℤ := none
  length : Option ℤ := none
deriving DecidableEq, Repr

/-- The manifest of a stitched design. -/
structure Manifest where
  chains : List ManifestChain := []
  maxChainLength : Option ℤ := none
deriving DecidableEq, Repr

/-- An entry of the map of pseudo-ports: a scan flip-flop and its ports in the reduced
view. -/
structure PseudoPort where
  chainId : ℤ
  positionInChain : ℤ
  ppiPort : String
  ppoPort : Option String := none
deriving DecidableEq, Repr

/-- `PPI_PREFIX`. -/
def ppiPrefix : String := "__ppi_"

/-- `PPO_PREFIX`. -/
def ppoPrefix : String := "__ppo_"

/-- The values at the positions `length - 1`, …, `0`: `load_sequence` and
`unload_sequence`. -/
def positionSequence (targets : TreeMap ℤ Bool) (chainLength : ℤ) : Except ValueError (List Bool) :=
  if chainLength < 0 then .error ⟨"chain_length must be >= 0"⟩
  else .ok ((List.range chainLength.toNat).reverse.map fun (position : ℕ) =>
    targets.getD position false)

/-- `load_sequence`. -/
def loadSequence := positionSequence

/-- `unload_sequence`. -/
def unloadSequence := positionSequence

variable (vector : TreeMap String Bool) (manifest : Manifest)

/-- `_chain_lengths`. -/
def chainLengths? : TreeMap ℤ ℤ :=
  manifest.chains.foldl (fun lengths raw =>
    match raw.index, raw.length with
    | some index, some length => lengths.insert index length
    | _, _ => lengths) ∅

/-- The `max_chain_length` of `serialize_vector`. -/
def maxChainLength : ℤ :=
  manifest.maxChainLength.getD (((chainLengths? manifest).values.max?).getD 0)

/-- The values by chain and position; a later entry replaces an earlier one. -/
def targetsByChain (value : PseudoPort → Bool) (ports : List PseudoPort) :
    TreeMap ℤ (TreeMap ℤ Bool) :=
  ports.foldl (fun byChain entry =>
    byChain.insert entry.chainId
      ((byChain.getD entry.chainId ∅).insert entry.positionInChain (value entry))) ∅

/-- The value a vector loads into a flip-flop. -/
def loadValue (entry : PseudoPort) : Bool := vector.getD entry.ppiPort false

/-- The value a vector expects from a flip-flop: one without an output port, in an inactive
domain, holds its value. -/
def unloadValue (entry : PseudoPort) : Bool :=
  match entry.ppoPort with
  | some ppo => vector.getD ppo false
  | none => vector.getD entry.ppiPort false

/-- The length of a chain: that of the manifest, or the number of its flip-flops. -/
def lengthOf (chain : ℤ) (targets : TreeMap ℤ Bool) : ℤ :=
  (chainLengths? manifest).getD chain targets.size

/-- The padding of a chain. -/
def paddingOf (chain : ℤ) (targets : TreeMap ℤ Bool) : Except ValueError (List Bool) :=
  let padding := maxChainLength manifest - lengthOf manifest chain targets
  if padding < 0 then .error ⟨"chain length exceeds manifest max_chain_length"⟩
  else .ok (List.replicate padding.toNat false)

/-- The bits to load into one chain. -/
def loadBits (p : ℤ × TreeMap ℤ Bool) : Except ValueError (List Bool) := do
  let padding ← paddingOf manifest p.1 p.2
  return padding ++ (← loadSequence p.2 (lengthOf manifest p.1 p.2))

/-- The bits expected from one chain. -/
def unloadBits (p : ℤ × TreeMap ℤ Bool) : Except ValueError (List Bool) := do
  let padding ← paddingOf manifest p.1 p.2
  return (← unloadSequence p.2 (lengthOf manifest p.1 p.2)) ++ padding

/-- `serialize_vector`. -/
def serializeVector (ports : List PseudoPort) (manifest : Manifest) :
    Except ValueError ScanPattern := do
  let load := targetsByChain (loadValue vector) ports
  let unload := targetsByChain (unloadValue vector) ports
  let loadSeqs ← load.toList.foldlM (fun m p => do return m.insert p.1 (← loadBits manifest p)) ∅
  let expectedUnload ← unload.toList.foldlM
    (fun m p => do return m.insert p.1 (← unloadBits manifest p)) ∅
  return {
    loadSeqs := loadSeqs
    capturePiValues := vector.filter fun name _ =>
      !ppiPrefix.toList.isPrefixOf name.toList && !ppoPrefix.toList.isPrefixOf name.toList
    expectedUnload := expectedUnload }

/-! ## The bits of a chain -/

variable {targets : TreeMap ℤ Bool} {bits : List Bool}

theorem length_positionSequence {L : ℤ} (h : positionSequence targets L = .ok bits) :
    0 ≤ L ∧ (bits.length : ℤ) = L := by
  unfold positionSequence at h
  split at h
  · cases h
  · cases h
    rw [List.length_map, List.length_reverse, List.length_range]
    omega

/-- The bit for a position. -/
theorem getD_positionSequence {L : ℤ} (h : positionSequence targets L = .ok bits) {p : ℕ}
    (hp : (p : ℤ) < L) (d : Bool) :
    bits.getD (L.toNat - 1 - p) d = targets.getD p false := by
  unfold positionSequence at h
  split at h
  · cases h
  · cases h
    have hlt : L.toNat - 1 - p < L.toNat := by omega
    have hidx : L.toNat - 1 - (L.toNat - 1 - p) = p := by omega
    rw [List.getD_eq_getElem?_getD, List.getElem?_map,
      List.getElem?_reverse (by simpa using hlt), List.length_range, hidx,
      List.getElem?_range (by omega)]
    rfl

variable {manifest} {chain : ℤ}

theorem paddingOf_eq_ok {padding : List Bool} (h : paddingOf manifest chain targets = .ok padding) :
    lengthOf manifest chain targets ≤ maxChainLength manifest ∧
      padding = List.replicate
        (maxChainLength manifest - lengthOf manifest chain targets).toNat false := by
  unfold paddingOf at h
  dsimp only at h
  split at h
  · cases h
  · cases h
    exact ⟨by omega, rfl⟩

/-- **The bits to load into a chain**: as many as the longest chain has positions, the last
ones for the positions of this one. -/
theorem loadBits_spec {p : ℤ × TreeMap ℤ Bool} (h : loadBits manifest p = .ok bits) :
    0 ≤ lengthOf manifest p.1 p.2 ∧ lengthOf manifest p.1 p.2 ≤ maxChainLength manifest ∧
      (bits.length : ℤ) = maxChainLength manifest ∧
      ∀ q : ℕ, (q : ℤ) < lengthOf manifest p.1 p.2 → ∀ d,
        bits.getD ((maxChainLength manifest).toNat - 1 - q) d = p.2.getD q false := by
  obtain ⟨padding, hpad, h⟩ := Lib.bind_eq_ok.1 h
  obtain ⟨seq, hseq, h⟩ := Lib.bind_eq_ok.1 h
  cases h
  obtain ⟨hle, rfl⟩ := paddingOf_eq_ok hpad
  obtain ⟨hnonneg, hlen⟩ := length_positionSequence hseq
  refine ⟨hnonneg, hle, ?_, fun q hq d => ?_⟩
  · rw [List.length_append, List.length_replicate]
    push_cast
    omega
  · rw [← getD_positionSequence hseq hq d, List.getD_append_right _ _ _ _ (by
      rw [List.length_replicate]; omega), List.length_replicate]
    congr 1
    omega

/-- **The bits expected from a chain**: as many as the longest chain has positions, the
first ones for the positions of this one. -/
theorem unloadBits_spec {p : ℤ × TreeMap ℤ Bool} (h : unloadBits manifest p = .ok bits) :
    (bits.length : ℤ) = maxChainLength manifest ∧
      ∀ q : ℕ, (q : ℤ) < lengthOf manifest p.1 p.2 → ∀ d,
        bits.getD ((lengthOf manifest p.1 p.2).toNat - 1 - q) d = p.2.getD q false := by
  obtain ⟨padding, hpad, h⟩ := Lib.bind_eq_ok.1 h
  obtain ⟨seq, hseq, h⟩ := Lib.bind_eq_ok.1 h
  cases h
  obtain ⟨hle, rfl⟩ := paddingOf_eq_ok hpad
  obtain ⟨hnonneg, hlen⟩ := length_positionSequence hseq
  refine ⟨?_, fun q hq d => ?_⟩
  · rw [List.length_append, List.length_replicate]
    push_cast
    omega
  · rw [← getD_positionSequence hseq hq d, List.getD_append _ _ _ _ (by omega)]

/-! ## The chains of a pattern -/

/-- Two tables with the same flip-flops. -/
structure SameSites (a b : TreeMap ℤ (TreeMap ℤ Bool)) : Prop where
  chains : ∀ c, c ∈ a ↔ c ∈ b
  positions : ∀ c q, q ∈ a.getD c ∅ ↔ q ∈ b.getD c ∅
  size : ∀ c, (a.getD c ∅).size = (b.getD c ∅).size

/-- The sites do not depend on the values. -/
theorem sameSites_targetsByChain (f g : PseudoPort → Bool) (ports : List PseudoPort) :
    SameSites (targetsByChain f ports) (targetsByChain g ports) := by
  suffices H : ∀ a b, SameSites a b →
      SameSites
        (ports.foldl (fun byChain entry => byChain.insert entry.chainId
          ((byChain.getD entry.chainId ∅).insert entry.positionInChain (f entry))) a)
        (ports.foldl (fun byChain entry => byChain.insert entry.chainId
          ((byChain.getD entry.chainId ∅).insert entry.positionInChain (g entry))) b) from
    H ∅ ∅ ⟨fun _ => Iff.rfl, fun _ _ => Iff.rfl, fun _ => rfl⟩
  induction ports with
  | nil => exact fun a b h => h
  | cons entry ports ih =>
    intro a b h
    refine ih _ _ ⟨fun c => ?_, fun c q => ?_, fun c => ?_⟩
    · rw [TreeMap.mem_insert, TreeMap.mem_insert, h.chains]
    · rw [TreeMap.getD_insert, TreeMap.getD_insert]
      split
      · rw [TreeMap.mem_insert, TreeMap.mem_insert, h.positions]
      · exact h.positions c q
    · rw [TreeMap.getD_insert, TreeMap.getD_insert]
      split
      · rw [TreeMap.size_insert, TreeMap.size_insert, h.size]
        exact if_congr (h.positions _ _) rfl rfl
      · exact h.size c

/-- The length of a chain of a design. -/
def chainLength (manifest : Manifest) (ports : List PseudoPort) (chain : ℤ) : ℤ :=
  lengthOf manifest chain ((targetsByChain (fun _ => false) ports).getD chain ∅)

theorem lengthOf_targets {ports : List PseudoPort} {f : PseudoPort → Bool}
    (h : (targetsByChain f ports)[chain]? = some targets) :
    lengthOf manifest chain targets = chainLength manifest ports chain := by
  have hsize := (sameSites_targetsByChain f (fun _ => false) ports).size chain
  rw [TreeMap.getD_eq_getD_getElem?, h, Option.getD_some] at hsize
  rw [lengthOf, chainLength, lengthOf, hsize]

/-- What a table holds at a position of a chain. -/
def targetAt (byChain : TreeMap ℤ (TreeMap ℤ Bool)) (chain : ℤ) (q : ℕ) : Bool :=
  (byChain.getD chain ∅).getD q false

/-- **One chain of a serialized pattern**: both lists have as many bits as the longest
chain has positions, the last bits to load and the first ones expected are those of the
positions. -/
structure Serialized (vector : TreeMap String Bool) (ports : List PseudoPort) (manifest : Manifest)
    (chain : ℤ) (load expected : List Bool) : Prop where
  nonneg : 0 ≤ chainLength manifest ports chain
  le : chainLength manifest ports chain ≤ maxChainLength manifest
  lengthLoad : (List.length load : ℤ) = maxChainLength manifest
  lengthExpected : (List.length expected : ℤ) = maxChainLength manifest
  loadAt : ∀ q : ℕ, (q : ℤ) < chainLength manifest ports chain →
    load.getD ((maxChainLength manifest).toNat - 1 - q) false =
      targetAt (targetsByChain (loadValue vector) ports) chain q
  expectedAt : ∀ q : ℕ, (q : ℤ) < chainLength manifest ports chain →
    expected.getD ((chainLength manifest ports chain).toNat - 1 - q) false =
      targetAt (targetsByChain (unloadValue vector) ports) chain q

/-- A table computed from the entries of another one. -/
theorem exists_entry_of_mem {f : ℤ × TreeMap ℤ Bool → Except ValueError (List Bool)}
    {t : TreeMap ℤ (TreeMap ℤ Bool)} {m : TreeMap ℤ (List Bool)}
    (h : t.toList.foldlM (fun (m : TreeMap ℤ (List Bool)) p => do return m.insert p.1 (← f p)) ∅ =
      .ok m) {c : ℤ} :
    (c ∈ m ↔ c ∈ t) ∧
      ∀ targets, t[c]? = some targets → ∃ bits, f (c, targets) = .ok bits ∧ m[c]? = some bits := by
  have hnd : (t.toList.map Prod.fst).Nodup := by
    rw [TreeMap.map_fst_toList_eq_keys]
    exact TreeMap.nodup_keys
  obtain ⟨hin, hout⟩ := Lib.getElem?_foldlM_insert Prod.fst h hnd
  have hentry : ∀ targets, t[c]? = some targets →
      ∃ bits, f (c, targets) = .ok bits ∧ m[c]? = some bits := fun targets htargets =>
    hin (c, targets) (TreeMap.mem_toList_iff_getElem?_eq_some.2 htargets)
  refine ⟨?_, hentry⟩
  rw [TreeMap.mem_iff_isSome_getElem?, TreeMap.mem_iff_isSome_getElem?]
  cases htargets : t[c]? with
  | none =>
    rw [hout c fun a ha heq => ?_]
    · simp
    · rw [← heq, TreeMap.mem_toList_iff_getElem?_eq_some.1 (show (a.1, a.2) ∈ t.toList from ha)]
        at htargets
      cases htargets
  | some targets =>
    obtain ⟨bits, -, hbits⟩ := hentry targets htargets
    rw [hbits]
    simp

/-- **What `serialize_vector` returns**, chain by chain. -/
theorem serializeVector_spec {vector : TreeMap String Bool} {ports : List PseudoPort}
    {pattern : ScanPattern} (h : serializeVector vector ports manifest = .ok pattern)
    (hchain : chain ∈ pattern.loadSeqs) :
    ∃ load expected, pattern.loadSeqs[chain]? = some load ∧
      pattern.expectedUnload[chain]? = some expected ∧
      Serialized vector ports manifest chain load expected := by
  obtain ⟨loadSeqs, hload, h⟩ := Lib.bind_eq_ok.1 h
  obtain ⟨expectedUnload, hunload, h⟩ := Lib.bind_eq_ok.1 h
  cases h
  obtain ⟨hmem, hloadBits⟩ := exists_entry_of_mem hload (c := chain)
  obtain ⟨-, hunloadBits⟩ := exists_entry_of_mem hunload (c := chain)
  have hsites := sameSites_targetsByChain (loadValue vector) (unloadValue vector) ports
  have hchain := hmem.1 hchain
  obtain ⟨lt, hlt⟩ := Option.isSome_iff_exists.1 (TreeMap.mem_iff_isSome_getElem?.1 hchain)
  obtain ⟨ut, hut⟩ := Option.isSome_iff_exists.1
    (TreeMap.mem_iff_isSome_getElem?.1 ((hsites.chains chain).1 hchain))
  obtain ⟨load, hloadOk, hloadGet⟩ := hloadBits lt hlt
  obtain ⟨expected, hexpOk, hexpGet⟩ := hunloadBits ut hut
  obtain ⟨hnonneg, hle, hlen, hload⟩ := loadBits_spec hloadOk
  obtain ⟨hlen', hexp⟩ := unloadBits_spec hexpOk
  simp only [lengthOf_targets hlt] at hnonneg hle hload
  simp only [lengthOf_targets hut] at hexp
  refine ⟨load, expected, hloadGet, hexpGet, hnonneg, hle, hlen, hlen', fun q hq => ?_,
    fun q hq => ?_⟩
  · rw [hload q hq, targetAt, TreeMap.getD_eq_getD_getElem? (a := chain), hlt, Option.getD_some]
  · rw [hexp q hq, targetAt, TreeMap.getD_eq_getD_getElem? (a := chain), hut, Option.getD_some]

end Scan

end FaultFlow
