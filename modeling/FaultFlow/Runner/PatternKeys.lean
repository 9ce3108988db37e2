/-
# Pattern keys on the two sides

The loop of `faultflow/runner/progressive_atpg.py` keeps a solved vector as a string of
bits, one per input, and hands such strings back to the solver as blocked patterns.  The
order of the bits is built twice: by `_atpg_pi_names` of `faultflow/runner/runner.py` from
the JSON of the netlist, with the other names of a vector appended by `pattern_key`, and by
`ordered_pis` of `src/core/atpg/fault_solver.cpp` from the compiled graph.

The two keys of a vector agree, and block that vector alone, when the names of the inputs
are distinct, no input port is tied to constants and the mode has no stimulus net
(`keysRoundTrip`).  The values of stimulus nets are in the vector and so in Python's key,
but the solver's list of inputs does not have them.
-/

import FaultFlow.Atpg.ModeReplay
import FaultFlow.IR.Writers
import FaultFlow.Runner.Redundancy
import FaultFlow.Scan.Netlist
import Mathlib.Data.String.Basic

namespace FaultFlow

open Lib
open Std (TreeMap)

namespace Runner

open Atpg

/-! ## The inputs as the runner lists them -/

/-- `_positional_bus_bits`. -/
def positionalBusBits (portName : String) (bitCount : ℕ) : List String :=
  if bitCount ≤ 1 then [portName]
  else (List.range bitCount).map fun i => portName ++ "[" ++ toString i ++ "]"

/-- The names of one port in `_atpg_pi_names`; a port without a net has none. -/
def portNames (p : String × Scan.Port) : List String :=
  if p.2.direction = "input" ∧ Scan.intBits p.2.bits ≠ [] then
    positionalBusBits p.1 p.2.bits.length
  else []

/-- `_atpg_pi_names`. -/
def atpgPiNames (m : Scan.Module) : List String :=
  (m.ports.toList.flatMap portNames).insertionSort (· ≤ ·)

/-- The names of the pseudo-inputs. -/
def pseudoNames (cg : CompiledSimGraph) : List String :=
  (cg.pseudoPiNets.map fun cidx => "__bbpi_" ++ toString (cg.yosysOf cidx)).insertionSort (· ≤ ·)

/-- The solver that `solve_fault_for_db` calls. -/
def solveInMode (solver : SatSolver ℕ) (g : CachedGraph) (mode : TestMode) (incremental : Bool)
    (fault : CompactFault) (options : SatSolveOptions) : Except FlowError (SolveOutcome PiMap) :=
  let pis := orderedPis g.parsed g.cg
  if mode = .FUNCTIONAL then
    if incremental then solveStuckAtFaultIncremental solver g.cg pis fault options
    else solveStuckAtFault solver g.cg pis fault options
  else solveStuckAtFaultMode solver g.cg pis fault options (buildModeConfig g.cg mode)

variable (g : CachedGraph) (mode : TestMode)

/-- The stimulus nets that the solver leaves free. -/
def stimulusNets : List CompiledNetIndex :=
  if mode = .FUNCTIONAL then [] else wbrStimulusNets (buildModeConfig g.cg mode)

/-- The inputs that a solved vector names. -/
def solvedInputs : List AtpgPiInfo :=
  orderedPis g.parsed g.cg ++ (stimulusNets g mode).map (wbrStimulus g.cg)

/-- **A net whose value the solver is free to choose**: an input, a stimulus net of the
mode, or a net that no node drives. -/
def FreeNet (i : CompiledNetIndex) : Prop :=
  i ∈ g.cg.piNets ∨ i ∈ stimulusNets g mode ∨ (i < g.cg.netCount ∧ ¬ g.cg.Driven i)

/-! ## What round-trips -/

/-- The loop over `options.blocked_patterns` in the solvers. -/
def blockAll (blocked : List (List Char)) (cnf : Cnf) : Except FlowError Cnf :=
  blocked.foldlM (blockPattern "PIs" ((orderedPis g.parsed g.cg).map fun pi => freeLit pi.compiled))
    cnf

/-- **A blocked key excludes one assignment** `model` of the free nets, whatever else is
blocked, and is accepted. -/
def BlocksOnly (key : List Char) (model : ℕ → Bool) : Prop :=
  ∀ blocked cnf clauses, blockAll g blocked cnf = .ok clauses →
    ∃ clauses', blockAll g (blocked ++ [key]) cnf = .ok clauses' ∧
      ∀ a, Satisfies a clauses' ↔ Satisfies a clauses ∧
        ∃ i, FreeNet g mode i ∧ a (freeVar i) ≠ model (freeVar i)

/-- The key of a vector is the same on both sides, has one bit per input, and blocks the
assignment that the vector was read off. -/
structure VectorRoundTrips (m : Scan.Module) (g : CachedGraph) (mode : TestMode) (v : PiMap) :
    Prop where
  order : atpgPiNames m ++ extraNames v (atpgPiNames m) =
    (orderedPis g.parsed g.cg).map AtpgPiInfo.name
  key : (patternKey v (atpgPiNames m)).toList = Atpg.patternKey v (orderedPis g.parsed g.cg)
  length : (patternKey v (atpgPiNames m)).length = (orderedPis g.parsed g.cg).length
  blocks : ∃ model, v = emit (solvedInputs g mode) freeVar model ∧
    BlocksOnly g mode (patternKey v (atpgPiNames m)).toList model

/-- **The keys round-trip**: the runner's order is that of the solver, and so are the keys
of all vectors that the solver may return. -/
structure KeysRoundTrip (m : Scan.Module) (g : CachedGraph) (mode : TestMode) : Prop where
  names : (orderedPis g.parsed g.cg).map AtpgPiInfo.name = atpgPiNames m ++ pseudoNames g.cg
  vectors : ∀ solver incremental f options r v,
    solveInMode solver g mode incremental f options = .ok r → r.out = some v →
      VectorRoundTrips m g mode v

/-- Where the two sides see the same inputs. -/
structure InputsAgree (m : Scan.Module) (g : CachedGraph) (mode : TestMode) : Prop where
  ports : ∀ p ∈ m.ports.toList, p.2.direction = "input" → p.2.bits ≠ [] →
    Scan.intBits p.2.bits ≠ []
  names : ((orderedPis g.parsed g.cg).map AtpgPiInfo.name).Nodup
  stimuli : stimulusNets g mode = []
  driven : ∀ i < g.cg.netCount, g.cg.Driven i

/-! ## The names -/

/-- Sorting forgets the order. -/
theorem insertionSort_eq_of_perm {l l' : List String} (h : l.Perm l') :
    l.insertionSort (· ≤ ·) = l'.insertionSort (· ≤ ·) :=
  List.Perm.eq_of_pairwise (fun _ _ _ _ => le_antisymm) (List.pairwise_insertionSort _ l)
    (List.pairwise_insertionSort _ l')
    ((List.perm_insertionSort _ l).trans (h.trans (List.perm_insertionSort _ l').symm))

theorem map_name_sortByName (pis : List AtpgPiInfo) :
    (sortByName pis).map AtpgPiInfo.name = (pis.map AtpgPiInfo.name).insertionSort (· ≤ ·) :=
  List.map_insertionSort _ _ _ _ fun _ _ _ _ => Iff.rfl

/-- The bits of an input port are compiled. -/
theorem exists_compiled (g : CachedGraph) {p : String × ParsedPort} (hp : p ∈ g.parsed.ports.toList)
    (hdir : p.2.direction = "input") {y : YosysNetID} (hy : y ∈ p.2.bits) :
    ∃ i, g.cg.yosysToCompiled[y]? = some i := by
  have hpi : y ∈ g.ng.PIs := (NormalizedGraph.mem_PIs g.normalized).2 ⟨p, hp, hdir, hy⟩
  obtain ⟨⟨ppis, hnodes, -, -⟩, -⟩ := NormalizedGraph.exists_nodes_eq g.normalized
  have hsource : NormalizedGraph.sourceNode 0 .GATE .INPUT y ∈ g.ng.nodes.map NormNode.bare := by
    rw [hnodes]
    simp only [List.mem_append]
    exact .inl (.inl (.inr (List.mem_map_of_mem (Std.TreeSet.mem_toList.2 hpi))))
  obtain ⟨n, hn, hbare⟩ := List.mem_map.1 hsource
  have hwrites : n.writes = [y] := by
    show n.bare.writes = [y]
    rw [hbare]
    rfl
  have hnets := g.mem_nets_of_writes hn (hwrites ▸ List.mem_singleton_self y)
  rw [g.yosysToCompiled_eq, g.lowered.index]
  exact (GraphCompiler.initialIndex_spec g.ng).2 y hnets

/-- The names of one port in `ordered_pis`. -/
theorem map_name_portPis (g : CachedGraph) {p : String × ParsedPort}
    (hp : p ∈ g.parsed.ports.toList) :
    (portPis g.cg p).map AtpgPiInfo.name =
      if p.2.direction = "input" ∧ p.2.bits ≠ [] then positionalBusBits p.1 p.2.bits.length
      else [] := by
  unfold portPis
  by_cases hdir : p.2.direction = "input"
  · have hall : p.2.bits.zipIdx.filterMap (fun b => (g.cg.yosysToCompiled[b.1]?).map fun compiled =>
          if p.2.bits.length = 1 then p.1 else p.1 ++ "[" ++ toString b.2 ++ "]") =
        p.2.bits.zipIdx.map fun b =>
          if p.2.bits.length = 1 then p.1 else p.1 ++ "[" ++ toString b.2 ++ "]" := by
      rw [← List.filterMap_eq_map]
      refine List.filterMap_congr fun b hb => ?_
      obtain ⟨i, hi⟩ := exists_compiled g hp hdir
        (List.mem_of_getElem? (List.mem_zipIdx_iff_getElem?.1 hb))
      simp [hi]
    rw [if_pos hdir, List.map_filterMap]
    simp only [Option.map_map, Function.comp_def]
    rw [hall]
    by_cases hempty : p.2.bits = []
    · simp [hempty]
    rw [if_pos ⟨hdir, hempty⟩, positionalBusBits]
    have hpos := List.length_pos_iff.2 hempty
    by_cases hone : p.2.bits.length = 1
    · obtain ⟨y, hy⟩ := List.length_eq_one_iff.1 hone
      simp [hy]
    · rw [if_neg (by omega), List.range_eq_range', ← List.zipIdx_map_snd, List.map_map]
      simp only [hone, if_false]
      rfl
  · simp [hdir]

section Agree

variable {m : Scan.Module} {g : CachedGraph} {mode : TestMode} (hparse : m.parse = .ok g.parsed)

include hparse in
/-- **The two lists of names agree**, when every input port has a net. -/
theorem map_name_orderedPis (hports : ∀ p ∈ m.ports.toList, p.2.direction = "input" →
      p.2.bits ≠ [] → Scan.intBits p.2.bits ≠ []) :
    (orderedPis g.parsed g.cg).map AtpgPiInfo.name = atpgPiNames m ++ pseudoNames g.cg := by
  obtain ⟨ports, hval, hret⟩ := Lib.bind_eq_ok.1 hparse
  obtain ⟨cells, -, hret⟩ := Lib.bind_eq_ok.1 hret
  obtain ⟨netnames, -, hret⟩ := Lib.bind_eq_ok.1 hret
  obtain rfl : ports = g.parsed.ports := congrArg ParsedModule.ports (Except.ok.inj hret)
  obtain ⟨l, hrel, hperm⟩ := Scan.exists_perm_mapValuesM hval
  have hreal : ((g.parsed.ports.toList.flatMap (portPis g.cg)).map AtpgPiInfo.name).Perm
      (m.ports.toList.flatMap portNames) := by
    rw [List.map_flatMap]
    refine (hperm.flatMap_right _).trans (.of_eq ?_)
    have hmem : ∀ q ∈ l, q ∈ g.parsed.ports.toList := fun q hq => hperm.mem_iff.2 hq
    clear hperm hval
    generalize m.ports.toList = ports at hrel hports ⊢
    induction hrel with
    | nil => rfl
    | @cons p q ps qs hpq _ ih =>
      obtain ⟨hname, hbits⟩ := hpq
      obtain ⟨ids, hids, hret⟩ := Lib.bind_eq_ok.1 hbits
      have hq := Except.ok.inj hret
      rw [List.flatMap_cons, List.flatMap_cons,
        ih (fun q hq => hmem q (.tail _ hq)) fun p hp => hports p (.tail _ hp)]
      refine congrArg (· ++ _) ?_
      have hlen : q.2.bits.length = p.2.bits.length := by
        rw [← hq]
        exact Scan.length_mapM_parse hids
      have hdir : q.2.direction = p.2.direction := by rw [← hq]
      have hnil : q.2.bits ≠ [] ↔ p.2.bits ≠ [] := by
        rw [← List.length_pos_iff, ← List.length_pos_iff, hlen]
      rw [map_name_portPis g (hmem q (.head _)), portNames, hlen, hdir, hname]
      refine if_congr (and_congr_right fun hin => hnil.trans ⟨hports p (.head _) hin, ?_⟩) rfl rfl
      rintro hint hempty
      rw [hempty] at hint
      exact hint rfl
  rw [orderedPis, List.map_append, map_name_sortByName, map_name_sortByName, atpgPiNames,
    insertionSort_eq_of_perm hreal, List.map_map]
  rfl

/-! ## The vectors -/

variable {solver : SatSolver ℕ} {v : PiMap}

/-- The groups emit the inputs of a model. -/
theorem exists_emit_of_solveGroups {cg : CompiledSimGraph} {pis : List AtpgPiInfo}
    {outcone : List CompiledNetIndex} {faultNet : CompiledNetIndex} {first : ℕ}
    {gs : List (List CompiledNetIndex)} {st : Encoder} {r : SolveOutcome PiMap}
    (h : solveGroups solver cg pis outcone faultNet first st gs = .ok r) (hv : r.out = some v) :
    ∃ model, v = emit pis freeVar model := by
  induction gs generalizing st with
  | nil =>
    cases h
    cases hv
  | cons group rest ih =>
    rw [solveGroups] at h
    obtain ⟨st', -, h⟩ := Lib.bind_eq_ok.1 h
    split at h
    · rename_i model _
      cases h
      exact ⟨model, (Option.some.inj hv).symm⟩
    · exact ih h

theorem exists_emit_of_solveAndEmit {inputs : List AtpgPiInfo} {cnf : Cnf}
    (hv : (solveAndEmit solver (emit inputs freeVar) cnf).out = some v) :
    ∃ model, v = emit inputs freeVar model := by
  unfold solveAndEmit at hv
  split at hv
  · rename_i model _
    exact ⟨model, (Option.some.inj hv).symm⟩
  · cases hv

/-- **A solved vector is read off a model**, whichever solver is called. -/
theorem exists_emit_of_solveInMode {incremental : Bool} {f : CompactFault}
    {options : SatSolveOptions} {r : SolveOutcome PiMap}
    (h : solveInMode solver g mode incremental f options = .ok r) (hv : r.out = some v) :
    ∃ model, v = emit (solvedInputs g mode) freeVar model := by
  unfold solveInMode at h
  dsimp only at h
  by_cases hmode : mode = .FUNCTIONAL
  · have hinputs : solvedInputs g mode = orderedPis g.parsed g.cg := by
      rw [solvedInputs, stimulusNets, if_pos hmode, List.map_nil, List.append_nil]
    rw [hinputs]
    rw [if_pos hmode] at h
    split at h
    · unfold solveStuckAtFaultIncremental at h
      dsimp only at h
      split at h
      · cases h
        cases hv
      · obtain ⟨cnf, -, h⟩ := Lib.bind_eq_ok.1 h
        obtain ⟨⟨redundant, st⟩, -, h⟩ := Lib.bind_eq_ok.1 h
        dsimp only at h
        split at h
        · cases h
          cases hv
        · exact exists_emit_of_solveGroups h hv
    · unfold solveStuckAtFault at h
      dsimp only at h
      split at h
      · cases h
        cases hv
      · obtain ⟨cnf, -, h⟩ := Lib.bind_eq_ok.1 h
        cases h
        exact exists_emit_of_solveAndEmit hv
  · rw [if_neg hmode, solveStuckAtFaultMode, if_neg (by rwa [CachedGraph.mode_buildModeConfig])] at h
    dsimp only at h
    split at h
    · cases h
      cases hv
    · obtain ⟨cnf, -, h⟩ := Lib.bind_eq_ok.1 h
      cases h
      rw [solvedInputs, stimulusNets, if_neg hmode]
      exact exists_emit_of_solveAndEmit hv

/-- The names of a solved vector. -/
theorem mem_emit {inputs : List AtpgPiInfo} {model : ℕ → Bool} {n : String} :
    n ∈ emit inputs freeVar model ↔ n ∈ inputs.map AtpgPiInfo.name :=
  over_emitValues inputs (fun i => model (freeVar i)) n

variable (h : InputsAgree m g mode)

include h in
theorem solvedInputs_eq : solvedInputs g mode = orderedPis g.parsed g.cg := by
  rw [solvedInputs, h.stimuli, List.map_nil, List.append_nil]

include hparse h in
/-- The other names of a vector are the pseudo-inputs. -/
theorem extraNames_emit (model : ℕ → Bool) :
    extraNames (emit (solvedInputs g mode) freeVar model) (atpgPiNames m) = pseudoNames g.cg := by
  have hnames := map_name_orderedPis hparse h.ports
  have hnd := h.names
  rw [hnames, List.nodup_append] at hnd
  have hsorted : (extraNames (emit (solvedInputs g mode) freeVar model)
      (atpgPiNames m)).Pairwise (· ≤ ·) := by
    refine List.Pairwise.filter _ (TreeMap.ordered_keys.imp fun hlt => ?_)
    exact le_of_lt (compare_lt_iff_lt.1 hlt)
  refine List.Perm.eq_of_pairwise (fun _ _ _ _ => le_antisymm) hsorted
    (List.pairwise_insertionSort _ _) ?_
  refine (List.perm_ext_iff_of_nodup (TreeMap.nodup_keys.filter _) hnd.2.1).2 fun n => ?_
  rw [List.mem_filter, TreeMap.mem_keys, mem_emit, solvedInputs_eq h, hnames,
    List.mem_append]
  constructor
  · rintro ⟨hn | hn, hnot⟩
    · simp [hn] at hnot
    · exact hn
  · intro hn
    refine ⟨.inr hn, ?_⟩
    simpa using fun hreal => hnd.2.2 n hreal n hn rfl

include h in
/-- The free nets are the inputs. -/
theorem freeNet_iff {i : CompiledNetIndex} :
    FreeNet g mode i ↔ ∃ pi ∈ orderedPis g.parsed g.cg, pi.compiled = i := by
  constructor
  · rintro (hi | hi | ⟨hlt, hnot⟩)
    · exact exists_mem_orderedPis hi
    · rw [h.stimuli] at hi
      exact absurd hi List.not_mem_nil
    · exact absurd (h.driven i hlt) hnot
  · rintro ⟨pi, hpi, rfl⟩
    exact .inl (mem_orderedPis hpi).1

include h in
/-- **The key of an assignment of the inputs blocks that assignment.** -/
theorem blocksOnly_keyOf (model : ℕ → Bool) : BlocksOnly g mode
    (keyOf ((orderedPis g.parsed g.cg).map fun pi => model (freeVar pi.compiled))) model := by
  intro blocked cnf clauses hblocked
  set key := keyOf ((orderedPis g.parsed g.cg).map fun pi => model (freeVar pi.compiled)) with hkey
  have hlen : key.length =
      ((orderedPis g.parsed g.cg).map fun pi => freeLit pi.compiled).length := by
    simp [hkey, keyOf]
  have hchars : ∀ c ∈ key, c = '0' ∨ c = '1' := by
    intro c hc
    obtain ⟨b, -, rfl⟩ := List.mem_map.1 hc
    cases b
    · exact .inl rfl
    · exact .inr rfl
  refine ⟨clauses ++ [blockClause ((orderedPis g.parsed g.cg).map fun pi => freeLit pi.compiled) key],
    ?_, fun a => ?_⟩
  · rw [blockAll] at hblocked ⊢
    rw [List.foldlM_append]
    refine Lib.bind_eq_ok.2 ⟨clauses, hblocked, ?_⟩
    rw [List.foldlM_cons, blockPattern_eq_ok "PIs" hlen hchars]
    rfl
  · rw [satisfies_append, satisfies_cons, eval_blockClause hlen hchars, List.map_map, hkey]
    simp only [satisfies_nil, and_true, Function.comp_def, litValue_freeLit]
    refine and_congr_right fun _ => ?_
    constructor
    · intro hne
      by_contra hall
      push Not at hall
      refine hne (congrArg keyOf (List.map_congr_left fun pi hpi => ?_))
      exact hall _ ((freeNet_iff h).2 ⟨pi, hpi, rfl⟩)
    · rintro ⟨i, hfree, hne⟩ heq
      obtain ⟨pi, hpi, rfl⟩ := (freeNet_iff h).1 hfree
      have hbits := congrArg (List.map fun c => c == '1') heq
      rw [map_eq_one_keyOf, map_eq_one_keyOf] at hbits
      exact hne (List.map_inj_left.1 hbits pi hpi)

include hparse in
/-- **The keys round-trip** where the two sides see the same inputs. -/
theorem keysRoundTrip (h : InputsAgree m g mode) : KeysRoundTrip m g mode where
  names := map_name_orderedPis hparse h.ports
  vectors := by
    intro solver incremental f options r v hsolve hv
    obtain ⟨model, rfl⟩ := exists_emit_of_solveInMode hsolve hv
    have horder : atpgPiNames m ++ extraNames (emit (solvedInputs g mode) freeVar model)
        (atpgPiNames m) = (orderedPis g.parsed g.cg).map AtpgPiInfo.name := by
      rw [extraNames_emit hparse h, map_name_orderedPis hparse h.ports]
    have hkey : (patternKey (emit (solvedInputs g mode) freeVar model) (atpgPiNames m)).toList =
        Atpg.patternKey (emit (solvedInputs g mode) freeVar model) (orderedPis g.parsed g.cg) := by
      rw [patternKey, String.toList_ofList]
      show List.map _ (_ ++ extraNames _ _) = _
      rw [horder, List.map_map]
      rfl
    refine ⟨horder, hkey, ?_, model, rfl, ?_⟩
    · rw [← String.length_toList, hkey, Atpg.patternKey, List.length_map]
    · rw [hkey, solvedInputs_eq h]
      have hmodel := patternKey_emitValues h.names fun i => model (freeVar i)
      exact hmodel ▸ blocksOnly_keyOf h model

end Agree

/-- A cell by its type and the nets of its pins. -/
def cellOf (type : String) (pins : List (String × YosysNetID)) : Scan.Cell :=
  { type := type, connections := TreeMap.ofList (pins.map fun p => (p.1, [Scan.Bit.net p.2])) }

/-- A bus `a` into a blackboxed gate. -/
def boxedModule : Scan.Module :=
  { ports := TreeMap.ofList [("a", Scan.Port.mk "input" [.net 2, .net 3]), ("y", .mk "output" [.net 5])]
    cells := TreeMap.ofList [("u", cellOf "AND2" [("A", 2), ("B", 3), ("Y", 4)]),
      ("b", cellOf "BUF" [("A", 4), ("Y", 5)])] }

def boxedGate : CachedGraph :=
  .load (Lib.resultOf boxedModule.parse (by decide +kernel)) smallCells "fail" (.ofList ["u"])
    (by decide +kernel) (by decide +kernel)

theorem boxedGate_keysRoundTrip : KeysRoundTrip boxedModule boxedGate .FUNCTIONAL :=
  keysRoundTrip (Lib.eq_ok_resultOf _ (by decide +kernel))
    ⟨by decide +kernel, by decide +kernel, by decide +kernel, by decide +kernel⟩

/-- An input `x` behind an output wrapper, whose net `3` is a stimulus net in `EXTEST`. -/
def wrappedModule : Scan.Module :=
  { ports := TreeMap.ofList [("x", Scan.Port.mk "input" [.net 2]), ("y", .mk "output" [.net 4])]
    cells := TreeMap.ofList [("w", cellOf "WBROUT" [("FROM_CORE", 2), ("TO_SYS", 3)]),
      ("b", cellOf "BUF" [("A", 3), ("Y", 4)])] }

def wrappedInput : CachedGraph :=
  .load (Lib.resultOf wrappedModule.parse (by decide +kernel)) smallCells "fail" ∅
    (by decide +kernel) (by decide +kernel)

/-- Solve a fault, and solve it again with the key of the vector blocked: the key, the
number of inputs and the error. -/
def resolve (m : Scan.Module) (g : CachedGraph) (mode : TestMode) (f : CompactFault) :
    Option (String × ℕ × Option FlowError) := do
  let r ← (solveInMode .backtrack g mode false f {}).toOption
  let v ← r.out
  let key := patternKey v (atpgPiNames m)
  return (key, (orderedPis g.parsed g.cg).length,
    match solveInMode .backtrack g mode false f { blockedPatterns := [key.toList] } with
    | .ok _ => none
    | .error e => some e)

/-- The key of the vector has a bit for the stimulus net, and the solver does not accept
it. -/
theorem wrappedInput_rejects : wrappedModule.parse = .ok wrappedInput.parsed ∧
    resolve wrappedModule wrappedInput .EXTEST { netIndex := 2 } =
      some ("01", 1, some (.runtimeError
        "blocked pattern length mismatch: pattern has 2 bits, expected 1 PIs (C++/Python PI-list divergence -- check for an unmapped multi-bit-port bit)")) :=
  ⟨Lib.eq_ok_resultOf _ (by decide +kernel), by decide +kernel⟩

end Runner

end FaultFlow
