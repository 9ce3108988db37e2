/-
# Netlists and cell maps as the scan tools read them

`faultflow/scan` works on the JSON of a netlist and of a cell map, before the
core parses either: a connection bit is a net or a literal, a flip-flop's
controls are what the file says.  Both files reach the tools with their keys in
order, so an object is a `Std.TreeMap`.

`Module.parse` is what the core makes of a netlist
(`src/core/ir/parsed_graph/parsed_graph.cpp`).  Of an object only the keys that
some modelled function reads are kept.
-/

import FaultFlow.IR.ParsedGraph
import FaultFlow.Lib.Loop

namespace FaultFlow

open Std (TreeMap)

namespace Scan

/-- One bit of a connection: a net, or a literal such as `"0"`. -/
inductive Bit where
  | net (id : YosysNetID)
  | lit (text : String)
deriving DecidableEq, Repr

/-- A port of a module. -/
structure Port where
  direction : String
  bits : List Bit
deriving DecidableEq, Repr

/-- A cell of a module; its instance name is the key of `Module.cells`. -/
structure Cell where
  type : String
  attributes : TreeMap String String := ∅
  portDirections : TreeMap String String := ∅
  connections : TreeMap String (List Bit) := ∅

/-- A cell whose pins have one net each. -/
def Cell.ofPins (type : String) (pins : List (String × YosysNetID)) : Cell :=
  { type := type, connections := TreeMap.ofList (pins.map fun p => (p.1, [Bit.net p.2])) }

/-- The top module of a netlist. -/
structure Module where
  ports : TreeMap String Port := ∅
  netnames : TreeMap String (List Bit) := ∅
  cells : TreeMap String Cell := ∅

/-- The nets among some bits: `_all_int_bits`. -/
def intBits (bits : List Bit) : List YosysNetID :=
  bits.filterMap fun
    | .net id => some id
    | .lit _ => none

/-- `_maybe_one_bit`: the net of a connection of one net. -/
def maybeOneBit : Option (List Bit) → Option YosysNetID
  | some [.net id] => some id
  | _ => none

/-- The bits of a pin. -/
def Cell.pin (cell : Cell) (name : String) : Option (List Bit) := cell.connections[name]?

/-- `parse_bit`: `x` and `z` are tied to the constant `0`. -/
def Bit.parse : Bit → Except FlowError YosysNetID
  | .net id => .ok id
  | .lit "0" => .ok const0NetId
  | .lit "1" => .ok const1NetId
  | .lit "x" => .ok const0NetId
  | .lit "z" => .ok const0NetId
  | .lit text => .error (.ParseError ("Unknown constant bit: " ++ text))

/-- The values of a map, each through a function that may throw. -/
def mapValuesM {α β ε : Type} (f : α → Except ε β) (m : TreeMap String α) :
    Except ε (TreeMap String β) :=
  m.toList.foldlM (fun acc p => do return acc.insert p.1 (← f p.2)) ∅

/-- `ParsedGraph::from_json`, of the top module. -/
def Module.parse (m : Module) : Except FlowError ParsedModule := do
  let ports ← mapValuesM (fun p : Port => do
    return { direction := p.direction, bits := ← p.bits.mapM Bit.parse }) m.ports
  let cells ← mapValuesM (fun c : Cell => do
    return { type := c.type, conns := ← mapValuesM (List.mapM Bit.parse) c.connections }) m.cells
  let netnames ← mapValuesM (List.mapM Bit.parse) m.netnames
  return { ports := ports, cells := cells, netnames := netnames }

/-- **What `mapValuesM` builds**: the entries of the map, up to order, with their values
through the function. -/
theorem exists_perm_mapValuesM {α β ε : Type} {f : α → Except ε β} {t : TreeMap String α}
    {t' : TreeMap String β} (h : mapValuesM f t = .ok t') :
    ∃ l, List.Forall₂ (fun p q => p.1 = q.1 ∧ f p.2 = .ok q.2) t.toList l ∧ t'.toList.Perm l := by
  refine Lib.foldlM_visited (fun pre (acc : TreeMap String β) => ∃ l : List (String × β),
    List.Forall₂ (fun p q => p.1 = q.1 ∧ f p.2 = .ok q.2) pre l ∧ acc.toList.Perm l) h ?_ ?_
  · exact ⟨[], .nil, .refl []⟩
  rintro pre p post acc acc' hl ⟨l, hrel, hperm⟩ hstep
  obtain ⟨y, hy, hret⟩ := Lib.bind_eq_ok.1 hstep
  cases hret
  refine ⟨l ++ [(p.1, y)], List.rel_append hrel (.cons ⟨rfl, hy⟩ .nil), ?_⟩
  -- the keys of a map are distinct, so the entry is a new one
  have hnew : ∀ q ∈ acc.toList, p.1 ≠ q.1 := by
    intro q hq heq
    have hkeys : pre.map Prod.fst = l.map Prod.fst := by
      rw [← List.forall₂_eq_eq_eq, List.forall₂_map_left_iff, List.forall₂_map_right_iff]
      exact hrel.imp fun _ _ h => h.1
    have hmem : q.1 ∈ pre.map Prod.fst := hkeys ▸ List.mem_map_of_mem (hperm.mem_iff.1 hq)
    obtain ⟨q', hq', hkey⟩ := List.mem_map.1 hmem
    have hdistinct := TreeMap.distinct_keys_toList (t := t)
    rw [hl, List.pairwise_append] at hdistinct
    exact hdistinct.2.2 q' hq' p (.head _) (by rw [hkey, heq]; exact Std.compare_self)
  have hfilter : acc.toList.filter (fun q => decide ¬ (p.1 == q.1) = true) = acc.toList := by
    refine List.filter_eq_self.2 fun q hq => ?_
    simpa using hnew q hq
  have hins := TreeMap.toList_insert_perm (t := acc) (k := p.1) (v := y)
  rw [hfilter] at hins
  exact hins.trans ((hperm.cons _).trans (List.perm_append_singleton _ _).symm)

/-- A list of bits keeps its length. -/
theorem length_mapM_parse {bits : List Bit} {ids : List YosysNetID}
    (h : bits.mapM Bit.parse = .ok ids) : ids.length = bits.length := by
  induction bits generalizing ids with
  | nil =>
    cases h
    rfl
  | cons b bits ih =>
    rw [List.mapM_cons] at h
    obtain ⟨id, -, h⟩ := Lib.bind_eq_ok.1 h
    obtain ⟨rest, hrest, h⟩ := Lib.bind_eq_ok.1 h
    cases h
    rw [List.length_cons, List.length_cons, ih hrest]

/-! ## The cell map -/

/-- An object that describes a control of a flip-flop. -/
structure ControlSpec where
  pin : Option String := none
  level : Option String := none
  polarity : Option String := none
  value : Option Nat := none
deriving DecidableEq, Repr

/-- What a control key of the `ff` object may hold. -/
inductive ControlMeta where
  | null
  | str (pin : String)
  | obj (spec : ControlSpec)
deriving DecidableEq, Repr

/-- The `scan` object of the `ff` object. -/
structure ScanSpec where
  input : Option String := none
  enable : Option String := none
  enablePolarity : Option String := none
deriving DecidableEq, Repr

/-- The `ff` object of a cell-map entry; a key that is absent is `none`. -/
structure FFMeta where
  clock : Option String := none
  data : Option String := none
  output : Option String := none
  trigger : Option String := none
  clear : Option ControlMeta := none
  reset : Option ControlMeta := none
  preset : Option ControlMeta := none
  set : Option ControlMeta := none
  enable : Option ControlMeta := none
  scan : Option ScanSpec := none
  clearPresetConflictValue : Option Nat := none
deriving DecidableEq, Repr

/-- The `wbr` object of a cell-map entry. -/
structure WbrMeta where
  side : Option String := none
  corePin : Option String := none
  sysPin : Option String := none
  scan : Bool := false
  funcInPin : Option String := none
  chainInPin : Option String := none
  chainOutPin : Option String := none
  scanEnablePin : Option String := none
  clockPin : Option String := none
deriving DecidableEq, Repr

/-- A cell-map entry.  The names of gates are the values of `GateType`, whose
names the core's reader accepts. -/
structure CellEntry where
  nodeType : String
  gateType : Option GateType := none
  inputs : List String := []
  outputs : TreeMap String String := ∅
  ff : Option FFMeta := none
  wbr : Option WbrMeta := none
  unsupported : Bool := false

/-- A cell map by its patterns. -/
abbrev RawCellMap := TreeMap String CellEntry

/-- A set of characters in brackets, as `fnmatch` reads it. -/
def inCharSet : List Char → Char → Bool
  | lo :: '-' :: hi :: rest, c => (decide (lo ≤ c) && decide (c ≤ hi)) || inCharSet rest c
  | x :: rest, c => x == c || inCharSet rest c
  | [], _ => false

/-- The characters up to the bracket that closes a set, and what follows it.  A
bracket in first place belongs to the set. -/
def splitCharSet (pattern : List Char) : Option (List Char × List Char) :=
  let tail := match pattern with
    | ']' :: rest => rest
    | rest => rest
  let head := pattern.take (pattern.length - tail.length)
  match tail.span (· ≠ ']') with
  | (_, []) => none
  | (inside, _ :: rest) => some (head ++ inside, rest)

/-- One character class at the head of a pattern, and the rest of the pattern. -/
def headClass : List Char → Option ((Char → Bool) × List Char)
  | [] => none
  | '?' :: rest => some (fun _ => true, rest)
  | '[' :: '!' :: rest =>
    match splitCharSet rest with
    | some (set, rest) => some (fun c => !inCharSet set c, rest)
    | none => some ((· == '['), '!' :: rest)
  | '[' :: rest =>
    match splitCharSet rest with
    | some (set, rest) => some (inCharSet set, rest)
    | none => some ((· == '['), rest)
  | p :: rest => some ((· == p), rest)

/-- `fnmatch.fnmatchcase`, with fuel for the length of the pattern. -/
def fnmatchFuel : Nat → List Char → List Char → Bool
  | 0, pattern, name => pattern.isEmpty && name.isEmpty
  | fuel + 1, '*' :: rest, name => name.tails.any (fnmatchFuel fuel rest)
  | fuel + 1, pattern, name =>
    match headClass pattern, name with
    | none, name => name.isEmpty
    | some (ok, rest), c :: name => ok c && fnmatchFuel fuel rest name
    | some _, [] => false

/-- `fnmatch.fnmatchcase`. -/
def fnmatchcase (name pattern : String) : Bool :=
  fnmatchFuel pattern.toList.length pattern.toList name.toList

/-- `len(pattern.rstrip("*"))`. -/
def patternWeight (pattern : String) : Nat :=
  (pattern.toList.reverse.dropWhile (· == '*')).length

/-- `_lookup_cell`: the exact name, or the longest of the patterns that match. -/
def lookupCell (map : RawCellMap) (cellType : String) : Option CellEntry :=
  match map[cellType]? with
  | some entry => some entry
  | none =>
    let hits := map.toList.filter fun p => fnmatchcase cellType p.1
    let best := hits.foldl (fun best p =>
      match best with
      | none => some p
      | some q =>
        if patternWeight q.1 < patternWeight p.1 ∨
            (patternWeight q.1 = patternWeight p.1 ∧ q.1 < p.1) then some p else best) none
    best.map Prod.snd

end Scan

end FaultFlow
