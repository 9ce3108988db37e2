/-
# The index of nets behind the ATPG view

`faultflow/scan/atpg_view.py`, `_BitIndex`: for every net the index lists the pins, ports and
net names that it is on, so that `rewire` visits those alone.  It is built from a module and
kept while cells are added, removed and rewired.

As long as cells are added under new names, the index is what a scan of the module would give
(`BitIndex.Exact`), so `consumer_count` is the number of pins on a net, its driver included.
`rewire` renames a net at the ports and net names that are not excluded.  On a pin it keeps
the nets only: a literal that shares a pin with the renamed net is dropped
(`literalBus_rewired`), and that is the one difference from a renaming
(`run_renames_iff`).

The view of `FaultFlow.Scan.AtpgView` rewires by visiting every cell, to the same effect
(`Module.renames_rewire`).  A set of locations is a list without repetition; a net without an
entry has the empty one.
-/

import FaultFlow.Lib.Inverted
import FaultFlow.Scan.AtpgView

namespace FaultFlow

open Lib
open Std (TreeMap)

namespace Scan

/-! ## The lists of bits of a module -/

/-- The bits on a pin, given by the instance and the pin. -/
def Module.pinAt (m : Module) (x : String × String) : Option (List Bit) :=
  m.cells[x.1]?.bind fun cell => cell.pin x.2

/-- The cell with other bits at a pin. -/
def Cell.setPin (cell : Cell) (pin : String) (bits : List Bit) : Cell :=
  { cell with connections := cell.connections.insert pin bits }

variable (m : Module) (name : String)

/-- The module with other bits at a pin. -/
def Module.setPin (x : String × String) (bits : List Bit) : Module :=
  match m.cells[x.1]? with
  | none => m
  | some cell => { m with cells := m.cells.insert x.1 (cell.setPin x.2 bits) }

/-- The bits of a port. -/
def Module.portBits : Option (List Bit) := m.ports[name]?.map Port.bits

/-- The module with other bits at a port. -/
def Module.setPortBits (bits : List Bit) : Module :=
  match m.ports[name]? with
  | none => m
  | some port => { m with ports := m.ports.insert name { port with bits := bits } }

/-- The bits of a net name. -/
def Module.netBits : Option (List Bit) := m.netnames[name]?

/-- The module with other bits under a net name. -/
def Module.setNetBits (bits : List Bit) : Module :=
  { m with netnames := m.netnames.insert name bits }

/-! ## The index -/

/-- `_BitIndex`, with the module it refers to. -/
structure BitIndex where
  module : Module
  cellLocs : YosysNetID → List (String × String)
  portLocs : YosysNetID → List String
  netLocs : YosysNetID → List String

/-- The pins of a cell with their bits. -/
def cellRows (inst : String) (cell : Cell) : List ((String × String) × List Bit) :=
  cell.connections.toList.map fun c => ((inst, c.1), c.2)

namespace BitIndex

/-- `__init__`. -/
def ofModule (m : Module) : BitIndex where
  module := m
  cellLocs := indexRows intBits (fun _ => []) (m.cells.toList.flatMap fun p => cellRows p.1 p.2)
  portLocs := indexRows intBits (fun _ => []) (m.ports.toList.map fun p => (p.1, p.2.bits))
  netLocs := indexRows intBits (fun _ => []) m.netnames.toList

variable (idx : BitIndex)

/-- A cell is put in the module; `add_cell`. -/
def addCell (inst : String) (cell : Cell) : BitIndex :=
  { idx with
    module := { idx.module with cells := idx.module.cells.insert inst cell }
    cellLocs := indexRows intBits idx.cellLocs (cellRows inst cell) }

/-- `remove_cell`; the cell is taken from the module. -/
def removeCell (inst : String) : BitIndex :=
  match idx.module.cells[inst]? with
  | none => idx
  | some cell =>
    { idx with
      module := { idx.module with cells := idx.module.cells.erase inst }
      cellLocs := unindexRows intBits idx.cellLocs (cellRows inst cell) }

/-- `consumer_count`. -/
def consumerCount (bit : YosysNetID) : ℕ := (idx.cellLocs bit).length

/-- The nets of a pin, with `new` for `old`. -/
def swapNets (old new : YosysNetID) (bits : List Bit) : List Bit :=
  (intBits bits).map fun bit => .net (if bit = old then new else bit)

/-- `rewire`. -/
def rewire (old new : YosysNetID) (excludedPorts : List String) : BitIndex :=
  if old = new then idx
  else
    let cells := rewireRows Module.pinAt Module.setPin (swapNets old new) (fun _ => false) old new
      (idx.module, idx.cellLocs)
    let ports := rewireRows Module.portBits Module.setPortBits (List.map (Bit.replace old new))
      (fun name => name ∈ excludedPorts) old new (cells.1, idx.portLocs)
    let nets := rewireRows Module.netBits Module.setNetBits (List.map (Bit.replace old new))
      (fun name => name ∈ excludedPorts) old new (ports.1, idx.netLocs)
    { module := nets.1, cellLocs := cells.2, portLocs := ports.2, netLocs := nets.2 }

/-- An operation on the index. -/
inductive Op where
  | addCell (inst : String) (cell : Cell)
  | removeCell (inst : String)
  | rewire (old new : YosysNetID) (excludedPorts : List String)

/-- One operation. -/
def apply : Op → BitIndex
  | .addCell inst cell => idx.addCell inst cell
  | .removeCell inst => idx.removeCell inst
  | .rewire old new excludedPorts => idx.rewire old new excludedPorts

/-- A sequence of operations. -/
def run (ops : List Op) : BitIndex := ops.foldl apply idx

/-- A cell is added under a new name. -/
def Fresh : Op → Prop
  | .addCell inst _ => inst ∉ idx.module.cells
  | _ => True

/-- Every cell of a sequence is added under a name that is new then. -/
def FreshRun : BitIndex → List Op → Prop
  | _, [] => True
  | idx, op :: ops => idx.Fresh op ∧ FreshRun (idx.apply op) ops

/-- The index lists what the module holds. -/
structure Exact (idx : BitIndex) : Prop where
  cells : Inverts intBits idx.module.pinAt idx.cellLocs
  ports : Inverts intBits idx.module.portBits idx.portLocs
  nets : Inverts intBits idx.module.netBits idx.netLocs

end BitIndex

/-! ## The lists are set one by one -/

/-- The pins after a cell is put in. -/
@[simp] theorem Module.pinAt_insert (m : Module) (inst : String) (cell : Cell)
    (x : String × String) :
    Module.pinAt { m with cells := m.cells.insert inst cell } x =
      if x.1 = inst then cell.pin x.2 else m.pinAt x := by
  simp only [Module.pinAt, TreeMap.getElem?_insert, Std.compare_eq_iff_eq]
  by_cases hx : x.1 = inst
  · rw [if_pos hx.symm, if_pos hx]
    rfl
  · rw [if_neg (Ne.symm hx), if_neg hx]

/-- Pins can be set one by one. -/
theorem sets_pin : Sets Module.pinAt Module.setPin := by
  intro m x bits y hsome
  obtain ⟨old, hold⟩ := Option.isSome_iff_exists.1 hsome
  obtain ⟨cell, hcell, hpin⟩ := Option.bind_eq_some_iff.1 hold
  rw [Module.setPin, hcell]
  dsimp only
  rw [Module.pinAt_insert]
  by_cases hy : y = x
  · simp [hy, Cell.pin, Cell.setPin]
  · rw [if_neg hy]
    by_cases hinst : y.1 = x.1
    · have hne : x.2 ≠ y.2 := fun e => hy (Prod.ext hinst e.symm)
      rw [if_pos hinst, Module.pinAt, hinst, hcell]
      simp [Cell.pin, Cell.setPin, TreeMap.getElem?_insert, hne]
    · rw [if_neg hinst]

/-- So can ports. -/
theorem sets_port : Sets Module.portBits Module.setPortBits := by
  intro m x bits y hsome
  obtain ⟨port, hport⟩ := Option.isSome_iff_exists.1 (Option.isSome_map ▸ hsome)
  rw [Module.setPortBits, hport]
  by_cases hy : y = x
  · simp [Module.portBits, hy]
  · simp [Module.portBits, TreeMap.getElem?_insert, hy, Ne.symm hy]

/-- So can net names. -/
theorem sets_net : Sets Module.netBits Module.setNetBits := by
  intro m x bits y _
  by_cases hy : y = x
  · simp [Module.netBits, Module.setNetBits, hy]
  · simp [Module.netBits, Module.setNetBits, TreeMap.getElem?_insert, hy, Ne.symm hy]

/-- `_rewire_pin` replaces the net among the nets. -/
theorem intBits_swapNets (old new : YosysNetID) (bits : List Bit) :
    intBits (BitIndex.swapNets old new bits) =
      (intBits bits).map fun bit => if bit = old then new else bit := by
  simp [BitIndex.swapNets, intBits, List.filterMap_map]

/-- So does the renaming of the bits. -/
theorem intBits_map_replace (old new : YosysNetID) (bits : List Bit) :
    intBits (bits.map (Bit.replace old new)) =
      (intBits bits).map fun bit => if bit = old then new else bit := by
  induction bits with
  | nil => rfl
  | cons bit bits ih =>
    unfold intBits at ih ⊢
    cases bit with
    | lit text => simpa [Bit.replace] using ih
    | net id =>
      by_cases hid : id = old
      · simpa [Bit.replace, hid] using ih
      · simpa [Bit.replace, hid] using ih

/-! ## The index stays exact -/

variable {x : String × String} {bits : List Bit}

/-- The rows of a cell are its pins. -/
theorem mem_cellRows {inst : String} {cell : Cell} :
    (x, bits) ∈ cellRows inst cell ↔ x.1 = inst ∧ cell.pin x.2 = some bits := by
  simp only [cellRows, List.mem_map, Prod.mk.injEq, Cell.pin]
  constructor
  · rintro ⟨c, hc, rfl, rfl⟩
    exact ⟨rfl, TreeMap.mem_toList_iff_getElem?_eq_some.1 hc⟩
  · rintro ⟨rfl, hpin⟩
    exact ⟨(x.2, bits), TreeMap.mem_toList_iff_getElem?_eq_some.2 hpin, rfl, rfl⟩

variable {m} {old new : YosysNetID}

/-- The rows of a module are its pins. -/
theorem Module.mem_rows :
    (x, bits) ∈ (m.cells.toList.flatMap fun p => cellRows p.1 p.2) ↔ m.pinAt x = some bits := by
  simp only [List.mem_flatMap, mem_cellRows, Module.pinAt, Option.bind_eq_some_iff]
  constructor
  · rintro ⟨p, hp, hx, hpin⟩
    exact ⟨p.2, by rw [hx]; exact TreeMap.mem_toList_iff_getElem?_eq_some.1 hp, hpin⟩
  · rintro ⟨cell, hcell, hpin⟩
    exact ⟨(x.1, cell), TreeMap.mem_toList_iff_getElem?_eq_some.2 hcell, rfl, hpin⟩

namespace BitIndex

/-- **The index is exact when it is built.** -/
theorem exact_ofModule (m : Module) : (ofModule m).Exact := by
  have hempty : ∀ κ : Type, Inverts (κ := κ) intBits (fun _ => none) fun _ => [] :=
    fun κ => ⟨fun _ => List.nodup_nil, by simp⟩
  refine ⟨(hempty _).index fun x bits => ?_, (hempty _).index fun x bits => ?_,
    (hempty _).index fun x bits => ?_⟩
  · rw [Module.mem_rows]
    simp [ofModule]
  · simp [ofModule, Module.portBits, TreeMap.mem_toList_iff_getElem?_eq_some]
  · simp [ofModule, Module.netBits, TreeMap.mem_toList_iff_getElem?_eq_some]

/-- A new cell keeps it exact. -/
theorem Exact.addCell {idx : BitIndex} (h : idx.Exact) {inst : String} {cell : Cell}
    (hfresh : inst ∉ idx.module.cells) : (idx.addCell inst cell).Exact := by
  refine ⟨h.cells.index fun x bits => ?_, h.ports, h.nets⟩
  rw [BitIndex.addCell, Module.pinAt_insert, mem_cellRows]
  by_cases hx : x.1 = inst
  · have hnone : idx.module.pinAt x = none := by
      rw [Module.pinAt, hx, TreeMap.getElem?_eq_none hfresh]
      rfl
    simp [hx, hnone]
  · simp [hx]

/-- Removing a cell keeps it exact. -/
theorem Exact.removeCell {idx : BitIndex} (h : idx.Exact) (inst : String) :
    (idx.removeCell inst).Exact := by
  unfold BitIndex.removeCell
  cases hcell : idx.module.cells[inst]? with
  | none => exact h
  | some cell =>
    have hpin : ∀ x : String × String, x.1 = inst → idx.module.pinAt x = cell.pin x.2 := by
      rintro x rfl
      rw [Module.pinAt, hcell]
      rfl
    refine ⟨h.cells.unindex (fun x bits hx => ?_) fun x bits => ?_, h.ports, h.nets⟩
    · obtain ⟨hinst, hbits⟩ := mem_cellRows.1 hx
      rw [hpin x hinst, hbits]
    · rw [mem_cellRows]
      by_cases hx : x.1 = inst
      · rw [hpin x hx]
        simp [Module.pinAt, hx]
      · simp [Module.pinAt, TreeMap.getElem?_erase, hx, Ne.symm hx]

end BitIndex

/-! ## What `rewire` does -/

/-- A list of bits after a net is renamed, unless it goes by an excluded name. -/
def renameBits (old new : YosysNetID) (excluded : Bool) (bits : List Bit) : List Bit :=
  if excluded then bits else bits.map (Bit.replace old new)

/-- What a cell has besides its connections. -/
def Cell.frame (cell : Cell) : String × TreeMap String String × TreeMap String String :=
  (cell.type, cell.attributes, cell.portDirections)

/-- The module `m'` is `m` with the net `old` renamed at the ports and net names that are not
excluded, and with every pin changed by `onPin`. -/
structure Renames (onPin : List Bit → List Bit) (old new : YosysNetID)
    (excludedPorts : List String) (m m' : Module) : Prop where
  pins : ∀ x, m'.pinAt x = (m.pinAt x).map onPin
  ports : ∀ name, m'.portBits name =
    (m.portBits name).map (renameBits old new (name ∈ excludedPorts))
  nets : ∀ name, m'.netBits name =
    (m.netBits name).map (renameBits old new (name ∈ excludedPorts))
  frames : ∀ inst : String, m'.cells[inst]?.map Cell.frame = m.cells[inst]?.map Cell.frame
  directions : ∀ name : String,
    m'.ports[name]?.map Port.direction = m.ports[name]?.map Port.direction

/-- Without the net there is nothing to rename. -/
theorem map_replace_of_notMem (h : old ∉ intBits bits) : bits.map (Bit.replace old new) = bits := by
  have hid : ∀ bit ∈ bits, Bit.replace old new bit = bit := by
    intro bit hbit
    rw [Bit.replace, if_neg]
    rintro rfl
    exact h (List.mem_filterMap.2 ⟨_, hbit, rfl⟩)
  rw [List.map_congr_left hid, List.map_id']

/-- A pin without the net is left as it is. -/
theorem rewirePin_eq (old new : YosysNetID) (bits : List Bit) :
    (if old ∈ intBits bits ∧ false = false then BitIndex.swapNets old new bits else bits) =
      rewirePin old new bits := by
  simp [rewirePin, BitIndex.swapNets]

/-- So is a port or net name without it. -/
theorem renameBits_eq (old new : YosysNetID) (excluded : Bool) (bits : List Bit) :
    (if old ∈ intBits bits ∧ excluded = false then bits.map (Bit.replace old new) else bits) =
      renameBits old new excluded bits := by
  unfold renameBits
  cases excluded with
  | true => simp
  | false =>
    by_cases hold : old ∈ intBits bits
    · simp [hold]
    · simp [hold, map_replace_of_notMem hold]

/-- The view's own `rewire`, which visits every cell, does the same. -/
theorem Module.renames_rewire (m : Module) (old new : YosysNetID) (excludedPorts : List String) :
    Renames (rewirePin old new) old new excludedPorts m (m.rewire old new excludedPorts) where
  pins x := by
    simp only [Module.pinAt, Module.rewire, TreeMap.getElem?_map]
    cases m.cells[x.1]? with
    | none => rfl
    | some cell => exact TreeMap.getElem?_map
  ports name := by
    simp only [Module.portBits, Module.rewire, TreeMap.getElem?_map]
    cases m.ports[name]? with
    | none => rfl
    | some port => by_cases hname : name ∈ excludedPorts <;> simp [renameBits, hname]
  nets name := by
    simp only [Module.netBits, Module.rewire, TreeMap.getElem?_map]
    cases m.netnames[name]? with
    | none => rfl
    | some bits => by_cases hname : name ∈ excludedPorts <;> simp [renameBits, hname]
  frames inst := by
    simp only [Module.rewire, TreeMap.getElem?_map, Option.map_map]
    rfl
  directions name := by
    simp only [Module.rewire, TreeMap.getElem?_map, Option.map_map]
    refine congrArg (Option.map · _) (funext fun port => ?_)
    by_cases hname : name ∈ excludedPorts <;> simp [hname]

/-- Bits at a pin change no type, parameter or attribute. -/
theorem frames_setPin (m : Module) (x : String × String) (bits : List Bit) (inst : String) :
    (m.setPin x bits).cells[inst]?.map Cell.frame = m.cells[inst]?.map Cell.frame := by
  unfold Module.setPin
  cases hcell : m.cells[x.1]? with
  | none => rfl
  | some cell =>
    by_cases hx : x.1 = inst
    · simp [← hx, hcell, Cell.frame, Cell.setPin]
    · simp [TreeMap.getElem?_insert, hx]

/-- Bits at a port change no direction. -/
theorem directions_setPortBits (m : Module) (x : String) (bits : List Bit) (name : String) :
    (m.setPortBits x bits).ports[name]?.map Port.direction =
      m.ports[name]?.map Port.direction := by
  unfold Module.setPortBits
  cases hport : m.ports[x]? with
  | none => rfl
  | some port =>
    by_cases hx : x = name
    · simp [← hx, hport]
    · simp [TreeMap.getElem?_insert, hx]

namespace BitIndex

variable {idx : BitIndex}

/-- **`rewire` on an exact index** renames the net, drops the literals of its pins, and leaves
the index exact. -/
theorem Exact.rewire (h : idx.Exact) {old new : YosysNetID} (hne : old ≠ new)
    (excludedPorts : List String) :
    Renames (rewirePin old new) old new excludedPorts idx.module
        (idx.rewire old new excludedPorts).module ∧
      (idx.rewire old new excludedPorts).Exact := by
  unfold BitIndex.rewire
  rw [if_neg hne]
  dsimp only
  set cells := rewireRows Module.pinAt Module.setPin (swapNets old new) (fun _ => false) old new
    (idx.module, idx.cellLocs)
  set ports := rewireRows Module.portBits Module.setPortBits (List.map (Bit.replace old new))
    (fun name => name ∈ excludedPorts) old new (cells.1, idx.portLocs)
  set nets := rewireRows Module.netBits Module.setNetBits (List.map (Bit.replace old new))
    (fun name => name ∈ excludedPorts) old new (ports.1, idx.netLocs)
  -- each of the three loops leaves what the other two change
  have hframe₁ : (cells.1.ports, cells.1.netnames) = (idx.module.ports, idx.module.netnames) :=
    rewireRows_frame (fun m : Module => (m.ports, m.netnames)) (fun m x b => by
      unfold Module.setPin; split <;> rfl) _
  have hframe₂ : (ports.1.cells, ports.1.netnames) = (cells.1.cells, cells.1.netnames) :=
    rewireRows_frame (fun m : Module => (m.cells, m.netnames)) (fun m x b => by
      unfold Module.setPortBits; split <;> rfl) _
  have hframe₃ : (nets.1.cells, nets.1.ports) = (ports.1.cells, ports.1.ports) :=
    rewireRows_frame (fun m : Module => (m.cells, m.ports)) (fun m x b => by
      rw [Module.setNetBits]) _
  have hpin : nets.1.pinAt = cells.1.pinAt := by
    funext x
    rw [Module.pinAt, Module.pinAt, (Prod.mk.inj hframe₃).1, (Prod.mk.inj hframe₂).1]
  have hport : nets.1.portBits = ports.1.portBits := by
    funext name
    rw [Module.portBits, Module.portBits, (Prod.mk.inj hframe₃).2]
  have hport₀ : cells.1.portBits = idx.module.portBits := by
    funext name
    rw [Module.portBits, Module.portBits, (Prod.mk.inj hframe₁).1]
  have hnet₀ : ports.1.netBits = idx.module.netBits := by
    funext name
    rw [Module.netBits, Module.netBits, (Prod.mk.inj hframe₂).2, (Prod.mk.inj hframe₁).2]
  obtain ⟨hpins, hcellLocs⟩ := h.cells.rewireRows (fun _ => false) sets_pin
    (intBits_swapNets old new)
  obtain ⟨hports, hportLocs⟩ := (hport₀ ▸ h.ports).rewireRows (fun name => name ∈ excludedPorts)
    sets_port (intBits_map_replace old new)
  obtain ⟨hnets, hnetLocs⟩ := (hnet₀ ▸ h.nets).rewireRows (fun name => name ∈ excludedPorts)
    sets_net (intBits_map_replace old new)
  refine ⟨⟨fun x => ?_, fun name => ?_, fun name => ?_, fun inst => ?_, fun name => ?_⟩,
    hpin ▸ hcellLocs, hport ▸ hportLocs, hnetLocs⟩
  · rw [hpin, hpins]
    exact congrArg (Option.map · _) (funext fun bits => rewirePin_eq old new bits)
  · rw [hport, hports, hport₀]
    simp only [renameBits_eq]
  · rw [hnets, hnet₀]
    simp only [renameBits_eq]
  · rw [(Prod.mk.inj hframe₃).1, (Prod.mk.inj hframe₂).1]
    exact rewireRows_frame (fun m : Module => m.cells[inst]?.map Cell.frame)
      (fun m x b => frames_setPin m x b inst) _
  · have hdir : ports.1.ports[name]?.map Port.direction =
        cells.1.ports[name]?.map Port.direction :=
      rewireRows_frame (fun m : Module => m.ports[name]?.map Port.direction)
        (fun m x b => directions_setPortBits m x b name) _
    rw [(Prod.mk.inj hframe₃).2, hdir, (Prod.mk.inj hframe₁).1]

/-- **Every operation keeps the index exact.** -/
theorem Exact.apply (h : idx.Exact) {op : Op} (hfresh : idx.Fresh op) :
    (idx.apply op).Exact := by
  cases op with
  | addCell inst cell => exact h.addCell hfresh
  | removeCell inst => exact h.removeCell inst
  | rewire old new excludedPorts =>
    by_cases hne : old = new
    · simpa [BitIndex.apply, BitIndex.rewire, hne] using h
    · exact (h.rewire hne excludedPorts).2

/-- **Every run** that adds cells under new names leaves the index exact. -/
theorem Exact.run (h : idx.Exact) {ops : List Op} (hfresh : FreshRun idx ops) :
    (idx.run ops).Exact := by
  induction ops generalizing idx with
  | nil => exact h
  | cons op ops ih => exact ih (h.apply hfresh.1) hfresh.2

end BitIndex

/-! ## The pins on a net -/

/-- The pins that a scan of the module finds a net on. -/
def Module.sites (net : YosysNetID) : List (String × String) :=
  ((m.cells.toList.flatMap fun p => cellRows p.1 p.2).filter fun r => net ∈ intBits r.2).map
    Prod.fst

/-- A pin that reads its net: one that the cell does not call an output. -/
def Module.reads (x : String × String) : Bool :=
  (m.cells[x.1]?.bind fun cell => cell.portDirections[x.2]?) ≠ some "output"

/-- The sites of a net are the pins that read it. -/
theorem Module.mem_sites {net : YosysNetID} :
    x ∈ m.sites net ↔ ∃ bits, m.pinAt x = some bits ∧ net ∈ intBits bits := by
  simp only [Module.sites, List.mem_map, List.mem_filter, decide_eq_true_eq]
  constructor
  · rintro ⟨r, ⟨hr, hnet⟩, rfl⟩
    exact ⟨r.2, Module.mem_rows.1 hr, hnet⟩
  · rintro ⟨bits, hbits, hnet⟩
    exact ⟨(x, bits), ⟨Module.mem_rows.2 hbits, hnet⟩, rfl⟩

/-- Each is listed once. -/
theorem Module.nodup_sites (m : Module) (net : YosysNetID) : (m.sites net).Nodup := by
  refine ((List.filter_sublist).map Prod.fst).nodup ?_
  rw [List.map_flatMap, List.nodup_flatMap]
  constructor
  · rintro ⟨inst, cell⟩ -
    have hkeys : (cell.connections.toList.map Prod.fst).Nodup := by
      rw [TreeMap.map_fst_toList_eq_keys]
      exact TreeMap.nodup_keys
    have hpins := hkeys.map (Prod.mk_right_injective inst)
    rw [List.map_map] at hpins
    rw [cellRows, List.map_map]
    exact hpins
  · -- pins of two instances differ
    refine TreeMap.distinct_keys_toList.imp fun {p q} hpq => ?_
    rintro x hp hq
    simp only [cellRows, List.map_map, List.mem_map, Function.comp_apply] at hp hq
    obtain ⟨_, -, rfl⟩ := hp
    obtain ⟨_, -, hx⟩ := hq
    exact hpq (by rw [← (Prod.mk.inj hx).1]; exact Std.compare_self)

/-- They are as many as the consumers. -/
theorem Module.length_sites (m : Module) (net : YosysNetID) :
    (m.sites net).length = m.consumerCount net := by
  rw [Module.sites, List.length_map, ← List.countP_eq_length_filter, List.countP_flatMap,
    Module.consumerCount]
  congr 1
  refine List.map_congr_left fun p _ => ?_
  simp only [Function.comp_apply, cellRows, List.countP_map]
  rfl

/-- **An exact index counts the consumers of the module.** -/
theorem BitIndex.Exact.consumerCount_eq {idx : BitIndex} (h : idx.Exact) (net : YosysNetID) :
    idx.consumerCount net = idx.module.consumerCount net := by
  rw [← Module.length_sites]
  refine ((List.perm_ext_iff_of_nodup (h.cells.nodup net) (idx.module.nodup_sites net)).2
    fun x => ?_).length_eq
  rw [h.cells.mem, Module.mem_sites]

/-! ## A renaming, but for literals -/

/-- A literal is no net. -/
theorem length_intBits_lt {text : String} (hlit : Bit.lit text ∈ bits) :
    (intBits bits).length < bits.length := by
  obtain ⟨pre, post, rfl⟩ := List.append_of_mem hlit
  have hpre : (intBits pre).length ≤ pre.length := List.length_filterMap_le _ _
  have hpost : (intBits post).length ≤ post.length := List.length_filterMap_le _ _
  have hsplit : intBits (pre ++ Bit.lit text :: post) = intBits pre ++ intBits post := by
    simp [intBits]
  rw [hsplit, List.length_append, List.length_append, List.length_cons]
  omega

/-- Without literals both ways of rewiring are one. -/
theorem swapNets_eq_map (h : ∀ text, Bit.lit text ∉ bits) :
    BitIndex.swapNets old new bits = bits.map (Bit.replace old new) := by
  induction bits with
  | nil => rfl
  | cons bit bits ih =>
    have ih' := ih fun text hmem => h text (.tail _ hmem)
    cases bit with
    | lit text => exact absurd (.head _) (h text)
    | net id =>
      unfold BitIndex.swapNets intBits at ih' ⊢
      by_cases hid : id = old
      · simpa [Bit.replace, hid] using ih'
      · simpa [Bit.replace, hid] using ih'

/-- A pin is renamed unless it holds the net together with a literal. -/
theorem rewirePin_eq_map_iff : rewirePin old new bits = bits.map (Bit.replace old new) ↔
      (old ∈ intBits bits → ∀ text, Bit.lit text ∉ bits) := by
  unfold rewirePin
  by_cases hold : old ∈ intBits bits
  · rw [if_pos hold]
    constructor
    · intro heq _ text hlit
      have hlen := congrArg List.length heq
      rw [List.length_map, List.length_map] at hlen
      exact (length_intBits_lt hlit).ne hlen
    · exact fun h => swapNets_eq_map (h hold)
  · simp [hold, map_replace_of_notMem hold]

/-- A net renamed to itself. -/
theorem Renames.refl (net : YosysNetID) (excludedPorts : List String) (m : Module) :
    Renames (List.map (Bit.replace net net)) net net excludedPorts m m := by
  have hid : Bit.replace net net = id := by
    funext bit
    by_cases hbit : bit = .net net
    · simp [Bit.replace, hbit]
    · simp [Bit.replace, hbit]
  have hbits : ∀ excluded, renameBits net net excluded = id := by
    intro excluded
    funext bits
    simp [renameBits, hid]
  exact ⟨by simp [hid], by simp [hbits], by simp [hbits], fun _ => rfl, fun _ => rfl⟩

namespace BitIndex

/-- **What the index guarantees**, after any run that adds cells under new names.  It counts
the pins on a net; these are its readers when no output pin is on it.  And `rewire` renames
exactly when no pin holds the net together with a literal. -/
theorem run_renames_iff (m : Module) (ops : List Op) (hfresh : FreshRun (ofModule m) ops) :
    (∀ net, ((ofModule m).run ops).consumerCount net =
      ((ofModule m).run ops).module.consumerCount net) ∧
    (∀ net, ((ofModule m).run ops).consumerCount net =
        (((ofModule m).run ops).module.sites net).countP ((ofModule m).run ops).module.reads ↔
      ∀ x ∈ ((ofModule m).run ops).module.sites net, ((ofModule m).run ops).module.reads x) ∧
    ∀ old new excludedPorts,
      Renames (List.map (Bit.replace old new)) old new excludedPorts ((ofModule m).run ops).module
          (((ofModule m).run ops).rewire old new excludedPorts).module ↔
        old = new ∨ ∀ x bits, ((ofModule m).run ops).module.pinAt x = some bits →
          old ∈ intBits bits → ∀ text, Bit.lit text ∉ bits := by
  have hexact : ((ofModule m).run ops).Exact := (exact_ofModule m).run hfresh
  refine ⟨hexact.consumerCount_eq, fun net => ?_, fun old new excludedPorts => ?_⟩
  · rw [hexact.consumerCount_eq, ← Module.length_sites, eq_comm, List.countP_eq_length]
  by_cases hne : old = new
  · subst hne
    rw [BitIndex.rewire, if_pos rfl]
    exact ⟨fun _ => .inl rfl, fun _ => Renames.refl old excludedPorts _⟩
  obtain ⟨hrenames, -⟩ := hexact.rewire hne excludedPorts
  have hpins : (∀ x, (((ofModule m).run ops).module.pinAt x).map (rewirePin old new) =
      (((ofModule m).run ops).module.pinAt x).map (List.map (Bit.replace old new))) ↔
      ∀ x bits, ((ofModule m).run ops).module.pinAt x = some bits →
        old ∈ intBits bits → ∀ text, Bit.lit text ∉ bits := by
    refine forall_congr' fun x => ?_
    cases ((ofModule m).run ops).module.pinAt x with
    | none => simp
    | some bits => simp [rewirePin_eq_map_iff]
  rw [← hpins]
  constructor
  · exact fun hmap => .inr fun x => (hrenames.pins x).symm.trans (hmap.pins x)
  · rintro (heq | hsame)
    · exact absurd heq hne
    · exact { hrenames with pins := fun x => (hrenames.pins x).trans (hsame x) }

/-- **The index and a full scan rewire alike**, after any run that adds cells under new names:
the same pins, ports, net names and cells, and the same counts. -/
theorem run_rewire_eq (m : Module) (ops : List Op) (hfresh : FreshRun (ofModule m) ops)
    {old new : YosysNetID} (hne : old ≠ new) (excludedPorts : List String) :
    let fast := ((ofModule m).run ops).rewire old new excludedPorts
    let plain := ((ofModule m).run ops).module.rewire old new excludedPorts
    (∀ x, fast.module.pinAt x = plain.pinAt x) ∧
    (∀ name, fast.module.portBits name = plain.portBits name ∧
      fast.module.netBits name = plain.netBits name) ∧
    (∀ inst : String, fast.module.cells[inst]?.map Cell.frame = plain.cells[inst]?.map Cell.frame) ∧
    ∀ net, fast.consumerCount net = plain.consumerCount net := by
  obtain ⟨hfast, hexact⟩ := ((exact_ofModule m).run hfresh).rewire hne excludedPorts
  have hplain := ((ofModule m).run ops).module.renames_rewire old new excludedPorts
  have hpins := fun x => (hfast.pins x).trans (hplain.pins x).symm
  refine ⟨hpins, fun name => ⟨(hfast.ports name).trans (hplain.ports name).symm,
    (hfast.nets name).trans (hplain.nets name).symm⟩,
    fun inst => (hfast.frames inst).trans (hplain.frames inst).symm, fun net => ?_⟩
  rw [hexact.consumerCount_eq, ← Module.length_sites, ← Module.length_sites]
  refine ((List.perm_ext_iff_of_nodup (Module.nodup_sites _ net) (Module.nodup_sites _ net)).2
    fun x => ?_).length_eq
  rw [Module.mem_sites, Module.mem_sites, hpins]

/-- A memory with net `2` and a constant on the bus `A`; a flip-flop drives the net. -/
def literalBus : Module where
  cells := TreeMap.ofList [
    ("u_ff", { Cell.ofPins "$_DFF_P_" [("C", 1), ("D", 3), ("Q", 2)] with
      portDirections := TreeMap.ofList [("C", "input"), ("D", "input"), ("Q", "output")] }),
    ("u_mem", { type := "MEM", portDirections := TreeMap.ofList [("A", "input")]
                connections := TreeMap.ofList [("A", [Bit.net 2, Bit.lit "0"])] })]

/-- A buffer of the net is added, the net renamed and the flip-flop removed. -/
def literalBusOps : List Op :=
  [.addCell "u_buf" (Cell.ofPins "BUF" [("A", 2), ("Y", 4)]), .rewire 2 9 [], .removeCell "u_ff"]

/-- A run on a bus with a literal. -/
theorem run_renames_literalBus :
    FreshRun (ofModule literalBus) literalBusOps ∧
      ((ofModule literalBus).run literalBusOps).consumerCount 9 =
        ((ofModule literalBus).run literalBusOps).module.consumerCount 9 :=
  have hfresh : FreshRun (ofModule literalBus) literalBusOps :=
    ⟨show "u_buf" ∉ literalBus.cells by decide +kernel, trivial, trivial, trivial⟩
  ⟨hfresh, (run_renames_iff literalBus literalBusOps hfresh).1 9⟩

/-- Then net `9` becomes net `5`, by the index or by a scan. -/
theorem run_rewire_literalBus :
    (((ofModule literalBus).run literalBusOps).rewire 9 5 []).consumerCount 5 =
      (((ofModule literalBus).run literalBusOps).module.rewire 9 5 []).consumerCount 5 :=
  (run_rewire_eq literalBus literalBusOps ⟨show "u_buf" ∉ literalBus.cells by decide +kernel,
    trivial, trivial, trivial⟩ (by decide) []).2.2.2 5

/-- Renaming net `2` takes the constant from the bus, so net `9` stands where the bus had two
bits; and of the two pins on net `2` one reads it. -/
theorem literalBus_rewired :
    literalBus.pinAt ("u_mem", "A") = some [.net 2, .lit "0"] ∧
      ((ofModule literalBus).rewire 2 9 []).module.pinAt ("u_mem", "A") = some [.net 9] ∧
      (ofModule literalBus).consumerCount 2 = 2 ∧
      (literalBus.sites 2).countP literalBus.reads = 1 := by
  decide +kernel

end BitIndex

end Scan

end FaultFlow
