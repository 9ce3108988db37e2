/-
# What a netlist means

A netlist as a relation on its nets, for any values and any cells: a `Meaning` says what a
literal is and which values a cell of a type allows on its pins, and a valuation of the nets
satisfies a module if every cell allows what it sees.  Values may be bits, or streams of bits
for cells with state.

A cell that reads renamed nets sees the same values under a valuation that follows the names
(`Cell.holds_rename`).
-/

import FaultFlow.Scan.Stitch

namespace FaultFlow

open Std (TreeMap)

namespace Scan

/-- The nets of a cell. -/
def Cell.nets (cell : Cell) : List YosysNetID :=
  cell.connections.toList.flatMap fun c => intBits c.2

/-- The nets of a module: of its ports, its names and its cells. -/
def Module.nets (m : Module) : List YosysNetID :=
  (m.ports.toList.flatMap fun p => intBits p.2.bits) ++
    (m.netnames.toList.flatMap fun p => intBits p.2) ++ m.cells.toList.flatMap fun p => p.2.nets

variable {n : YosysNetID} {cell : Cell} {m : Module}

theorem mem_intBits {bits : List Bit} : n ∈ intBits bits ↔ .net n ∈ bits := by
  unfold intBits
  rw [List.mem_filterMap]
  constructor
  · rintro ⟨_ | _, hb, hn⟩ <;> cases hn
    exact hb
  · exact fun h => ⟨_, h, rfl⟩

theorem Cell.mem_nets : n ∈ cell.nets ↔ ∃ c ∈ cell.connections.toList, .net n ∈ c.2 := by
  simp only [Cell.nets, List.mem_flatMap, mem_intBits]

theorem Module.mem_nets_of_cell {p : String × Cell} (hcell : p ∈ m.cells.toList) (hn : n ∈ p.2.nets) :
    n ∈ m.nets :=
  List.mem_append_right _ (List.mem_flatMap.2 ⟨p, hcell, hn⟩)

theorem foldl_max_le {l : List ℤ} {b : ℤ} : b ≤ l.foldl max b ∧ ∀ n ∈ l, n ≤ l.foldl max b := by
  induction l generalizing b with
  | nil => simp
  | cons a l ih =>
    obtain ⟨hb, hl⟩ := ih (b := max b a)
    rw [List.foldl_cons]
    refine ⟨(le_max_left b a).trans hb, fun n hn => ?_⟩
    rcases List.mem_cons.1 hn with rfl | hn
    · exact (le_max_right b n).trans hb
    · exact hl n hn

/-- A new number is above every net. -/
theorem lt_nextNetId (h : n ∈ m.nets) : n < nextNetId m :=
  Int.lt_add_one_of_le (foldl_max_le.2 n h)

/-! ## Valuations -/

/-- What literals and cells mean. -/
structure Meaning (V : Type) where
  literal : String → V
  allows : (type : String) → (pins : List (String × List V)) → Prop

variable {V : Type} (M : Meaning V) (v : YosysNetID → V)

/-- The value of a bit. -/
def Bit.value : Bit → V
  | .net n => v n
  | .lit text => M.literal text

/-- The cell allows what it sees. -/
def Cell.Holds (cell : Cell) : Prop :=
  M.allows cell.type (cell.connections.toList.map fun c => (c.1, c.2.map (Bit.value M v)))

/-- Every cell does. -/
def Module.Holds (m : Module) : Prop := ∀ p ∈ m.cells.toList, p.2.Holds M v

/-- A bit under new names. -/
def Bit.rename (ρ : YosysNetID → YosysNetID) : Bit → Bit
  | .net n => .net (ρ n)
  | .lit text => .lit text

/-- A cell under new names. -/
def Cell.rename (ρ : YosysNetID → YosysNetID) (cell : Cell) : Cell :=
  { cell with connections := cell.connections.map fun _ bits => bits.map (Bit.rename ρ) }

variable {M v}

/-- Only the nets of a cell matter. -/
theorem Cell.holds_congr {b : YosysNetID → V} (h : ∀ n ∈ cell.nets, v n = b n) :
    cell.Holds M v ↔ cell.Holds M b := by
  unfold Cell.Holds
  have hvalues : (cell.connections.toList.map fun c => (c.1, c.2.map (Bit.value M v))) =
      cell.connections.toList.map fun c => (c.1, c.2.map (Bit.value M b)) := by
    refine List.map_congr_left fun c hc => Prod.ext rfl (List.map_congr_left fun bit hbit => ?_)
    cases bit with
    | net n => exact h n (Cell.mem_nets.2 ⟨c, hc, hbit⟩)
    | lit text => rfl
  rw [hvalues]

/-- **A renamed cell sees the same values.** -/
theorem Cell.holds_rename (ρ : YosysNetID → YosysNetID) (cell : Cell) :
    (cell.rename ρ).Holds M v ↔ cell.Holds M (v ∘ ρ) := by
  unfold Cell.Holds Cell.rename
  rw [TreeMap.toList_map, List.map_map]
  refine iff_of_eq (congrArg (M.allows cell.type) (List.map_congr_left fun c _ => ?_))
  refine Prod.ext rfl ((List.map_map ..).trans (List.map_congr_left fun bit _ => ?_))
  cases bit <;> rfl

end Scan

end FaultFlow
