/-
# Composing a SoC from its blocks

`faultflow/project/assemble.py`: `compose_soc` puts the cells of every block in the place of
its instance in the glue.  A net of a block that a port carries becomes the net of the glue
that the instance connects there; every other net gets a new number.

The glue with its blocks in place (`Instantiated`) has a valuation for each block beside its
own, and equal values on both sides of a port.  `composeSoc_composed`: the flat module allows
the same values on the nets of the glue, for blocks that are connected as the source expects it
(`Plain`): nets on both sides, one net of the glue for each net of a block, and no clash of
names.  `composeSoc_not_equivalent` has a composition for each way this can fail.

The glue is the module that `_find_top` returns.  A net that is missing in the map of a block
keeps its number here and raises a `KeyError` there; the map has every net of the block.
-/

import FaultFlow.Scan.Meaning
import FaultFlow.Scan.WbrView

namespace FaultFlow

open Std (TreeMap)

namespace Project

open Scan

/-- The `AssembleError` of `compose_soc`. -/
inductive AssembleError where
  | noBlockModule (inst : String)
  | instanceMissing (inst : String)
  | moduleMissing (inst moduleName : String)
  | widthMismatch (port : String)
deriving DecidableEq, Repr

/-- A map of nets. -/
abbrev Remap := TreeMap YosysNetID YosysNetID

/-- One bit of a port that is connected. -/
def bindBit (port : String) (glueBits : List Bit) (remap : Remap) (b : Bit × ℕ) :
    Except AssembleError Remap :=
  match b.1, glueBits[b.2]? with
  | .lit _, _ => .ok remap
  | .net _, none => .error (.widthMismatch port)
  | .net n, some (.net g) => .ok (remap.insert n g)
  -- a constant of the glue leaves the bit to the new numbers
  | .net _, some (.lit _) => .ok remap

/-- One port; a port that is not connected binds nothing. -/
def bindPort (conns : TreeMap String (List Bit)) (remap : Remap) (p : String × Port) :
    Except AssembleError Remap :=
  p.2.bits.zipIdx.foldlM (bindBit p.1 ((conns[p.1]?).getD [])) remap

/-- One net without a number. -/
def freshBit (st : Remap × YosysNetID) (n : YosysNetID) : Remap × YosysNetID :=
  if st.1.contains n then st else (st.1.insert n st.2, st.2 + 1)

/-- `_build_remap`. -/
def buildRemap (block : Module) (conns : TreeMap String (List Bit)) (nextId : YosysNetID) :
    Except AssembleError (Remap × YosysNetID) := do
  let ports := block.ports.toList.filter fun p => (conns[p.1]?).getD [] ≠ []
  let remap ← ports.foldlM (bindPort conns) ∅
  return (block.nets.dedup.insertionSort (· ≤ ·)).foldl freshBit (remap, nextId)

/-- The number of a net. -/
def Remap.net (remap : Remap) (n : YosysNetID) : YosysNetID := remap.getD n n

/-- A cell of a block in the SoC; a wrapper cell is tagged with the block. -/
def spliceCell (ρ : YosysNetID → YosysNetID) (tag name : String) (cell : Cell) : Cell :=
  { cell.rename ρ with
    attributes := if (wbrSide cell.type).isSome then
      (cell.attributes.insert "faultflow_block" tag).insert "faultflow_wbc" name
      else cell.attributes }

/-- The name of a cell or net of a block in the SoC. -/
def splicedName (inst name : String) : String := inst ++ "__" ++ name

/-- `_splice_cells`. -/
def spliceCells (result block : Module) (inst tag : String) (remap : Remap) (graybox : Bool) :
    TreeMap String Cell :=
  (block.cells.toList.filter fun p => !graybox || (wbrSide p.2.type).isSome).foldl
    (fun cells p => cells.insert (splicedName inst p.1) (spliceCell remap.net tag p.1 p.2))
    result.cells

/-- `_splice_netnames`. -/
def spliceNetnames (result block : Module) (inst : String) (remap : Remap) :
    TreeMap String (List Bit) :=
  (block.netnames.toList.filter fun p => !block.ports.contains p.1).foldl
    (fun names p => names.insert (splicedName inst p.1) (p.2.map (Bit.rename remap.net)))
    result.netnames

/-- The arguments of `compose_soc` beside the glue: the modules of the file of every instance,
the module of each, and the names of the blocks. -/
structure Blocks where
  files : List (String × TreeMap String Module)
  blockModule : TreeMap String String
  blockNames : TreeMap String String := ∅
  /-- The instances are the keys of a dictionary. -/
  distinct : (files.map Prod.fst).Nodup

variable (glue : Module) (p : String × Module) (blocks : Blocks)

/-- The tag of an instance. -/
def Blocks.tag (inst : String) : String := (blocks.blockNames[inst]?).getD inst

/-- One instance of the loop of `compose_soc`. -/
def composeBlock (graybox : Bool) (st : Module × YosysNetID) (file : String × TreeMap String Module) :
    Except AssembleError (Module × YosysNetID) := do
  let some moduleName := blocks.blockModule[file.1]? | throw (.noBlockModule file.1)
  let some inst := st.1.cells[file.1]? | throw (.instanceMissing file.1)
  let some block := file.2[moduleName]? | throw (.moduleMissing file.1 moduleName)
  let (remap, nextId) ← buildRemap block inst.connections st.2
  let cells := spliceCells st.1 block file.1 (blocks.tag file.1) remap graybox
  return ({ st.1 with
            cells := cells.erase file.1
            netnames := spliceNetnames st.1 block file.1 remap }, nextId)

/-- `compose_soc`. -/
def composeSoc (graybox : Bool := false) : Except AssembleError Module := do
  let (result, _) ← blocks.files.foldlM (composeBlock blocks graybox) (glue, nextNetId glue)
  return result

/-! ## The map of one block -/

/-- A bit of a port of the block, and the bit of the glue that meets it. -/
def Carries (block : Module) (conns : TreeMap String (List Bit)) (bit gbit : Bit) : Prop :=
  ∃ q ∈ block.ports.toList, ∃ i : ℕ,
    q.2.bits[i]? = some bit ∧ ((conns[q.1]?).getD [])[i]? = some gbit

/-- What one port binds. -/
structure PortBound (glueBits bits : List Bit) (remap remap' : Remap) : Prop where
  sound : ∀ n g, remap'[n]? = some g → remap[n]? = some g ∨
    ∃ i : ℕ, bits[i]? = some (Bit.net n) ∧ glueBits[i]? = some (Bit.net g)
  kept : ∀ n, n ∈ remap → n ∈ remap'
  bound : ∀ (i : ℕ) n g, bits[i]? = some (Bit.net n) → glueBits[i]? = some (Bit.net g) → n ∈ remap'

/-- One bit of a port. -/
theorem bindBit_cases {port : String} {glueBits : List Bit} {remap remap' : Remap} {b : Bit × ℕ}
    (h : bindBit port glueBits remap b = .ok remap') :
    (∃ n g, b.1 = Bit.net n ∧ glueBits[b.2]? = some (Bit.net g) ∧ remap' = remap.insert n g) ∨
    ((∀ n g, b.1 = Bit.net n → glueBits[b.2]? ≠ some (Bit.net g)) ∧ remap' = remap) := by
  unfold bindBit at h
  split at h
  · cases h
    rename_i hlit
    exact .inr ⟨fun n g hn => by simp [hlit] at hn, rfl⟩
  · cases h
  · cases h
    rename_i n g hn hg
    exact .inl ⟨n, g, hn, hg, rfl⟩
  · cases h
    rename_i hg
    exact .inr ⟨fun n g _ heq => by simp [hg] at heq, rfl⟩

variable {conns : TreeMap String (List Bit)}

theorem bindPort_spec {remap remap' : Remap} {p : String × Port}
    (h : bindPort conns remap p = .ok remap') :
    PortBound ((conns[p.1]?).getD []) p.2.bits remap remap' := by
  unfold bindPort at h
  generalize (conns[p.1]?).getD [] = glueBits at h ⊢
  have hvisited := Lib.foldlM_visited (fun (pre : List (Bit × ℕ)) (r : Remap) =>
    (∀ n g, r[n]? = some g → remap[n]? = some g ∨
      ∃ b ∈ pre, b.1 = Bit.net n ∧ glueBits[b.2]? = some (Bit.net g)) ∧
    (∀ n, n ∈ remap → n ∈ r) ∧
    ∀ b ∈ pre, ∀ n g, b.1 = Bit.net n → glueBits[b.2]? = some (Bit.net g) → n ∈ r) h
    ⟨fun n g hn => .inl hn, fun n hn => hn, by simp⟩ ?_
  · obtain ⟨hsound, hkept, hbound⟩ := hvisited
    refine ⟨fun n g hn => (hsound n g hn).imp_right ?_, hkept, fun i n g hi hg => ?_⟩
    · rintro ⟨b, hb, hbit, hgb⟩
      exact ⟨b.2, hbit ▸ List.mem_zipIdx_iff_getElem?.1 hb, hgb⟩
    · exact hbound (.net n, i) (List.mem_zipIdx_iff_getElem?.2 hi) n g rfl hg
  · rintro pre b post r r' _ ⟨hsound, hkept, hbound⟩ hstep
    obtain ⟨n, g, hn, hg, rfl⟩ | ⟨hnot, rfl⟩ := bindBit_cases hstep
    · refine ⟨fun k m hk => ?_, fun k hk => ?_, fun b' hb' k m hk hm => ?_⟩
      · rw [TreeMap.getElem?_insert] at hk
        split at hk
        · rename_i heq
          obtain rfl : n = k := by simpa using heq
          obtain rfl := Option.some.inj hk
          exact .inr ⟨b, by simp, hn, hg⟩
        · exact (hsound k m hk).imp_right fun ⟨b', hb', h⟩ => ⟨b', List.mem_append_left _ hb', h⟩
      · exact TreeMap.mem_insert.2 (.inr (hkept k hk))
      · rcases List.mem_append.1 hb' with hb' | hb'
        · exact TreeMap.mem_insert.2 (.inr (hbound b' hb' k m hk hm))
        · obtain rfl := List.mem_singleton.1 hb'
          obtain rfl : n = k := by simpa [hn] using hk
          exact TreeMap.mem_insert_self
    · refine ⟨fun k m hk => ?_, hkept, fun b' hb' k m hk hm => ?_⟩
      · exact (hsound k m hk).imp_right fun ⟨b', hb', h⟩ => ⟨b', List.mem_append_left _ hb', h⟩
      · rcases List.mem_append.1 hb' with hb' | hb'
        · exact hbound b' hb' k m hk hm
        · obtain rfl := List.mem_singleton.1 hb'
          exact absurd hm (hnot k m hk)

/-- Whether a port carries the net to a net of the glue. -/
def Carried (block : Module) (conns : TreeMap String (List Bit)) (n : YosysNetID) : Prop :=
  ∃ g, Carries block conns (.net n) (.net g)

variable {remap : Remap}

/-- The ports of a block bind the nets they carry, each to a net it meets. -/
theorem bindPorts_spec {block : Module}
    (h : (block.ports.toList.filter fun p => (conns[p.1]?).getD [] ≠ []).foldlM
      (bindPort conns) ∅ = .ok remap) :
    (∀ n g, remap[n]? = some g → Carries block conns (.net n) (.net g)) ∧
      ∀ n, Carried block conns n → n ∈ remap := by
  have hvisited := Lib.foldlM_visited (fun (pre : List (String × Port)) (r : Remap) =>
    (∀ n g, r[n]? = some g → Carries block conns (.net n) (.net g)) ∧
    ∀ q ∈ pre, ∀ (i : ℕ) n g, q.2.bits[i]? = some (Bit.net n) →
      ((conns[q.1]?).getD [])[i]? = some (Bit.net g) → n ∈ r) h ⟨by simp, by simp⟩ ?_
  · refine ⟨hvisited.1, fun n ⟨g, q, hq, i, hn, hg⟩ => ?_⟩
    refine hvisited.2 q (List.mem_filter.2 ⟨hq, ?_⟩) i n g hn hg
    -- a port with a bit is connected
    simp only [decide_eq_true_eq]
    intro hnil
    simp [hnil] at hg
  · rintro pre q post r r' hl ⟨hsound, hbound⟩ hstep
    have hq : q ∈ block.ports.toList :=
      (List.mem_filter.1 (hl ▸ List.mem_append_right _ List.mem_cons_self)).1
    have hport := bindPort_spec hstep
    refine ⟨fun n g hn => ?_, fun q' hq' i n g hn hg => ?_⟩
    · rcases hport.sound n g hn with hn | ⟨i, hn, hg⟩
      · exact hsound n g hn
      · exact ⟨q, hq, i, hn, hg⟩
    · rcases List.mem_append.1 hq' with hq' | hq'
      · exact hport.kept n (hbound q' hq' i n g hn hg)
      · obtain rfl := List.mem_singleton.1 hq'
        exact hport.bound i n g hn hg

/-- The new numbers of some nets: from `next` on, one for each net outside `remap`. -/
structure Numbered (remap : Remap) (next : YosysNetID) (nets : List YosysNetID)
    (st : Remap × YosysNetID) : Prop where
  le : next ≤ st.2
  kept : ∀ n ∈ remap, st.1[n]? = remap[n]?
  covered : ∀ n ∈ nets, n ∈ st.1
  fresh : ∀ n g, n ∉ remap → st.1[n]? = some g → next ≤ g ∧ g < st.2
  inj : ∀ n n' g, n ∉ remap → n' ∉ remap → st.1[n]? = some g → st.1[n']? = some g → n = n'

theorem numbered_freshBit {next : YosysNetID} {nets : List YosysNetID} {st : Remap × YosysNetID}
    (h : Numbered remap next nets st) (hremap : ∀ n ∈ remap, n ∈ st.1) (n : YosysNetID) :
    Numbered remap next (nets ++ [n]) (freshBit st n) := by
  unfold freshBit
  split
  case isTrue hn =>
    refine ⟨h.le, h.kept, fun k hk => ?_, h.fresh, h.inj⟩
    rcases List.mem_append.1 hk with hk | hk
    · exact h.covered k hk
    · exact List.mem_singleton.1 hk ▸ TreeMap.mem_iff_contains.2 hn
  case isFalse hn =>
    have hnot : n ∉ st.1 := fun hmem => hn (TreeMap.mem_iff_contains.1 hmem)
    have hget : ∀ k, (st.1.insert n st.2)[k]? = if n = k then some st.2 else st.1[k]? := by
      intro k
      simp [TreeMap.getElem?_insert]
    refine ⟨h.le.trans (Int.le_add_one le_rfl), fun k hk => ?_, fun k hk => ?_, ?_, ?_⟩
    · rw [hget, if_neg (by rintro rfl; exact hnot (hremap n hk))]
      exact h.kept k hk
    · rcases List.mem_append.1 hk with hk | hk
      · exact TreeMap.mem_insert.2 (.inr (h.covered k hk))
      · exact List.mem_singleton.1 hk ▸ TreeMap.mem_insert_self
    · intro k g hk hg
      rw [hget] at hg
      split at hg
      · cases hg
        exact ⟨h.le, Int.lt_add_one_of_le le_rfl⟩
      · obtain ⟨hle, hlt⟩ := h.fresh k g hk hg
        exact ⟨hle, hlt.trans (Int.lt_add_one_of_le le_rfl)⟩
    · intro k k' g hk hk' hg hg'
      rw [hget] at hg hg'
      split at hg <;> split at hg'
      · exact ‹n = k›.symm.trans ‹n = k'›
      · cases hg
        exact absurd (h.fresh k' _ hk' hg').2 (lt_irrefl _)
      · cases hg'
        exact absurd (h.fresh k _ hk hg).2 (lt_irrefl _)
      · exact h.inj k k' g hk hk' hg hg'

theorem numbered_foldl (remap : Remap) (next : YosysNetID) (nets : List YosysNetID) :
    Numbered remap next nets (nets.foldl freshBit (remap, next)) := by
  have hinit : Numbered remap next [] (remap, next) :=
    ⟨le_rfl, fun _ _ => rfl, by simp,
      fun n g hn hg => absurd (TreeMap.mem_iff_isSome_getElem?.2 (by simp [hg])) hn,
      fun n _ g hn _ hg => absurd (TreeMap.mem_iff_isSome_getElem?.2 (by simp [hg])) hn⟩
  refine Lib.foldl_visited (fun pre st => Numbered remap next pre st) hinit ?_
  intro pre n post st _ h
  refine numbered_freshBit h (fun k hk => ?_) n
  rw [TreeMap.mem_iff_isSome_getElem?, h.kept k hk]
  exact TreeMap.mem_iff_isSome_getElem?.1 hk

/-- What the map of a block does. -/
structure Remapped (block : Module) (conns : TreeMap String (List Bit)) (next next' : YosysNetID)
    (ρ : YosysNetID → YosysNetID) : Prop where
  le : next ≤ next'
  carried : ∀ n, Carried block conns n → Carries block conns (.net n) (.net (ρ n))
  fresh : ∀ n ∈ block.nets, ¬ Carried block conns n → next ≤ ρ n ∧ ρ n < next'
  inj : ∀ n ∈ block.nets, ∀ n' ∈ block.nets, ¬ Carried block conns n → ¬ Carried block conns n' →
    ρ n = ρ n' → n = n'

/-- **The map of a block**: a net that a port carries goes to a net it meets, every other net
to a number of its own. -/
theorem buildRemap_spec {block : Module} {next next' : YosysNetID}
    (h : buildRemap block conns next = .ok (remap, next')) :
    Remapped block conns next next' remap.net := by
  obtain ⟨bound, hbound, hret⟩ := Lib.bind_eq_ok.1 h
  obtain ⟨hsound, hcarried⟩ := bindPorts_spec hbound
  have hnum := numbered_foldl bound next (block.nets.dedup.insertionSort (· ≤ ·))
  rw [Except.ok.inj hret] at hnum
  have hget : ∀ n g, remap[n]? = some g → remap.net n = g := by
    intro n g hn
    rw [Remap.net, TreeMap.getD_eq_getD_getElem?, hn, Option.getD_some]
  have hnew : ∀ n, ¬ Carried block conns n → n ∉ bound := by
    intro n hn hmem
    obtain ⟨g, hg⟩ := Option.isSome_iff_exists.1 (TreeMap.mem_iff_isSome_getElem?.1 hmem)
    exact hn ⟨g, hsound n g hg⟩
  have hmem : ∀ n ∈ block.nets, ∃ g, remap[n]? = some g := by
    intro n hn
    refine Option.isSome_iff_exists.1 (TreeMap.mem_iff_isSome_getElem?.1 (hnum.covered n ?_))
    rw [List.mem_insertionSort, List.mem_dedup]
    exact hn
  refine ⟨hnum.le, fun n hn => ?_, fun n hn hnot => ?_, fun n hn n' hn' hnot hnot' heq => ?_⟩
  · obtain ⟨g, hg⟩ :=
      Option.isSome_iff_exists.1 (TreeMap.mem_iff_isSome_getElem?.1 (hcarried n hn))
    rw [hget n g ((hnum.kept n (hcarried n hn)).trans hg)]
    exact hsound n g hg
  · obtain ⟨g, hg⟩ := hmem n hn
    rw [hget n g hg]
    exact hnum.fresh n g (hnew n hnot) hg
  · obtain ⟨g, hg⟩ := hmem n hn
    obtain ⟨g', hg'⟩ := hmem n' hn'
    rw [hget n g hg, hget n' g' hg'] at heq
    exact hnum.inj n n' g (hnew n hnot) (hnew n' hnot') hg (heq ▸ hg')

/-! ## The loop over the blocks -/

/-- The module of an instance, as the loop looks it up. -/
def Blocks.block? (file : String × TreeMap String Module) : Option (String × Module) :=
  ((blocks.blockModule[file.1]?).bind fun moduleName => file.2[moduleName]?).map (file.1, ·)

/-- The instances with their modules. -/
def Blocks.resolved : List (String × Module) := blocks.files.filterMap blocks.block?

/-- A bit of an instance, and the bit of the glue that the instance connects to it. -/
def Meets (bit gbit : Bit) : Prop :=
  ∃ inst, glue.cells[p.1]? = some inst ∧ Carries p.2 inst.connections bit gbit

/-- Whether a net of an instance is connected to a net of the glue. -/
def Joined (n : YosysNetID) : Prop := ∃ g, Meets glue p (.net n) (.net g)

/-- The names of the cells of an instance in the SoC. -/
def namesOf : List String := p.2.cells.toList.map fun q => splicedName p.1 q.1

/-- **What the source expects of the blocks**: a bit of a port is a net and is connected to a
net, a net of a block is connected to one net of the glue, and no two cells have one name. -/
structure Plain (glue : Module) (insts : List (String × Module)) : Prop where
  nets : ∀ p ∈ insts, ∀ bit gbit, Meets glue p bit gbit → ∃ n g, bit = .net n ∧ gbit = .net g
  joined : ∀ p ∈ insts, ∀ n g g', Meets glue p (.net n) (.net g) → Meets glue p (.net n) (.net g') →
    g = g'
  names : (insts.flatMap namesOf).Nodup
  free : ∀ name ∈ insts.flatMap namesOf, name ∉ glue.cells ∧ name ∉ insts.map Prod.fst

/-- The cells of the SoC: those of the glue that are no instance, and those of the blocks. -/
def IsCell (tag : String → String) (insts : List (String × Module))
    (ρ : String → YosysNetID → YosysNetID) (name : String) (cell : Cell) : Prop :=
  (glue.cells[name]? = some cell ∧ name ∉ insts.map Prod.fst) ∨
    ∃ p ∈ insts, ∃ q ∈ p.2.cells.toList,
      name = splicedName p.1 q.1 ∧ cell = spliceCell (ρ p.1) (tag p.1) q.1 q.2

/-- **The invariant of the loop**: what the module has after some instances, for their maps. -/
structure Spliced (glue : Module) (tag : String → String) (insts : List (String × Module))
    (ρ : String → YosysNetID → YosysNetID) (st : Module × YosysNetID) : Prop where
  ports : st.1.ports = glue.ports
  cells : ∀ name cell, st.1.cells[name]? = some cell ↔ IsCell glue tag insts ρ name cell
  le : nextNetId glue ≤ st.2
  joined : ∀ p ∈ insts, ∀ n, Joined glue p n → Meets glue p (.net n) (.net (ρ p.1 n))
  fresh : ∀ p ∈ insts, ∀ n ∈ p.2.nets, ¬ Joined glue p n →
    nextNetId glue ≤ ρ p.1 n ∧ ρ p.1 n < st.2
  inj : ∀ p ∈ insts, ∀ p' ∈ insts, ∀ n ∈ p.2.nets, ∀ n' ∈ p'.2.nets, ¬ Joined glue p n →
    ¬ Joined glue p' n' → ρ p.1 n = ρ p'.1 n' → p = p' ∧ n = n'

theorem spliced_nil (glue : Module) (tag : String → String)
    (ρ : String → YosysNetID → YosysNetID) : Spliced glue tag [] ρ (glue, nextNetId glue) :=
  ⟨rfl, by simp [IsCell], le_rfl, by simp, by simp, by simp⟩

variable {glue} {p} {ρ : String → YosysNetID → YosysNetID}

/-- The cells of one more instance. -/
theorem isCell_splice {tag : String → String} {done : List (String × Module)} {m : Module}
    (hcells : ∀ name cell, m.cells[name]? = some cell ↔ IsCell glue tag done ρ name cell)
    (hnew : p.1 ∉ done.map Prod.fst) (hnames : ((done ++ [p]).flatMap namesOf).Nodup)
    (hfree : ∀ name ∈ (done ++ [p]).flatMap namesOf,
      name ∉ glue.cells ∧ name ∉ (done ++ [p]).map Prod.fst) (name : String) (cell : Cell) :
    ((spliceCells m p.2 p.1 (tag p.1) remap false).erase p.1)[name]? = some cell ↔
      IsCell glue tag (done ++ [p]) (Function.update ρ p.1 remap.net) name cell := by
  have hp : p ∈ done ++ [p] := by simp
  have hmem : ∀ p' ∈ done ++ [p], ∀ q ∈ p'.2.cells.toList,
      splicedName p'.1 q.1 ∈ (done ++ [p]).flatMap namesOf := fun p' hp' q hq =>
    List.mem_flatMap.2 ⟨p', hp', List.mem_map_of_mem hq⟩
  have hold : ∀ p' ∈ done, p'.1 ≠ p.1 := fun p' hp' heq => hnew (heq ▸ List.mem_map_of_mem hp')
  obtain ⟨hin, hout⟩ := Lib.getElem?_foldl_insert (m := m.cells)
    (fun q : String × Cell => splicedName p.1 q.1)
    (fun q => spliceCell remap.net (tag p.1) q.1 q.2) (l := p.2.cells.toList)
    ((List.nodup_flatMap.1 hnames).1 p hp)
  have hfilter : (p.2.cells.toList.filter fun q => !false || (wbrSide q.2.type).isSome) =
      p.2.cells.toList := List.filter_eq_self.2 (by simp)
  rw [TreeMap.getElem?_erase, spliceCells, hfilter]
  constructor
  · intro h
    obtain ⟨hne, h⟩ : p.1 ≠ name ∧ _ = some cell := by
      split at h
      · cases h
      · rename_i hne
        exact ⟨by simpa using hne, h⟩
    by_cases hq : ∃ q ∈ p.2.cells.toList, splicedName p.1 q.1 = name
    · obtain ⟨q, hq, rfl⟩ := hq
      rw [hin q hq] at h
      refine .inr ⟨p, hp, q, hq, rfl, ?_⟩
      rw [Function.update_self]
      exact (Option.some.inj h).symm
    · push Not at hq
      rw [hout name hq] at h
      rcases (hcells name cell).1 h with ⟨hglue, hnot⟩ | ⟨p', hp', q, hq', hname, hcell⟩
      · refine .inl ⟨hglue, ?_⟩
        rw [List.map_append, List.mem_append, not_or]
        exact ⟨hnot, by simpa using hne.symm⟩
      · refine .inr ⟨p', List.mem_append_left _ hp', q, hq', hname, ?_⟩
        rw [Function.update_of_ne (hold p' hp')]
        exact hcell
  · intro h
    have hne : p.1 ≠ name := by
      rintro rfl
      rcases h with ⟨-, hnot⟩ | ⟨p', hp', q, hq, hname, -⟩
      · exact hnot (List.mem_map_of_mem hp)
      · exact (hfree _ (hmem p' hp' q hq)).2 (hname ▸ List.mem_map_of_mem hp)
    rw [if_neg (by simpa using hne)]
    rcases h with ⟨hglue, hnot⟩ | ⟨p', hp', q, hq, rfl, hcell⟩
    · have hglue' : name ∈ glue.cells := TreeMap.mem_iff_isSome_getElem?.2 (by simp [hglue])
      rw [hout name fun q hq heq => (hfree _ (hmem p hp q hq)).1 (heq ▸ hglue')]
      refine (hcells name cell).2 (.inl ⟨hglue, fun hdone => hnot ?_⟩)
      rw [List.map_append]
      exact List.mem_append_left _ hdone
    · rcases List.mem_append.1 hp' with hdone | hlast
      · -- the names of two instances are disjoint
        have hdisjoint : (namesOf p').Disjoint (namesOf p) :=
          (List.pairwise_append.1 (List.nodup_flatMap.1 hnames).2).2.2 p' hdone p (by simp)
        have hother : ∀ q' ∈ p.2.cells.toList, splicedName p.1 q'.1 ≠ splicedName p'.1 q.1 :=
          fun q' hq' heq => hdisjoint (List.mem_map_of_mem hq) (List.mem_map.2 ⟨q', hq', heq⟩)
        rw [hout _ hother]
        rw [Function.update_of_ne (hold p' hdone)] at hcell
        exact (hcells _ cell).2 (.inr ⟨p', hdone, q, hq, rfl, hcell⟩)
      · obtain rfl := List.mem_singleton.1 hlast
        rw [Function.update_self] at hcell
        rw [hin q hq, hcell]

variable {blocks}

/-- One turn of the loop. -/
theorem composeBlock_cases {graybox : Bool} {st st' : Module × YosysNetID}
    {file : String × TreeMap String Module} (h : composeBlock blocks graybox st file = .ok st') :
    ∃ p inst remap, blocks.block? file = some p ∧ p.1 = file.1 ∧ st.1.cells[p.1]? = some inst ∧
      buildRemap p.2 inst.connections st.2 = .ok (remap, st'.2) ∧ st'.1.ports = st.1.ports ∧
      st'.1.cells = (spliceCells st.1 p.2 p.1 (blocks.tag p.1) remap graybox).erase p.1 := by
  unfold composeBlock at h
  dsimp only at h
  split at h
  case h_2 => cases h
  rename_i moduleName hmodule
  split at h
  case h_2 => cases h
  rename_i inst hinst
  split at h
  case h_2 => cases h
  rename_i block hblock
  obtain ⟨⟨remap, next⟩, hremap, h⟩ := Lib.bind_eq_ok.1 h
  cases h
  refine ⟨(file.1, block), inst, remap, ?_, rfl, hinst, hremap, rfl, rfl⟩
  rw [Blocks.block?, hmodule, Option.bind_some, hblock, Option.map_some]

/-- **One more instance keeps the invariant.** -/
theorem spliced_composeBlock {done rest : List (String × Module)} {st st' : Module × YosysNetID}
    {file : String × TreeMap String Module} (h : Spliced glue blocks.tag done ρ st)
    (hstep : composeBlock blocks false st file = .ok st') (hp : blocks.block? file = some p)
    (hdistinct : ((done ++ p :: rest).map Prod.fst).Nodup) (hplain : Plain glue (done ++ p :: rest)) :
    ∃ ρ', Spliced glue blocks.tag (done ++ [p]) ρ' st' := by
  obtain ⟨p', inst, remap, hp', -, hinst, hremap, hports, hcells⟩ := composeBlock_cases hstep
  obtain rfl : p = p' := Option.some.inj (hp.symm.trans hp')
  have hsplit : done ++ p :: rest = (done ++ [p]) ++ rest := List.append_cons done p rest
  have hsub : ((done ++ [p]).flatMap namesOf).Sublist ((done ++ p :: rest).flatMap namesOf) := by
    have hleft := List.sublist_append_left ((done ++ [p]).flatMap namesOf) (rest.flatMap namesOf)
    rwa [← List.flatMap_append, ← hsplit] at hleft
  have hnew : p.1 ∉ done.map Prod.fst := fun hmem => by
    rw [List.map_append, List.nodup_append] at hdistinct
    exact hdistinct.2.2 _ hmem _ (by simp) rfl
  have hold : ∀ p' ∈ done, p'.1 ≠ p.1 := fun p' hp' heq => hnew (heq ▸ List.mem_map_of_mem hp')
  -- the cell of the instance is the one of the glue
  have hglue : glue.cells[p.1]? = some inst := by
    rcases (h.cells p.1 inst).1 hinst with ⟨hglue, -⟩ | ⟨p', hp', q, hq, hname, -⟩
    · exact hglue
    · refine absurd ?_ (hplain.free _ (List.mem_flatMap.2
        ⟨p', List.mem_append_left _ hp', List.mem_map_of_mem hq⟩)).2
      rw [← hname]
      exact List.mem_map_of_mem (by simp)
  have hmeets : ∀ bit gbit, Meets glue p bit gbit ↔ Carries p.2 inst.connections bit gbit := by
    intro bit gbit
    simp only [Meets, hglue, Option.some.injEq, exists_eq_left']
  have hjoined : ∀ n, Joined glue p n ↔ Carried p.2 inst.connections n := fun n =>
    exists_congr fun g => hmeets _ _
  have hmap := buildRemap_spec hremap
  refine ⟨Function.update ρ p.1 remap.net, hports.trans h.ports, fun name cell => ?_,
    h.le.trans hmap.le, ?_, ?_, ?_⟩
  · rw [hcells]
    refine isCell_splice h.cells hnew (hplain.names.sublist hsub) ?_ name cell
    intro name hname
    obtain ⟨hnot, hinsts⟩ := hplain.free name (hsub.subset hname)
    refine ⟨hnot, fun hmem => hinsts ?_⟩
    rw [hsplit, List.map_append]
    exact List.mem_append_left _ hmem
  · intro p' hp' n hn
    rcases List.mem_append.1 hp' with hp' | hp'
    · rw [Function.update_of_ne (hold p' hp')]
      exact h.joined p' hp' n hn
    · obtain rfl := List.mem_singleton.1 hp'
      rw [Function.update_self]
      exact (hmeets _ _).2 (hmap.carried n ((hjoined n).1 hn))
  · intro p' hp' n hn hnot
    rcases List.mem_append.1 hp' with hp' | hp'
    · rw [Function.update_of_ne (hold p' hp')]
      obtain ⟨hle, hlt⟩ := h.fresh p' hp' n hn hnot
      exact ⟨hle, hlt.trans_le hmap.le⟩
    · obtain rfl := List.mem_singleton.1 hp'
      rw [Function.update_self]
      obtain ⟨hle, hlt⟩ := hmap.fresh n hn (mt (hjoined n).2 hnot)
      exact ⟨h.le.trans hle, hlt⟩
  · -- the numbers of the new instance are above those of the others
    have hsep : ∀ p' ∈ done, ∀ n ∈ p'.2.nets, ∀ k ∈ p.2.nets, ¬ Joined glue p' n →
        ¬ Joined glue p k → ρ p'.1 n ≠ remap.net k := by
      intro p' hp' n hn k hk hnot hnot'
      exact ((h.fresh p' hp' n hn hnot).2.trans_le
        (hmap.fresh k hk (mt (hjoined k).2 hnot')).1).ne
    intro p₁ hp₁ p₂ hp₂ n hn k hk hnot hnot' heq
    rcases List.mem_append.1 hp₁ with h₁ | h₁ <;> rcases List.mem_append.1 hp₂ with h₂ | h₂
    · rw [Function.update_of_ne (hold p₁ h₁), Function.update_of_ne (hold p₂ h₂)] at heq
      exact h.inj p₁ h₁ p₂ h₂ n hn k hk hnot hnot' heq
    · obtain rfl := List.mem_singleton.1 h₂
      rw [Function.update_of_ne (hold p₁ h₁), Function.update_self] at heq
      exact absurd heq (hsep p₁ h₁ n hn k hk hnot hnot')
    · obtain rfl := List.mem_singleton.1 h₁
      rw [Function.update_of_ne (hold p₂ h₂), Function.update_self] at heq
      exact absurd heq.symm (hsep p₂ h₂ k hk n hn hnot' hnot)
    · obtain rfl := List.mem_singleton.1 h₁
      obtain rfl := List.mem_singleton.1 h₂
      rw [Function.update_self] at heq
      exact ⟨rfl, hmap.inj n hn k hk (mt (hjoined n).2 hnot) (mt (hjoined k).2 hnot') heq⟩

/-- The names of the instances are distinct. -/
theorem Blocks.nodup_resolved (blocks : Blocks) : (blocks.resolved.map Prod.fst).Nodup := by
  have hfst : ∀ file p, blocks.block? file = some p → p.1 = file.1 := by
    intro file p hp
    obtain ⟨block, -, rfl⟩ := Option.map_eq_some_iff.1 hp
    rfl
  have hsub : ∀ files : List (String × TreeMap String Module),
      ((files.filterMap blocks.block?).map Prod.fst).Sublist (files.map Prod.fst) := by
    intro files
    induction files with
    | nil => exact .refl []
    | cons file files ih =>
      cases hp : blocks.block? file with
      | none =>
        rw [List.filterMap_cons_none hp, List.map_cons]
        exact ih.cons _
      | some p =>
        rw [List.filterMap_cons_some hp, List.map_cons, List.map_cons, hfst file p hp]
        exact ih.cons_cons _
  exact blocks.distinct.sublist (hsub blocks.files)

/-- **The whole loop.** -/
theorem composeSoc_spliced {glue flat : Module} (h : composeSoc glue blocks = .ok flat)
    (hplain : Plain glue blocks.resolved) :
    ∃ ρ next, Spliced glue blocks.tag blocks.resolved ρ (flat, next) := by
  obtain ⟨⟨m, next⟩, hloop, hret⟩ := Lib.bind_eq_ok.1 h
  cases hret
  have hvisited := Lib.foldlM_visited
    (fun (pre : List (String × TreeMap String Module)) (st : Module × YosysNetID) =>
      ∃ ρ, Spliced glue blocks.tag (pre.filterMap blocks.block?) ρ st) hloop ?_ ?_
  · obtain ⟨ρ, hρ⟩ := hvisited
    exact ⟨ρ, next, hρ⟩
  · exact ⟨fun _ n => n, spliced_nil glue blocks.tag _⟩
  · rintro pre file post st st' hl ⟨ρ, hρ⟩ hstep
    obtain ⟨p, -, -, hp, -⟩ := composeBlock_cases hstep
    have hresolved : blocks.resolved =
        pre.filterMap blocks.block? ++ p :: post.filterMap blocks.block? := by
      rw [Blocks.resolved, hl, List.filterMap_append, List.filterMap_cons_some hp]
    rw [List.filterMap_append, List.filterMap_cons_some hp, List.filterMap_nil]
    exact spliced_composeBlock hρ hstep hp (hresolved ▸ blocks.nodup_resolved)
      (hresolved ▸ hplain)

/-! ## The glue with its blocks in place -/

section Semantics

variable {V : Type} (M : Meaning V) (glue : Module) (insts : List (String × Module))

/-- **The glue with each block instantiated**: the cells of the glue allow `v`, those of each
instance its own valuation, and the two sides of every port have one value. -/
structure Instantiated (v : YosysNetID → V) (b : String → YosysNetID → V) : Prop where
  outside : ∀ q ∈ glue.cells.toList, q.1 ∉ insts.map Prod.fst → q.2.Holds M v
  inside : ∀ p ∈ insts, p.2.Holds M (b p.1)
  port : ∀ p ∈ insts, ∀ bit gbit, Meets glue p bit gbit →
    bit.value M (b p.1) = gbit.value M v

/-- **A flat module that is the glue with its blocks**: both allow the same values on the nets
of the glue. -/
def Equivalent (flat : Module) : Prop :=
  ∀ (V : Type) (M : Meaning V) (gv : YosysNetID → V),
    (∃ v, (∀ n ∈ glue.nets, v n = gv n) ∧ flat.Holds M v) ↔
      ∃ b, Instantiated M glue insts gv b

variable {M glue insts} {tag : String → String} {flat : Module} {next : YosysNetID}

/-- A net that meets a block is a net of the glue. -/
theorem Meets.mem_nets {bit : Bit} {g : YosysNetID} (h : Meets glue p bit (.net g)) :
    g ∈ glue.nets := by
  obtain ⟨inst, hinst, q, -, i, -, hg⟩ := h
  cases hconn : inst.connections[q.1]? with
  | none => simp [hconn] at hg
  | some bits =>
    rw [hconn, Option.getD_some] at hg
    exact Module.mem_nets_of_cell (TreeMap.mem_toList_iff_getElem?_eq_some.2 hinst)
      (Cell.mem_nets.2 ⟨_, TreeMap.mem_toList_iff_getElem?_eq_some.2 hconn,
        List.mem_of_getElem? hg⟩)

variable {v : YosysNetID → V}

/-- The tags of a cell do not matter. -/
theorem holds_spliceCell {σ : YosysNetID → YosysNetID} {t name : String} {cell : Cell} :
    (spliceCell σ t name cell).Holds M v ↔ cell.Holds M (v ∘ σ) :=
  Cell.holds_rename σ cell

/-- The flat module holds if the cells of the glue do and those of the blocks do under their
maps. -/
theorem Spliced.holds_iff (h : Spliced glue tag insts ρ (flat, next)) :
    flat.Holds M v ↔ (∀ q ∈ glue.cells.toList, q.1 ∉ insts.map Prod.fst → q.2.Holds M v) ∧
      ∀ p ∈ insts, p.2.Holds M (v ∘ ρ p.1) := by
  constructor
  · intro hflat
    have hcell : ∀ name cell, IsCell glue tag insts ρ name cell → cell.Holds M v := by
      intro name cell hcell
      exact hflat (name, cell)
        (TreeMap.mem_toList_iff_getElem?_eq_some.2 ((h.cells name cell).2 hcell))
    refine ⟨fun q hq hnot => ?_, fun p hp q hq => ?_⟩
    · exact hcell q.1 q.2 (.inl ⟨TreeMap.mem_toList_iff_getElem?_eq_some.1 hq, hnot⟩)
    · exact holds_spliceCell.1 (hcell _ _ (.inr ⟨p, hp, q, hq, rfl, rfl⟩))
  · rintro ⟨hglue, hblock⟩ ⟨name, cell⟩ hmem
    rcases (h.cells name cell).1 (TreeMap.mem_toList_iff_getElem?_eq_some.1 hmem) with
      ⟨hcell, hnot⟩ | ⟨p, hp, q, hq, -, rfl⟩
    · exact hglue _ (TreeMap.mem_toList_iff_getElem?_eq_some.2 hcell) hnot
    · exact holds_spliceCell.2 (hblock p hp q hq)

/-- A port of an instance and the bit it is connected to have one value in the flat module. -/
theorem Spliced.port_value (h : Spliced glue tag insts ρ (flat, next)) (hplain : Plain glue insts)
    (hp : p ∈ insts) {bit gbit : Bit} (hmeets : Meets glue p bit gbit) :
    bit.value M (v ∘ ρ p.1) = gbit.value M v := by
  obtain ⟨n, g, rfl, rfl⟩ := hplain.nets p hp _ _ hmeets
  have heq : ρ p.1 n = g := hplain.joined p hp n _ _ (h.joined p hp n ⟨g, hmeets⟩) hmeets
  exact congrArg v heq

/-- A valuation of the flat module gives one to each block. -/
theorem Spliced.instantiated (h : Spliced glue tag insts ρ (flat, next))
    (hplain : Plain glue insts) {v gv : YosysNetID → V} (hv : ∀ n ∈ glue.nets, v n = gv n)
    (hflat : flat.Holds M v) : Instantiated M glue insts gv fun inst => v ∘ ρ inst := by
  obtain ⟨hglue, hblock⟩ := h.holds_iff.1 hflat
  refine ⟨fun q hq hnot => ?_, hblock, fun p hp bit gbit hmeets => ?_⟩
  · exact (Cell.holds_congr fun n hn => hv n (Module.mem_nets_of_cell hq hn)).1 (hglue q hq hnot)
  · rw [h.port_value hplain hp hmeets]
    obtain ⟨n, g, rfl, rfl⟩ := hplain.nets p hp _ _ hmeets
    exact hv g hmeets.mem_nets

open Classical in
/-- The valuation of the flat module: that of the blocks on the new numbers, and that of the
glue on its own. -/
noncomputable def flatValue (glue : Module) (insts : List (String × Module))
    (ρ : String → YosysNetID → YosysNetID) (gv : YosysNetID → V) (b : String → YosysNetID → V)
    (k : YosysNetID) : V :=
  if h : ∃ x : (String × Module) × YosysNetID,
      x.1 ∈ insts ∧ x.2 ∈ x.1.2.nets ∧ ¬ Joined glue x.1 x.2 ∧ ρ x.1.1 x.2 = k then
    b h.choose.1.1 h.choose.2
  else gv k

variable {gv : YosysNetID → V} {b : String → YosysNetID → V}

theorem Spliced.flatValue_glue (h : Spliced glue tag insts ρ (flat, next)) {n : YosysNetID}
    (hn : n ∈ glue.nets) :
    flatValue glue insts ρ gv b n = gv n := by
  unfold flatValue
  rw [dif_neg]
  rintro ⟨⟨p, k⟩, hp, hk, hnot, rfl⟩
  exact absurd (lt_nextNetId hn) (not_lt.2 (h.fresh p hp k hk hnot).1)

theorem Spliced.flatValue_fresh (h : Spliced glue tag insts ρ (flat, next)) (hp : p ∈ insts)
    {n : YosysNetID} (hn : n ∈ p.2.nets) (hnot : ¬ Joined glue p n) :
    flatValue glue insts ρ gv b (ρ p.1 n) = b p.1 n := by
  have hex : ∃ x : (String × Module) × YosysNetID, x.1 ∈ insts ∧ x.2 ∈ x.1.2.nets ∧
      ¬ Joined glue x.1 x.2 ∧ ρ x.1.1 x.2 = ρ p.1 n := ⟨(p, n), hp, hn, hnot, rfl⟩
  obtain ⟨hp', hn', hnot', heq⟩ := hex.choose_spec
  obtain ⟨hpeq, hneq⟩ := h.inj _ hp' p hp _ hn' n hn hnot' hnot heq
  unfold flatValue
  rw [dif_pos hex, hpeq, hneq]

/-- Valuations of the glue and of its blocks give one to the flat module. -/
theorem Spliced.holds_flatValue (h : Spliced glue tag insts ρ (flat, next))
    (hb : Instantiated M glue insts gv b) : flat.Holds M (flatValue glue insts ρ gv b) := by
  refine h.holds_iff.2 ⟨fun q hq hnot => ?_, fun p hp q hq => ?_⟩
  · refine (Cell.holds_congr fun n hn => ?_).2 (hb.outside q hq hnot)
    exact h.flatValue_glue (Module.mem_nets_of_cell hq hn)
  · refine (Cell.holds_congr fun n hn => ?_).2 (hb.inside p hp q hq)
    by_cases hjoined : Joined glue p n
    · -- a net that a port carries has the value of the glue on both sides
      have hmeets := h.joined p hp n hjoined
      exact (h.flatValue_glue hmeets.mem_nets).trans (hb.port p hp _ _ hmeets).symm
    · exact h.flatValue_fresh hp (Module.mem_nets_of_cell hq hn) hjoined

theorem Spliced.equivalent (h : Spliced glue tag insts ρ (flat, next))
    (hplain : Plain glue insts) : Equivalent glue insts flat := by
  intro V M gv
  constructor
  · rintro ⟨v, hv, hflat⟩
    exact ⟨_, h.instantiated hplain hv hflat⟩
  · rintro ⟨b, hb⟩
    exact ⟨flatValue glue insts ρ gv b, fun n hn => h.flatValue_glue hn,
      h.holds_flatValue hb⟩

end Semantics

/-! ## `compose_soc` -/

/-- **What a composition is to be.**  The flat module is the glue with its blocks, with the
ports of the glue; every cell is there once under its name; and the nets of the blocks are
renamed so that those on a port are those of the glue and no other two coincide. -/
structure Composed (glue : Module) (blocks : Blocks) (flat : Module) : Prop where
  equivalent : Equivalent glue blocks.resolved flat
  ports : flat.ports = glue.ports
  once : flat.cells.keys.Perm ((glue.cells.keys.filter fun name =>
    decide (name ∉ blocks.resolved.map Prod.fst)) ++ blocks.resolved.flatMap namesOf)
  renamed : ∃ ρ : String → YosysNetID → YosysNetID,
    (∀ p ∈ blocks.resolved, ∀ q ∈ p.2.cells.toList, flat.cells[splicedName p.1 q.1]? =
      some (spliceCell (ρ p.1) (blocks.tag p.1) q.1 q.2)) ∧
    (∀ p ∈ blocks.resolved, ∀ n g, Meets glue p (.net n) (.net g) → ρ p.1 n = g) ∧
    (∀ p ∈ blocks.resolved, ∀ n ∈ p.2.nets, ¬ Joined glue p n → ρ p.1 n ∉ glue.nets) ∧
    ∀ p ∈ blocks.resolved, ∀ p' ∈ blocks.resolved, ∀ n ∈ p.2.nets, ∀ n' ∈ p'.2.nets,
      ¬ Joined glue p n → ¬ Joined glue p' n' → ρ p.1 n = ρ p'.1 n' → p = p' ∧ n = n'

variable {insts : List (String × Module)}

/-- The names of the cells of the flat module. -/
theorem Spliced.perm_keys {glue flat : Module} {tag : String → String} {next : YosysNetID}
    (h : Spliced glue tag insts ρ (flat, next)) (hplain : Plain glue insts) :
    flat.cells.keys.Perm ((glue.cells.keys.filter fun name =>
      decide (name ∉ insts.map Prod.fst)) ++ insts.flatMap namesOf) := by
  have hglue : (glue.cells.keys.filter fun name => decide (name ∉ insts.map Prod.fst)).Nodup :=
    TreeMap.nodup_keys.filter _
  have hdisjoint : ∀ name ∈ glue.cells.keys.filter fun name =>
      decide (name ∉ insts.map Prod.fst), name ∉ insts.flatMap namesOf := fun name hname hmem =>
    (hplain.free name hmem).1 (TreeMap.mem_keys.1 (List.mem_filter.1 hname).1)
  refine (List.perm_ext_iff_of_nodup TreeMap.nodup_keys
    (List.nodup_append'.2 ⟨hglue, hplain.names, hdisjoint⟩)).2 fun name => ?_
  have hkey : ∀ m : Module, name ∈ m.cells.keys ↔ ∃ cell, m.cells[name]? = some cell := by
    intro m
    rw [TreeMap.mem_keys, TreeMap.mem_iff_isSome_getElem?, Option.isSome_iff_exists]
  rw [hkey flat, List.mem_append, List.mem_filter, hkey glue, decide_eq_true_eq,
    List.mem_flatMap]
  simp only [h.cells, IsCell, exists_or]
  refine or_congr exists_and_right ⟨?_, ?_⟩
  · rintro ⟨cell, p, hp, q, hq, rfl, -⟩
    exact ⟨p, hp, List.mem_map_of_mem hq⟩
  · rintro ⟨p, hp, hname⟩
    obtain ⟨q, hq, rfl⟩ := List.mem_map.1 hname
    exact ⟨_, p, hp, q, hq, rfl, rfl⟩

/-- **`compose_soc` keeps the function**, for blocks as the source expects them. -/
theorem composeSoc_composed {glue flat : Module} {blocks : Blocks}
    (h : composeSoc glue blocks = .ok flat) (hplain : Plain glue blocks.resolved) :
    Composed glue blocks flat := by
  obtain ⟨ρ, next, hρ⟩ := composeSoc_spliced h hplain
  refine ⟨hρ.equivalent hplain, hρ.ports, hρ.perm_keys hplain, ρ, fun p hp q hq => ?_,
    fun p hp n g hmeets => ?_, fun p hp n hn hnot hmem => ?_, hρ.inj⟩
  · exact (hρ.cells _ _).2 (.inr ⟨p, hp, q, hq, rfl, rfl⟩)
  · exact hplain.joined p hp n _ _ (hρ.joined p hp n ⟨g, hmeets⟩) hmeets
  · exact absurd (lt_nextNetId hmem) (not_lt.2 (hρ.fresh p hp n hn hnot).1)

/-! ### Two buffers in a row -/

/-- The bits of an instance with those they are connected to. -/
def meetings (glue : Module) (p : String × Module) : List (Bit × Bit) :=
  match glue.cells[p.1]? with
  | none => []
  | some inst => p.2.ports.toList.flatMap fun q => q.2.bits.zip ((inst.connections[q.1]?).getD [])

theorem meets_iff {bit gbit : Bit} :
    Meets glue p bit gbit ↔ (bit, gbit) ∈ meetings glue p := by
  unfold meetings
  cases hinst : glue.cells[p.1]? with
  | none => simp [Meets, hinst]
  | some inst =>
    simp only [Meets, hinst, Option.some.injEq, exists_eq_left', Carries, List.mem_flatMap]
    refine exists_congr fun q => and_congr_right fun _ => ?_
    rw [List.mem_iff_getElem?]
    exact exists_congr fun i => (List.getElem?_zip_eq_some (z := (bit, gbit))).symm

/-- A bit that is a net. -/
def isNet : Bit → Bool
  | .net _ => true
  | .lit _ => false

theorem isNet_iff {bit : Bit} : isNet bit = true ↔ ∃ n, bit = .net n := by
  cases bit <;> simp [isNet]

/-- `Plain` as a test. -/
theorem plain_of_meetings
    (hnets : ∀ p ∈ insts, ∀ x ∈ meetings glue p, isNet x.1 = true ∧ isNet x.2 = true)
    (hjoined : ∀ p ∈ insts, ∀ x ∈ meetings glue p, ∀ y ∈ meetings glue p, x.1 = y.1 → x.2 = y.2)
    (hnames : (insts.flatMap namesOf).Nodup)
    (hfree : ∀ name ∈ insts.flatMap namesOf, name ∉ glue.cells ∧ name ∉ insts.map Prod.fst) :
    Plain glue insts := by
  refine ⟨fun p hp bit gbit h => ?_, fun p hp n g g' h h' => ?_, hnames, hfree⟩
  · obtain ⟨hbit, hgbit⟩ := hnets p hp _ (meets_iff.1 h)
    obtain ⟨n, rfl⟩ := isNet_iff.1 hbit
    obtain ⟨g, rfl⟩ := isNet_iff.1 hgbit
    exact ⟨n, g, rfl, rfl⟩
  · exact Bit.net.inj (hjoined p hp _ (meets_iff.1 h) _ (meets_iff.1 h') rfl)

/-- A block of two buffers, with one net between them. -/
def bufferPair : Module where
  ports := TreeMap.ofList [("a", Port.mk "input" [.net 2]), ("y", Port.mk "output" [.net 3])]
  netnames := TreeMap.ofList [("a", [Bit.net 2]), ("mid", [.net 4]), ("y", [.net 3])]
  cells := TreeMap.ofList [("g1", Cell.ofPins "BUF" [("A", 2), ("Y", 4)]),
    ("g2", Cell.ofPins "BUF" [("A", 4), ("Y", 3)])]

/-- Two of them in a row. -/
def rowGlue : Module where
  ports := TreeMap.ofList [("x", Port.mk "input" [.net 2]), ("z", Port.mk "output" [.net 4])]
  cells := TreeMap.ofList [("u1", Cell.ofPins "pair" [("a", 2), ("y", 3)]),
    ("u2", Cell.ofPins "pair" [("a", 3), ("y", 4)])]

/-- The same module for some instances. -/
def sameBlock (insts : List String) (moduleName : String) (block : Module) (h : insts.Nodup) :
    Blocks where
  files := insts.map fun inst => (inst, TreeMap.ofList [(moduleName, block)])
  blockModule := TreeMap.ofList (insts.map fun inst => (inst, moduleName))
  distinct := by rwa [List.map_map, show Prod.fst ∘ _ = id from rfl, List.map_id]

def rowBlocks : Blocks := sameBlock ["u1", "u2"] "pair" bufferPair (by decide)

theorem plain_row : Plain rowGlue rowBlocks.resolved :=
  plain_of_meetings (by decide +kernel) (by decide +kernel) (by decide +kernel)
    (by decide +kernel)

theorem composeSoc_row_composed : ∃ flat, composeSoc rowGlue rowBlocks = .ok flat ∧
    Composed rowGlue rowBlocks flat :=
  ⟨_, Lib.eq_ok_resultOf (composeSoc rowGlue rowBlocks) (by decide +kernel),
    composeSoc_composed (Lib.eq_ok_resultOf _ (by decide +kernel)) plain_row⟩

/-! ### Blocks that are not in place -/

/-- Buffers over the bits. -/
def bufferMeaning : Meaning Bool where
  literal text := text == "1"
  allows type pins := type = "BUF" → pins.lookup "A" = pins.lookup "Y"

instance {v : YosysNetID → Bool} {m : Module} : Decidable (m.Holds bufferMeaning v) :=
  inferInstanceAs (Decidable (∀ p ∈ m.cells.toList, p.2.type = "BUF" → _ = _))

/-- A buffer. -/
def buffer (name : String) : Module where
  ports := TreeMap.ofList [("a", Port.mk "input" [.net 2]), ("y", Port.mk "output" [.net 3])]
  cells := TreeMap.ofList [(name, Cell.ofPins "BUF" [("A", 2), ("Y", 3)])]

/-- A block with its input on its output. -/
def feedThrough : Module where
  ports := TreeMap.ofList [("a", Port.mk "input" [.net 2]), ("y", Port.mk "output" [.net 2])]

/-- A block with a constant on its output. -/
def tiedOutput : Module where
  ports := TreeMap.ofList [("a", Port.mk "input" [.net 2]), ("y", Port.mk "output" [.lit "1"])]

/-- An instance `u` between two nets. -/
def oneGlue (a : Bit) : Module where
  ports := TreeMap.ofList [("x", Port.mk "input" [.net 2]), ("z", Port.mk "output" [.net 3])]
  cells := TreeMap.ofList [("u", Cell.mk "blk" ∅ ∅ (TreeMap.ofList [("a", [a]), ("y", [.net 3])]))]

def oneBlock (block : Module) : Blocks := sameBlock ["u"] "blk" block (by decide)

/-- What shows that a composition is not equivalent. -/
theorem not_equivalent_of {glue flat : Module} {v : YosysNetID → Bool}
    (hflat : flat.Holds bufferMeaning v) (hnot : ∀ b, ¬ Instantiated bufferMeaning glue insts v b) :
    ¬ Equivalent glue insts flat := by
  intro h
  obtain ⟨b, hb⟩ := (h Bool bufferMeaning v).1 ⟨v, fun _ _ => rfl, hflat⟩
  exact hnot b hb

theorem holds_buffer {v : YosysNetID → Bool} :
    (Cell.ofPins "BUF" [("A", 2), ("Y", 3)]).Holds bufferMeaning v ↔ v 2 = v 3 := by
  have hpins : (Cell.ofPins "BUF" [("A", 2), ("Y", 3)]).connections.toList =
      [("A", [Bit.net 2]), ("Y", [Bit.net 3])] := by decide +kernel
  have htype : (Cell.ofPins "BUF" [("A", 2), ("Y", 3)]).type = "BUF" := rfl
  rw [Cell.Holds, hpins, htype]
  simp [bufferMeaning, Bit.value, List.lookup_cons]

/-- Two instances, one with the start of its cell's name in its own. -/
def clashGlue : Module where
  ports := TreeMap.ofList [("x", Port.mk "input" [.net 2]), ("z", Port.mk "output" [.net 3])]
  cells := TreeMap.ofList [("a", Cell.ofPins "blk" [("a", 2), ("y", 3)]),
    ("a__b", Cell.ofPins "blk" [("a", 4), ("y", 5)])]

def clashBlocks : Blocks where
  files := [("a", TreeMap.ofList [("blk", buffer "b__c")]),
    ("a__b", TreeMap.ofList [("blk", buffer "c")])]
  blockModule := TreeMap.ofList [("a", "blk"), ("a__b", "blk")]
  distinct := by decide

/-- **Compositions that change the function**: a constant on an input is lost, the two nets of
a net that two ports share are not joined, a constant on an output is lost, and of two cells
with one name only one is left. -/
theorem composeSoc_not_equivalent :
    (∃ flat, composeSoc (oneGlue (.lit "1")) (oneBlock (buffer "g")) = .ok flat ∧
      ¬ Equivalent (oneGlue (.lit "1")) (oneBlock (buffer "g")).resolved flat) ∧
    (∃ flat, composeSoc (oneGlue (.net 2)) (oneBlock feedThrough) = .ok flat ∧
      ¬ Equivalent (oneGlue (.net 2)) (oneBlock feedThrough).resolved flat) ∧
    (∃ flat, composeSoc (oneGlue (.net 2)) (oneBlock tiedOutput) = .ok flat ∧
      ¬ Equivalent (oneGlue (.net 2)) (oneBlock tiedOutput).resolved flat) ∧
    (∃ flat, composeSoc clashGlue clashBlocks = .ok flat ∧
      ¬ Equivalent clashGlue clashBlocks.resolved flat) := by
  refine ⟨⟨_, Lib.eq_ok_resultOf _ (by decide +kernel), ?_⟩,
    ⟨_, Lib.eq_ok_resultOf _ (by decide +kernel), ?_⟩,
    ⟨_, Lib.eq_ok_resultOf _ (by decide +kernel), ?_⟩,
    ⟨_, Lib.eq_ok_resultOf _ (by decide +kernel), ?_⟩⟩
  · refine not_equivalent_of (v := fun _ => false) (by decide +kernel) fun b hb => ?_
    have hmem : ("u", buffer "g") ∈ (oneBlock (buffer "g")).resolved := List.mem_singleton.2 rfl
    have ha : b "u" 2 = true :=
      hb.port _ hmem (.net 2) (.lit "1") (meets_iff.2 (by decide +kernel))
    have hy : b "u" 3 = false :=
      hb.port _ hmem (.net 3) (.net 3) (meets_iff.2 (by decide +kernel))
    have hcell : b "u" 2 = b "u" 3 :=
      holds_buffer.1 (hb.inside _ hmem ("g", _) (List.mem_singleton.2 rfl))
    rw [ha, hy] at hcell
    cases hcell
  · refine not_equivalent_of (v := fun n => n == 2) (by decide +kernel) fun b hb => ?_
    have hmem : ("u", feedThrough) ∈ (oneBlock feedThrough).resolved := List.mem_singleton.2 rfl
    have ha : b "u" 2 = true :=
      hb.port _ hmem (.net 2) (.net 2) (meets_iff.2 (by decide +kernel))
    have hy : b "u" 2 = false :=
      hb.port _ hmem (.net 2) (.net 3) (meets_iff.2 (by decide +kernel))
    rw [ha] at hy
    cases hy
  · refine not_equivalent_of (v := fun _ => false) (by decide +kernel) fun b hb => ?_
    have hy : true = false := hb.port ("u", tiedOutput) (List.mem_singleton.2 rfl)
      (.lit "1") (.net 3) (meets_iff.2 (by decide +kernel))
    cases hy
  · refine not_equivalent_of (v := fun n => n == 2) (by decide +kernel) fun b hb => ?_
    have hmem : ("a", buffer "b__c") ∈ clashBlocks.resolved := List.mem_cons_self
    have ha : b "a" 2 = true :=
      hb.port _ hmem (.net 2) (.net 2) (meets_iff.2 (by decide +kernel))
    have hy : b "a" 3 = false :=
      hb.port _ hmem (.net 3) (.net 3) (meets_iff.2 (by decide +kernel))
    have hcell : b "a" 2 = b "a" 3 :=
      holds_buffer.1 (hb.inside _ hmem ("b__c", _) (List.mem_singleton.2 rfl))
    rw [ha, hy] at hcell
    cases hcell

end Project

end FaultFlow
