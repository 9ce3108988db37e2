/-
# What is left of the wrapper in a fused view

`fuse_wbr_into_view` removes the wrapper cells that `extract_wbr_cells` returns.  That function
skips a cell with a constant on its core pin.  In INTEST a second pass removes the output cells
among them; an input cell with a constant `TO_CORE` stays, and in EXTEST both kinds stay.  So the
view is free of wrapper cells if no cell is skipped and not removed afterwards
(`fuseWbrIntoView_wrapperFree`), and a pin without a net is an error.
-/

import FaultFlow.Lib.Maps
import FaultFlow.Scan.WbrView

namespace FaultFlow

open Std (TreeMap)

namespace Scan

/-- `fuse_wbr_into_view`. -/
def fuseWbrIntoView (view : Module) :
    TestMode → Except ScanError (Module × TreeMap String WbrPort)
  | .EXTEST => fuseExtest view
  | .INTEST => fuseIntest view
  | .FUNCTIONAL => .ok (view, ∅)

/-- A wrapper cell of a module. -/
def Module.WrapperAt (m : Module) (inst : String) (cell : Cell) : Prop :=
  m.cells[inst]? = some cell ∧ (wbrSide cell.type).isSome

/-- No cell is a wrapper cell. -/
def Module.WrapperFree (m : Module) : Prop := ∀ inst cell, ¬ m.WrapperAt inst cell

/-- A wrapper cell with a constant on its core pin. -/
def Cell.tied (cell : Cell) : Bool :=
  match wbrSide cell.type with
  | some side => isConstantBit cell side.corePin
  | none => false

/-- A cell that is skipped and not removed afterwards. -/
def Cell.stays (mode : TestMode) (cell : Cell) : Bool :=
  cell.tied && (mode = .EXTEST || wbrSide cell.type = some .input)

/-- No cell of a view stays. -/
def Module.NoneStays (view : Module) (mode : TestMode) : Prop :=
  ∀ (inst : String) (cell : Cell), view.cells[inst]? = some cell → cell.stays mode = false

/-- The names of the cells that take the place of a wrapper cell. -/
def WbrRecord.insertedNames (mode : TestMode) (rec : WbrRecord) : List String :=
  match mode, rec.side with
  | .INTEST, .output => ["$wbobserve_" ++ rec.instanceName]
  | .EXTEST, .input => ["$wbiobserve_" ++ rec.instanceName, "$wbsafe0_" ++ rec.instanceName]
  | _, _ => []

/-- The names of the inserted cells are new. -/
def Module.NamesNew (view : Module) (mode : TestMode) : Prop :=
  ∀ records, extractWbrCells view = .ok records → ∀ rec ∈ records,
    ∀ name ∈ rec.insertedNames mode, name ∉ view.cells

/-! ## One cell -/

section Cells

variable {m : Module} {inst name : String} {cell : Cell}

theorem wrapperAt_erase :
    ({ m with cells := m.cells.erase name } : Module).WrapperAt inst cell ↔
      m.WrapperAt inst cell ∧ inst ≠ name := by
  unfold Module.WrapperAt
  dsimp only
  rw [TreeMap.getElem?_erase]
  by_cases h : name = inst
  · simp [h]
  · have h' : ¬ inst = name := fun heq => h heq.symm
    simp [h, h']

/-- What is inserted is no wrapper cell. -/
theorem wrapperAt_insert {new : Cell} (hnew : wbrSide new.type = none) :
    ({ m with cells := m.cells.insert name new } : Module).WrapperAt inst cell ↔
      m.WrapperAt inst cell ∧ inst ≠ name := by
  unfold Module.WrapperAt
  dsimp only
  rw [TreeMap.getElem?_insert]
  by_cases h : name = inst
  · subst h
    simp only [Std.compare_self, if_true, Option.some_inj, ne_eq, not_true_eq_false, and_false,
      iff_false, not_and]
    rintro rfl
    simp [hnew]
  · have h' : ¬ inst = name := fun heq => h heq.symm
    simp [h, h']

theorem wrapperAt_eraseMany {names : List String} :
    ({ m with cells := m.cells.eraseMany names } : Module).WrapperAt inst cell ↔
      m.WrapperAt inst cell ∧ inst ∉ names := by
  unfold Module.WrapperAt
  dsimp only
  rw [Lib.getElem?_eraseMany]
  by_cases h : inst ∈ names <;> simp [h]

theorem wbrSide_observeBuf (a : Bit) (y : YosysNetID) :
    wbrSide (buf1Cell observeBufCell a y).type = none := by
  show wbrSide observeBufCell = none
  decide

end Cells

/-! ## The run over the records -/

section Fold

variable {mode : TestMode} {st : Fusion} {rec : WbrRecord} {inst : String} {cell : Cell}

/-- One cell in a mode. -/
def fuseCell (mode : TestMode) (st : Fusion) (rec : WbrRecord) : Fusion :=
  match mode with
  | .EXTEST => fuseExtestCell st rec
  | _ => fuseIntestCell st rec

theorem wrapperAt_replace {port role direction : String} {net : YosysNetID} :
    (st.replace rec port role direction net).view.WrapperAt inst cell ↔
      st.view.WrapperAt inst cell ∧ inst ≠ rec.instanceName :=
  wrapperAt_erase

theorem wrapperAt_observe {buffer : String} {net : YosysNetID} :
    (st.observe buffer net).view.WrapperAt inst cell ↔
      st.view.WrapperAt inst cell ∧ inst ≠ buffer :=
  wrapperAt_insert (wbrSide_observeBuf _ _)

/-- **One cell leaves**, and what takes its place is no wrapper cell. -/
theorem wrapperAt_fuseCell (hmode : mode ≠ .FUNCTIONAL) :
    (fuseCell mode st rec).view.WrapperAt inst cell ↔
      st.view.WrapperAt inst cell ∧ inst ≠ rec.instanceName ∧ inst ∉ rec.insertedNames mode := by
  cases mode with
  | FUNCTIONAL => exact absurd rfl hmode
  | INTEST =>
    show (fuseIntestCell st rec).view.WrapperAt inst cell ↔ _
    unfold fuseIntestCell WbrRecord.insertedNames
    cases rec.side with
    | input => simp [wrapperAt_replace]
    | output =>
      dsimp only
      rw [wrapperAt_replace, wrapperAt_observe, List.mem_singleton, and_assoc, and_comm (a := _ ≠ _)]
  | EXTEST =>
    show (fuseExtestCell st rec).view.WrapperAt inst cell ↔ _
    unfold fuseExtestCell WbrRecord.insertedNames
    cases rec.side with
    | input =>
      have hsafe : ∀ (m : Module) (name : String) (net : YosysNetID),
          (m.addConst0Driver name net).WrapperAt inst cell ↔ m.WrapperAt inst cell ∧ inst ≠ name :=
        fun m name net => wrapperAt_insert (wbrSide_observeBuf _ _)
      dsimp only
      rw [hsafe, wrapperAt_replace, wrapperAt_observe]
      simp only [List.mem_cons, List.not_mem_nil, or_false, not_or, ne_eq]
      tauto
    | output => simp [wrapperAt_replace]

/-- **The cells of all records leave.** -/
theorem wrapperAt_foldl (hmode : mode ≠ .FUNCTIONAL) (records : List WbrRecord) :
    (records.foldl (fuseCell mode) st).view.WrapperAt inst cell ↔
      st.view.WrapperAt inst cell ∧
        ∀ rec ∈ records, inst ≠ rec.instanceName ∧ inst ∉ rec.insertedNames mode := by
  induction records generalizing st with
  | nil => simp
  | cons rec records ih =>
    rw [List.foldl_cons, ih, wrapperAt_fuseCell hmode, List.forall_mem_cons]
    exact and_assoc

end Fold

/-! ## The records -/

section Records

variable {m : Module} {records : List WbrRecord} {inst : String} {cell : Cell}

/-- A record stands for the cell of its name. -/
theorem wbrRecord_eq_some {rec : WbrRecord} (h : wbrRecord inst cell = .ok (some rec)) :
    rec.instanceName = inst ∧ cell.tied = false := by
  unfold wbrRecord at h
  cases hside : wbrSide cell.type with
  | none =>
    rw [hside] at h
    cases h
  | some side =>
    rw [hside] at h
    dsimp only at h
    split at h
    · cases h
    obtain ⟨core, -, h⟩ := Lib.bind_eq_ok.1 h
    obtain ⟨sys, -, h⟩ := Lib.bind_eq_ok.1 h
    cases h
    refine ⟨rfl, ?_⟩
    unfold Cell.tied
    rw [hside]
    exact Bool.eq_false_iff.2 ‹_›

/-- A wrapper cell without a record is tied. -/
theorem wbrRecord_eq_none (h : wbrRecord inst cell = .ok none) (hside : (wbrSide cell.type).isSome) :
    cell.tied = true := by
  obtain ⟨side, hside⟩ := Option.isSome_iff_exists.1 hside
  unfold wbrRecord at h
  unfold Cell.tied
  rw [hside] at h ⊢
  dsimp only at h ⊢
  split at h
  · assumption
  obtain ⟨core, -, h⟩ := Lib.bind_eq_ok.1 h
  obtain ⟨sys, -, h⟩ := Lib.bind_eq_ok.1 h
  cases h

/-- **The wrapper cells without a record are the tied ones.** -/
theorem forall_ne_instanceName_iff (h : extractWbrCells m = .ok records)
    (hcell : m.WrapperAt inst cell) :
    (∀ rec ∈ records, inst ≠ rec.instanceName) ↔ cell.tied = true := by
  obtain ⟨found, hfound, hret⟩ := Lib.bind_eq_ok.1 h
  cases hret
  have hmem : (inst, cell) ∈ m.cells.toList :=
    TreeMap.mem_toList_iff_getElem?_eq_some.2 hcell.1
  constructor
  · intro hne
    obtain ⟨k, hk⟩ := List.getElem?_of_mem hmem
    obtain ⟨res, hres, hget⟩ := Lib.getElem?_of_mapM_eq_ok hfound hk
    cases res with
    | none => exact wbrRecord_eq_none hres hcell.2
    | some rec =>
      have hrec : rec ∈ found.filterMap id :=
        List.mem_filterMap.2 ⟨some rec, List.mem_of_getElem? hget, rfl⟩
      exact absurd (wbrRecord_eq_some hres).1.symm (hne rec hrec)
  · rintro htied rec hrec rfl
    obtain ⟨res, hres, rfl⟩ := List.mem_filterMap.1 hrec
    obtain ⟨p, hp, hrec⟩ := (Lib.mem_of_mapM_eq_ok hfound).1 hres
    obtain ⟨hname, huntied⟩ := wbrRecord_eq_some hrec
    have hp := TreeMap.mem_toList_iff_getElem?_eq_some.1 hp
    rw [← hname, hcell.1, Option.some_inj] at hp
    rw [← hp, htied] at huntied
    cases huntied

end Records

/-! ## The fused view -/

section Fused

variable {view fused : Module} {ports : TreeMap String WbrPort} {inst : String} {cell : Cell}

theorem wrapperAt_dropTopPortsByBit {m : Module} {nets : List YosysNetID} :
    (m.dropTopPortsByBit nets).WrapperAt inst cell ↔ m.WrapperAt inst cell := Iff.rfl

theorem mem_constantOutCells {m : Module} (h : m.WrapperAt inst cell) :
    inst ∈ (constantOutCells m).map Prod.fst ↔ wbrSide cell.type = some .output ∧ cell.tied := by
  have htied : wbrSide cell.type = some .output →
      cell.tied = isConstantBit cell WbrSide.output.corePin := fun hside => by
    unfold Cell.tied
    rw [hside]
  unfold constantOutCells
  constructor
  · intro hmem
    obtain ⟨⟨name, cell'⟩, hp, rfl⟩ := List.mem_map.1 hmem
    obtain ⟨hp, hout⟩ := List.mem_filter.1 hp
    have hget := TreeMap.mem_toList_iff_getElem?_eq_some.1 hp
    rw [h.1, Option.some_inj] at hget
    subst hget
    simp only [Bool.and_eq_true, decide_eq_true_eq] at hout
    exact ⟨hout.1, (htied hout.1).trans hout.2⟩
  · rintro ⟨hside, htie⟩
    refine List.mem_map.2 ⟨(inst, cell), List.mem_filter.2
      ⟨TreeMap.mem_toList_iff_getElem?_eq_some.2 h.1, ?_⟩, rfl⟩
    simp only [Bool.and_eq_true, decide_eq_true_eq]
    exact ⟨hside, (htied hside).symm.trans htie⟩

variable {records : List WbrRecord}

/-- The wrapper cells after the run over the records. -/
theorem wrapperAt_records {mode : TestMode} (hmode : mode ≠ .FUNCTIONAL)
    (hrecords : extractWbrCells view = .ok records) :
    (records.foldl (fuseCell mode) { view := view, nextId := nextNetId view }).view.WrapperAt
        inst cell ↔
      view.WrapperAt inst cell ∧ cell.tied ∧ ∀ rec ∈ records, inst ∉ rec.insertedNames mode := by
  rw [wrapperAt_foldl hmode, forall₂_and]
  refine and_congr_right fun hcell => ?_
  rw [forall_ne_instanceName_iff hrecords hcell]

/-- What INTEST leaves. -/
theorem wrapperAt_fuseIntest (h : fuseIntest view = .ok (fused, ports))
    (hrecords : extractWbrCells view = .ok records) :
    fused.WrapperAt inst cell ↔ view.WrapperAt inst cell ∧ cell.stays .INTEST ∧
      ∀ rec ∈ records, inst ∉ rec.insertedNames .INTEST := by
  obtain ⟨records', hrecords', hret⟩ := Lib.bind_eq_ok.1 h
  cases hrecords.symm.trans hrecords'
  cases hret
  rw [wrapperAt_dropTopPortsByBit, wrapperAt_eraseMany, show fuseIntestCell = fuseCell .INTEST from rfl]
  -- the second pass removes the tied output cells
  have hside : view.WrapperAt inst cell →
      (¬ wbrSide cell.type = some .output ↔ wbrSide cell.type = some .input) := by
    rintro ⟨-, hsome⟩
    obtain ⟨side, hside⟩ := Option.isSome_iff_exists.1 hsome
    rw [hside]
    cases side <;> simp
  constructor
  · rintro ⟨hcell, hskip⟩
    obtain ⟨hview, htied, hnames⟩ := (wrapperAt_records (by decide) hrecords).1 hcell
    rw [mem_constantOutCells hcell, not_and] at hskip
    have hin := (hside hview).1 fun hout => hskip hout htied
    exact ⟨hview, by simp [Cell.stays, htied, hin], hnames⟩
  · rintro ⟨hview, hstays, hnames⟩
    simp only [Cell.stays, Bool.and_eq_true, Bool.or_eq_true, decide_eq_true_eq] at hstays
    obtain ⟨htied, hin⟩ := hstays
    have hin := hin.resolve_left (by decide)
    have hcell := (wrapperAt_records (by decide) hrecords).2 ⟨hview, htied, hnames⟩
    refine ⟨hcell, fun hskip => ?_⟩
    rw [mem_constantOutCells hcell, hin] at hskip
    cases hskip.1

/-- What EXTEST leaves, if no wrapper cell has a pin `Y`. -/
theorem wrapperAt_fuseExtest (h : fuseExtest view = .ok (fused, ports))
    (hrecords : extractWbrCells view = .ok records) :
    (fused.WrapperAt inst cell → view.WrapperAt inst cell ∧ cell.stays .EXTEST) ∧
    (view.WrapperAt inst cell → cell.stays .EXTEST → cell.pin "Y" = none →
      (∀ rec ∈ records, inst ∉ rec.insertedNames .EXTEST) → fused.WrapperAt inst cell) := by
  obtain ⟨records', hrecords', hret⟩ := Lib.bind_eq_ok.1 h
  cases hrecords.symm.trans hrecords'
  cases hret
  have hdrop : ∀ m : Module, m.dropPpoPortsAndObservers.WrapperAt inst cell ↔ _ :=
    fun m => wrapperAt_eraseMany (m := m)
  rw [wrapperAt_dropTopPortsByBit, hdrop, show fuseExtestCell = fuseCell .EXTEST from rfl]
  constructor
  · rintro ⟨hcell, -⟩
    obtain ⟨hview, htied, -⟩ := (wrapperAt_records (by decide) hrecords).1 hcell
    exact ⟨hview, by simp [Cell.stays, htied]⟩
  · intro hview hstays hy hnames
    simp only [Cell.stays, Bool.and_eq_true] at hstays
    have hcell := (wrapperAt_records (by decide) hrecords).2 ⟨hview, hstays.1, hnames⟩
    refine ⟨hcell, fun hmem => ?_⟩
    obtain ⟨⟨name, cell'⟩, hp, rfl⟩ := List.mem_map.1 hmem
    obtain ⟨hp, hobserves⟩ := List.mem_filter.1 hp
    have hget := TreeMap.mem_toList_iff_getElem?_eq_some.1 hp
    rw [hcell.1, Option.some_inj] at hget
    subst hget
    simp [hy, intBits] at hobserves

end Fused

/-- **The fused view has no wrapper cell** if every wrapper cell with a constant on its core pin
is an output cell and the mode is INTEST.  That is necessary too, where the inserted cells take no
wrapper cell's name and no wrapper cell has a pin `Y`. -/
theorem fuseWbrIntoView_wrapperFree {view fused : Module} {ports : TreeMap String WbrPort}
    {mode : TestMode} (hmode : mode ≠ .FUNCTIONAL)
    (h : fuseWbrIntoView view mode = .ok (fused, ports)) :
    (view.NoneStays mode → fused.WrapperFree) ∧
    (view.NamesNew mode → (∀ inst cell, view.WrapperAt inst cell → cell.pin "Y" = none) →
      fused.WrapperFree → view.NoneStays mode) := by
  obtain ⟨records, hrecords⟩ : ∃ records, extractWbrCells view = .ok records := by
    cases mode with
    | FUNCTIONAL => exact absurd rfl hmode
    | INTEST | EXTEST =>
      obtain ⟨records, hrecords, -⟩ := Lib.bind_eq_ok.1 h
      exact ⟨records, hrecords⟩
  have hleft : ∀ inst cell, fused.WrapperAt inst cell →
      view.WrapperAt inst cell ∧ cell.stays mode = true := by
    intro inst cell hcell
    cases mode with
    | FUNCTIONAL => exact absurd rfl hmode
    | INTEST =>
      obtain ⟨hview, hstays, -⟩ := (wrapperAt_fuseIntest h hrecords).1 hcell
      exact ⟨hview, hstays⟩
    | EXTEST => exact (wrapperAt_fuseExtest h hrecords).1 hcell
  refine ⟨fun huntied inst cell hcell => ?_, fun hnew hy hfree inst cell hcell => ?_⟩
  · obtain ⟨hview, hstays⟩ := hleft inst cell hcell
    rw [huntied inst cell hview.1] at hstays
    cases hstays
  · rw [Bool.eq_false_iff]
    intro hstays
    have hview : view.WrapperAt inst cell := by
      refine ⟨hcell, ?_⟩
      unfold Cell.stays Cell.tied at hstays
      cases hside : wbrSide cell.type with
      | none => simp [hside] at hstays
      | some side => rfl
    have hnames : ∀ rec ∈ records, inst ∉ rec.insertedNames mode := fun rec hrec hmem =>
      hnew records hrecords rec hrec inst hmem (by
        rw [TreeMap.mem_iff_isSome_getElem?, hcell]
        rfl)
    cases mode with
    | FUNCTIONAL => exact absurd rfl hmode
    | INTEST => exact hfree inst cell ((wrapperAt_fuseIntest h hrecords).2 ⟨hview, hstays, hnames⟩)
    | EXTEST =>
      exact hfree inst cell ((wrapperAt_fuseExtest h hrecords).2 hview hstays (hy inst cell hview) hnames)

/-- A wrapped buffer, with the bits on its input's and its output's core pins. -/
def wrappedView (toCore fromCore : Bit) : Module where
  ports := TreeMap.ofList [("a", Port.mk "input" [.net 2]), ("y", .mk "output" [.net 5])]
  cells := TreeMap.ofList
    [("b", buf1Cell observeBufCell (.net 3) 4),
      ("v", { type := "$wbc_out_faultflow"
              connections := TreeMap.ofList [("FROM_CORE", [fromCore]), ("TO_SYS", [.net 5])] }),
      ("w", { type := "$wbc_in_faultflow"
              connections := TreeMap.ofList [("FROM_SYS", [.net 2]), ("TO_CORE", [toCore])] })]

/-- The wrapper cells that are left. -/
def wrappersLeft (toCore fromCore : Bit) (mode : TestMode) : Option (List String) :=
  (fuseWbrIntoView (wrappedView toCore fromCore) mode).toOption.map fun p =>
    (p.1.cells.toList.filter fun q => (wbrSide q.2.type).isSome).map Prod.fst

def wrappedFused : Module × TreeMap String WbrPort :=
  Lib.resultOf (fuseWbrIntoView (wrappedView (.net 3) (.net 4)) .EXTEST) (by decide +kernel)

theorem wrappedView_wrapperFree : wrappedFused.1.WrapperFree := by
  have hcells : ∀ p ∈ (wrappedView (.net 3) (.net 4)).cells.toList, p.2.stays .EXTEST = false := by
    decide +kernel
  have hmode : TestMode.EXTEST ≠ .FUNCTIONAL := by decide
  have hfused : fuseWbrIntoView (wrappedView (.net 3) (.net 4)) .EXTEST =
      .ok (wrappedFused.1, wrappedFused.2) := Lib.eq_ok_resultOf _ (by decide +kernel)
  refine (fuseWbrIntoView_wrapperFree hmode hfused).1 ?_
  exact fun inst cell hcell =>
    hcells (inst, cell) (TreeMap.mem_toList_iff_getElem?_eq_some.2 hcell)

/-- **A tied cell stays**: the output cell in EXTEST, the input cell in both modes. -/
theorem wrappersLeft_tied :
    wrappersLeft (.net 3) (.lit "0") .EXTEST = some ["v"] ∧
    wrappersLeft (.lit "0") (.net 4) .EXTEST = some ["w"] ∧
    wrappersLeft (.lit "0") (.net 4) .INTEST = some ["w"] ∧
    wrappersLeft (.net 3) (.lit "0") .INTEST = some [] := by
  decide +kernel

end Scan

end FaultFlow
