/-
# What the clauses of the solvers say

The parts that the solvers share, each with its meaning under an assignment `a`:
the blocked patterns, the gates of the two machines, the difference variables.
The good value of net `i` is `a (freeVar i)`, the faulty one `a (faultyVar i)`.

The other way, `dual v w` is the assignment of given net values, and `extend` adds
values for the variables allocated later.
-/

import FaultFlow.Atpg.FaultSolver

namespace FaultFlow.Atpg

open Lib
open Std.Sat (Literal)

/-! ## Blocked patterns -/

/-- The key of an assignment of the inputs. -/
def keyOf (bits : List Bool) : List Char := bits.map fun b => if b then '1' else '0'

/-- Keys of `0` and `1`, one character per literal. -/
def KeysOk (n : ℕ) (blocked : List (List Char)) : Prop :=
  ∀ p ∈ blocked, p.length = n ∧ ∀ c ∈ p, c = '0' ∨ c = '1'

instance (n : ℕ) (blocked : List (List Char)) : Decidable (KeysOk n blocked) :=
  have (p : List Char) : Decidable (∀ c ∈ p, c = '0' ∨ c = '1') := List.decidableBAll _ p
  inferInstanceAs (Decidable (∀ p ∈ blocked, p.length = n ∧ ∀ c ∈ p, c = '0' ∨ c = '1'))

variable {p : List Char}

/-- A key of zeros and ones is that of its bits. -/
theorem keyOf_map_eq_one (h : ∀ c ∈ p, c = '0' ∨ c = '1') :
    keyOf (p.map fun c => c == '1') = p := by
  rw [keyOf, List.map_map]
  refine (List.map_congr_left fun c hc => ?_).trans (List.map_id p)
  rcases h c hc with rfl | rfl <;> rfl

/-- The bits of a key are those it was made of. -/
theorem map_eq_one_keyOf (bits : List Bool) : (keyOf bits).map (fun c => c == '1') = bits := by
  rw [keyOf, List.map_map]
  refine (List.map_congr_left fun b _ => ?_).trans (List.map_id bits)
  cases b <;> rfl

/-- The clause of a blocked pattern. -/
def blockClause (lits : List (Literal ℕ)) (p : List Char) : Std.Sat.CNF.Clause ℕ :=
  List.zipWith (fun (value : Bool) l => if value then l.negate else l) (p.map fun c => c == '1') lits

variable {lits : List (Literal ℕ)}

/-- A well-formed pattern adds its clause. -/
theorem blockPattern_eq_ok (what : String) (hlen : p.length = lits.length)
    (hchars : ∀ c ∈ p, c = '0' ∨ c = '1') (cnf : Cnf) :
    blockPattern what lits cnf p = .ok (cnf ++ [blockClause lits p]) := by
  have hall : (p.all fun c => c == '0' || c == '1') = true := by
    rw [List.all_eq_true]
    intro c hc
    rcases hchars c hc with rfl | rfl <;> rfl
  rw [blockPattern, if_neg (not_not.2 hlen), assignmentFromPattern, if_pos hall]
  show (do let clause ← addBlockingClause lits _; return cnf ++ clause) = _
  rw [addBlockingClause, if_neg (by simp [hlen])]
  rfl

variable {a : ℕ → Bool}

/-- **The clause of a pattern excludes just the inputs of that pattern.** -/
theorem eval_blockClause (hlen : p.length = lits.length) (hchars : ∀ c ∈ p, c = '0' ∨ c = '1') :
    (blockClause lits p).eval a = true ↔ keyOf (lits.map (litValue a)) ≠ p := by
  rw [eval_clause_iff, blockClause, exists_zipWith_iff (by simpa using hlen)]
  refine not_congr ⟨fun h => ?_, fun h => ?_⟩
  · rw [h, keyOf_map_eq_one hchars]
  · rw [← h, map_eq_one_keyOf]

/-- **The blocked patterns exclude their keys.** -/
theorem exists_blockPatterns (what : String) {blocked : List (List Char)}
    (hok : KeysOk lits.length blocked) (cnf : Cnf) :
    ∃ clauses, blocked.foldlM (blockPattern what lits) cnf = .ok (cnf ++ clauses) ∧
      ∀ a, Satisfies a clauses ↔ keyOf (lits.map (litValue a)) ∉ blocked := by
  refine ⟨blocked.flatMap fun p => [blockClause lits p],
    foldlM_append_ok (fun p hp acc => blockPattern_eq_ok what (hok p hp).1 (hok p hp).2 acc) cnf,
    fun a => ?_⟩
  rw [satisfies_flatMap]
  constructor
  · intro h hmem
    have := h _ hmem
    rw [satisfies_cons, eval_blockClause (hok _ hmem).1 (hok _ hmem).2] at this
    exact this.1 rfl
  · intro h p hp
    rw [satisfies_cons, eval_blockClause (hok p hp).1 (hok p hp).2]
    exact ⟨fun heq => h (heq ▸ hp), satisfies_nil a⟩

/-! ## Gates -/

/-- A node has at most six inputs. -/
theorem length_inputNets_le (n : SimNode) : n.inputNets.length ≤ 6 :=
  List.length_filterMap_le _ _

/-- The clauses of one gate, where a mask asks for them. -/
def gateClausesWhere (mask : Bool) (type : GateType) (inputs : List (Literal ℕ))
    (output : Literal ℕ) : Cnf :=
  if mask then gateClauses type inputs output else []

/-- A combinational gate is always encoded. -/
theorem addGateWhere_eq_ok {type : GateType} (htype : type ≠ .DFF) {nets : List CompiledNetIndex}
    (hlen : nets.length ≤ 6) (mask : Bool) (lit : CompiledNetIndex → Literal ℕ)
    (output : Literal ℕ) (cnf : Cnf) :
    addGateWhere mask type (nets.map lit) output cnf =
      .ok (cnf ++ gateClausesWhere mask type (nets.map lit) output) := by
  unfold addGateWhere gateClausesWhere
  split
  · rw [addGateCnf_eq_ok output (by simpa using hlen) htype]
    rfl
  · simp [pure, Except.pure]

/-- The clauses of a gate are its equation, where the mask has it. -/
theorem satisfies_gateClausesWhere {mask : Bool} {type : GateType} {inputs : List (Literal ℕ)}
    {output : Literal ℕ} :
    Satisfies a (gateClausesWhere mask type inputs output) ↔
      (mask = true → litValue a output = evalGateScalar type (inputs.map (litValue a))) := by
  unfold gateClausesWhere
  cases mask with
  | true => simp [satisfies_gateClauses]
  | false => simp

/-- The faulty value of a net as the clauses read it. -/
def faultyInput (inOutcone : CompiledNetIndex → Bool) (a : ℕ → Bool) (i : CompiledNetIndex) : Bool :=
  if inOutcone i then a (faultyVar i) else a (freeVar i)

@[simp]
theorem litValue_freeLit (a : ℕ → Bool) (i : CompiledNetIndex) :
    litValue a (freeLit i) = a (freeVar i) := litValue_pos a _

@[simp]
theorem litValue_faultyLit (a : ℕ → Bool) (i : CompiledNetIndex) :
    litValue a (faultyLit i) = a (faultyVar i) := litValue_pos a _

theorem litValue_faultyInputLit (m : CompiledNetIndex → Bool) (a : ℕ → Bool) (i : CompiledNetIndex) :
    litValue a (faultyInputLit m i) = faultyInput m a i := by
  unfold faultyInputLit faultyInput
  split <;> simp

/-- The unit clause of the fault sets the faulty value of its net. -/
theorem litValue_faultLit (a : ℕ → Bool) (f : CompactFault) :
    litValue a (faultLit f) = true ↔ a (faultyVar f.netIndex) = f.value := by
  unfold faultLit CompactFault.value
  cases f.type with
  | SA0 => simp
  | SA1 => simp [show (FaultType.SA1 != FaultType.SA0) = true from rfl]

/-- The equations of one gate: that of the good machine where a mask asks for it,
that of the faulty machine in the output cone. -/
def NodeHolds (inOutcone : CompiledNetIndex → Bool) (faultNet : CompiledNetIndex) (good : Bool)
    (a : ℕ → Bool) (n : SimNode) : Prop :=
  (good = true →
    a (freeVar n.out) = evalGateScalar n.type (n.inputNets.map fun i => a (freeVar i))) ∧
  (inOutcone n.out = true → n.out ≠ faultNet →
    a (faultyVar n.out) = evalGateScalar n.type (n.inputNets.map (faultyInput inOutcone a)))

variable {n : SimNode}

/-- What the clauses of one gate say. -/
theorem satisfies_nodeClauses {m : CompiledNetIndex → Bool} {f : CompiledNetIndex} {good : Bool} :
    Satisfies a (gateClausesWhere good n.type (n.inputNets.map freeLit) (freeLit n.out) ++
      gateClausesWhere (m n.out && n.out != f) n.type (n.inputNets.map (faultyInputLit m))
        (faultyLit n.out)) ↔ NodeHolds m f good a n := by
  simp only [NodeHolds, satisfies_append, satisfies_gateClausesWhere, Bool.and_eq_true,
    bne_iff_ne, and_imp, List.map_map, Function.comp_def, litValue_freeLit, litValue_faultyLit,
    litValue_faultyInputLit]

/-- The clauses of one node. -/
def nodeClauses (masks : ConeMasks) (fault : CompactFault) (n : SimNode) : Cnf :=
  if n.type = .INPUT then []
  else gateClausesWhere (masks.inSupport n.out) n.type (n.inputNets.map freeLit) (freeLit n.out) ++
    gateClausesWhere (masks.inOutcone n.out && n.out != fault.netIndex) n.type
      (n.inputNets.map (faultyInputLit masks.inOutcone)) (faultyLit n.out)

/-- A combinational node adds its clauses. -/
theorem encodeNode_eq_ok (htype : n.type ≠ .DFF) (masks : ConeMasks) (fault : CompactFault)
    (cnf : Cnf) :
    encodeNode masks fault cnf n = .ok (cnf ++ nodeClauses masks fault n) := by
  by_cases hin : n.type = .INPUT
  · simp [encodeNode, nodeClauses, hin, pure, Except.pure]
  · have hlen := length_inputNets_le n
    simp only [encodeNode, nodeClauses, if_neg hin]
    rw [addGateWhere_eq_ok htype hlen]
    show addGateWhere _ _ _ _ _ = _
    rw [addGateWhere_eq_ok htype hlen, List.append_assoc]

/-- **The clauses of a node are its equations in both machines**; a source has none. -/
theorem satisfies_nodeClauses_iff {masks : ConeMasks} {fault : CompactFault} (htype : n.type ≠ .DFF) :
    Satisfies a (nodeClauses masks fault n) ↔
      (¬ n.IsSource → NodeHolds masks.inOutcone fault.netIndex (masks.inSupport n.out) a n) := by
  by_cases hin : n.type = .INPUT
  · have hsrc : n.IsSource := .inl hin
    simp [nodeClauses, hin, hsrc]
  · have hsrc : ¬ n.IsSource := not_or.2 ⟨hin, htype⟩
    simp only [nodeClauses, if_neg hin, satisfies_nodeClauses, hsrc, not_false_eq_true,
      forall_const]

/-- **The nodes**: each machine satisfies the equations of the gates its mask
keeps. -/
theorem exists_encodeNodes {cg : CompiledSimGraph} (hcomb : cg.Combinational) (masks : ConeMasks)
    (fault : CompactFault) (cnf : Cnf) :
    ∃ clauses, cg.nodes.foldlM (encodeNode masks fault) cnf = .ok (cnf ++ clauses) ∧
      ∀ a, Satisfies a clauses ↔ ∀ n ∈ cg.nodes, ¬ n.IsSource →
        NodeHolds masks.inOutcone fault.netIndex (masks.inSupport n.out) a n := by
  refine ⟨cg.nodes.flatMap (nodeClauses masks fault),
    foldlM_append_ok (fun n hn acc => encodeNode_eq_ok (hcomb n hn) masks fault acc) cnf,
    fun a => ?_⟩
  rw [satisfies_flatMap]
  exact forall₂_congr fun n hn => satisfies_nodeClauses_iff (hcomb n hn)

/-! ## Differences -/

variable {next : ℕ} {observed : List CompiledNetIndex}

/-- A difference variable says whether the two machines differ on its net. -/
theorem satisfies_diffClauses :
    Satisfies a (diffClauses next observed) ↔ ∀ p ∈ observed.zipIdx next,
      a p.2 = (a (freeVar p.1) != a (faultyVar p.1)) := by
  simp [diffClauses, satisfies_addXorDef]

/-- **The miter**: some observed net differs. -/
theorem eval_diffLits_iff (hdiff : Satisfies a (diffClauses next observed)) :
    Std.Sat.CNF.Clause.eval a (diffLits next observed) = true ↔
      ∃ o ∈ observed, a (freeVar o) ≠ a (faultyVar o) := by
  rw [satisfies_diffClauses] at hdiff
  have hvar : ∀ i (hi : i < observed.length), a (next + i) =
      (a (freeVar observed[i]) != a (faultyVar observed[i])) := fun i hi =>
    hdiff (observed[i], next + i)
      (List.mem_zipIdx_iff_le_and_getElem?_sub.2 ⟨by simp, by simp⟩)
  rw [eval_clause_iff]
  constructor
  · rintro ⟨l, hl, hval⟩
    obtain ⟨k, hk, rfl⟩ := List.mem_map.1 hl
    obtain ⟨i, hi, rfl⟩ := List.mem_range'.1 hk
    rw [litValue_pos, Nat.one_mul, hvar i hi] at hval
    exact ⟨observed[i], List.getElem_mem hi, by simpa using hval⟩
  · rintro ⟨o, ho, hne⟩
    obtain ⟨i, hi, rfl⟩ := List.getElem_of_mem ho
    refine ⟨pos (next + i), List.mem_map.2 ⟨next + i, ?_, rfl⟩, ?_⟩
    · exact List.mem_range'.2 ⟨i, hi, by simp⟩
    · rw [litValue_pos, hvar i hi]
      simpa using hne

/-- More observed nets take the next variables. -/
theorem diffClauses_append (next : ℕ) (D E : List CompiledNetIndex) :
    diffClauses next (D ++ E) = diffClauses next D ++ diffClauses (next + D.length) E := by
  rw [diffClauses, List.zipIdx_append, List.flatMap_append]
  rfl

/-! ## Assignments of given net values -/

/-- The assignment of the two copies of every net. -/
def dual (v w : CompiledNetIndex → Bool) (n : ℕ) : Bool :=
  if n % 2 = 1 then v (n / 2) else w (n / 2 - 1)

@[simp]
theorem dual_freeVar (v w : CompiledNetIndex → Bool) (i : ℕ) :
    dual v w (freeVar i) = v i := by
  have hdiv : (2 * i + 1) / 2 = i := by omega
  rw [dual, freeVar, if_pos (by omega), hdiv]

@[simp]
theorem dual_faultyVar (v w : CompiledNetIndex → Bool) (i : ℕ) :
    dual v w (faultyVar i) = w i := by
  have hdiv : (2 * i + 2) / 2 - 1 = i := by omega
  rw [dual, faultyVar, if_neg (by omega), hdiv]

/-- Give the variables from `next` on the values of a list. -/
def extend (next : ℕ) (a : ℕ → Bool) (bits : List Bool) (n : ℕ) : Bool :=
  if n < next then a n else bits.getD (n - next) false

/-- The old variables keep their values. -/
theorem extend_of_lt (a : ℕ → Bool) (bits : List Bool) {n : ℕ} (h : n < next) :
    extend next a bits n = a n := if_pos h

/-- The new variables have the given values. -/
theorem extend_add (next : ℕ) (a : ℕ → Bool) (bits : List Bool) (k : ℕ) :
    extend next a bits (next + k) = bits.getD k false := by
  rw [extend, if_neg (by omega), Nat.add_sub_cancel_left]

/-- The variables of the good machine are in use. -/
theorem freeVar_lt {n i : ℕ} (h : i < n) : freeVar i < nextVar n := by
  unfold freeVar nextVar
  omega

/-- So are those of the faulty machine. -/
theorem faultyVar_lt {n i : ℕ} (h : i < n) : faultyVar i < nextVar n := by
  unfold faultyVar nextVar
  omega

/-- The assignment extended by the differences of the observed nets. -/
def withDiffs (next : ℕ) (a : ℕ → Bool) (observed : List CompiledNetIndex) : ℕ → Bool :=
  extend next a (observed.map fun o => a (freeVar o) != a (faultyVar o))

/-- The extended assignment satisfies the definitions of the differences. -/
theorem satisfies_withDiffs (hlt : ∀ o ∈ observed, freeVar o < next ∧ faultyVar o < next) :
    Satisfies (withDiffs next a observed) (diffClauses next observed) := by
  rw [satisfies_diffClauses]
  rintro ⟨o, k⟩ hp
  obtain ⟨hle, hget⟩ := List.mem_zipIdx_iff_le_and_getElem?_sub.1 hp
  simp only at hle hget ⊢
  obtain ⟨hi, hget⟩ := List.getElem?_eq_some_iff.1 hget
  have ho := hlt o (hget ▸ List.getElem_mem hi)
  have hk : withDiffs next a observed (next + (k - next)) =
      (a (freeVar o) != a (faultyVar o)) := by
    rw [withDiffs, extend_add, List.getD_eq_getElem?_getD, List.getElem?_map,
      List.getElem?_eq_getElem hi, hget]
    rfl
  rw [Nat.add_sub_of_le hle] at hk
  rw [hk, withDiffs, extend_of_lt _ _ ho.1, extend_of_lt _ _ ho.2]

end FaultFlow.Atpg
