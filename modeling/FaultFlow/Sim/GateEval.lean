/-
# Gate evaluation

`src/core/sim/gate_eval.cpp`.  `evalBitwise` is `eval_bitwise`, one bitwise
formula per gate type; `evalScalar` is `eval_scalar`, which broadcasts each
Boolean to a word and reads bit `0` of the result.

The main fact is `lane_evalBitwise`: lane `i` of a bitwise evaluation is the
scalar evaluation of the lanes `i` of its inputs, for every gate type.  It
rests on `evalBitwise_lane_congr`, which compares two lanes of two evaluations
and is the only place where the gate types are split.
-/

import FaultFlow.Common.Types
import FaultFlow.Lib.Lanes

namespace FaultFlow

open Lib

/-- `pick`: input `i`, or zero beyond the inputs given. -/
def pick (inputs : List Word) (i : ℕ) : Word := inputs.getD i 0#64

/-- `eval_bitwise`.  The `default` branch of the source throws; only `DFF`
reaches it, the evaluators skip flip-flops and the clause encoder rejects them
(`addGateCnf`), so the value here is never read. -/
def evalBitwise (type : GateType) (inputs : List Word) : Word :=
  let in0 := pick inputs 0
  let in1 := pick inputs 1
  let in2 := pick inputs 2
  let in3 := pick inputs 3
  let in4 := pick inputs 4
  let in5 := pick inputs 5
  match type with
  | .INV => ~~~in0
  | .BUF | .INPUT | .WBR_IN | .WBR_OUT => in0
  | .AND2 => in0 &&& in1
  | .AND2B => in0 &&& ~~~in1
  | .AND3 => in0 &&& in1 &&& in2
  | .AND4 => in0 &&& in1 &&& in2 &&& in3
  | .OR2 => in0 ||| in1
  | .OR3 => in0 ||| in1 ||| in2
  | .OR4 => in0 ||| in1 ||| in2 ||| in3
  | .NAND2 => ~~~(in0 &&& in1)
  | .NAND3 => ~~~(in0 &&& in1 &&& in2)
  | .NAND4 => ~~~(in0 &&& in1 &&& in2 &&& in3)
  | .NOR2 => ~~~(in0 ||| in1)
  | .NOR3 => ~~~(in0 ||| in1 ||| in2)
  | .NOR4 => ~~~(in0 ||| in1 ||| in2 ||| in3)
  | .XOR2 => in0 ^^^ in1
  | .XOR3 => in0 ^^^ in1 ^^^ in2
  | .XNOR2 => ~~~(in0 ^^^ in1)
  | .XNOR3 => ~~~(in0 ^^^ in1 ^^^ in2)
  | .OAI21 => ~~~((in0 ||| in1) &&& in2)
  | .AOI21 => ~~~((in0 &&& in1) ||| in2)
  | .OAI22 => ~~~((in0 ||| in1) &&& (in2 ||| in3))
  | .AOI22 => ~~~((in0 &&& in1) ||| (in2 &&& in3))
  -- OSU035 MUX2X1: the inverting mux, selecting `in0` when `in2` is set.
  | .MUX2 => ~~~((in2 &&& in0) ||| (~~~in2 &&& in1))
  | .MUX2_NI => (~~~in2 &&& in0) ||| (in2 &&& in1)
  | .A21O => (in0 &&& in1) ||| in2
  | .A21OI => ~~~((in0 &&& in1) ||| in2)
  | .A21BO => (in0 &&& in1) ||| ~~~in2
  | .A21BOI => ~~~((in0 &&& in1) ||| ~~~in2)
  | .A22O => (in0 &&& in1) ||| (in2 &&& in3)
  | .A22OI => ~~~((in0 &&& in1) ||| (in2 &&& in3))
  | .A211OI => ~~~((in0 &&& in1) ||| in2 ||| in3)
  | .A2111OI => ~~~((in0 &&& in1) ||| in2 ||| in3 ||| in4)
  | .A2111O => (in0 &&& in1) ||| in2 ||| in3 ||| in4
  | .A221O => (in0 &&& in1) ||| (in2 &&& in3) ||| in4
  | .A221OI => ~~~((in0 &&& in1) ||| (in2 &&& in3) ||| in4)
  | .A31O => (in0 &&& in1 &&& in2) ||| in3
  | .A31OI => ~~~((in0 &&& in1 &&& in2) ||| in3)
  | .A32O => (in0 &&& in1 &&& in2) ||| (in3 &&& in4)
  | .A32OI => ~~~((in0 &&& in1 &&& in2) ||| (in3 &&& in4))
  | .A41OI => ~~~((in0 &&& in1 &&& in2 &&& in3) ||| in4)
  | .O21A => (in0 ||| in1) &&& in2
  | .O21AI => ~~~((in0 ||| in1) &&& in2)
  | .O21BAI => ~~~((in0 ||| in1) &&& ~~~in2)
  | .O22A => (in0 ||| in1) &&& (in2 ||| in3)
  | .O22AI => ~~~((in0 ||| in1) &&& (in2 ||| in3))
  | .O211AI => ~~~((in0 ||| in1) &&& in2 &&& in3)
  | .O221AI => ~~~((in0 ||| in1) &&& (in2 ||| in3) &&& in4)
  | .O31A => (in0 ||| in1 ||| in2) &&& in3
  | .O31AI => ~~~((in0 ||| in1 ||| in2) &&& in3)
  | .O311A => (in0 ||| in1 ||| in2) &&& in3 &&& in4
  | .O311AI => ~~~((in0 ||| in1 ||| in2) &&& in3 &&& in4)
  | .O32AI => ~~~((in0 ||| in1 ||| in2) &&& (in3 ||| in4))
  | .O32A => (in0 ||| in1 ||| in2) &&& (in3 ||| in4)
  | .NAND2B => in0 ||| ~~~in1
  | .NAND3B => in0 ||| ~~~in1 ||| ~~~in2
  | .NAND4B => in0 ||| ~~~in1 ||| ~~~in2 ||| ~~~in3
  | .NAND4BB => in0 ||| in1 ||| ~~~in2 ||| ~~~in3
  | .NOR2B => ~~~in0 &&& in1
  | .NOR3B => ~~~in0 &&& ~~~in1 &&& in2
  | .NOR4B => ~~~in0 &&& ~~~in1 &&& ~~~in2 &&& in3
  | .NOR4BB => ~~~in0 &&& ~~~in1 &&& in2 &&& in3
  | .OR3B => in0 ||| in1 ||| ~~~in2
  | .OR4B => in0 ||| in1 ||| in2 ||| ~~~in3
  | .CONST0 => 0#64
  | .CONST1 => BitVec.allOnes 64
  | .ADDF_S => in0 ^^^ in1 ^^^ in2
  | .ADDF_CO => (in0 &&& in1) ||| (in1 &&& in2) ||| (in0 &&& in2)
  | .ADDH_S => in0 ^^^ in1
  | .ADDH_CO => in0 &&& in1
  | .A211O => (in0 &&& in1) ||| in2 ||| in3
  | .A222OI => ~~~((in0 &&& in1) ||| (in2 &&& in3) ||| (in4 &&& in5))
  | .A2BB2OI => (in0 ||| in1) &&& ~~~(in2 &&& in3)
  | .A311O => (in0 &&& in1 &&& in2) ||| in3 ||| in4
  | .A311OI => ~~~((in0 &&& in1 &&& in2) ||| in3 ||| in4)
  | .A41O => (in0 &&& in1 &&& in2 &&& in3) ||| in4
  | .AND3B => ~~~in0 &&& in1 &&& in2
  | .AND4B => ~~~in0 &&& in1 &&& in2 &&& in3
  | .MUX2I => ~~~((~~~in2 &&& in0) ||| (in2 &&& in1))
  | .MUX4 => (~~~in4 &&& ~~~in5 &&& in0) ||| (in4 &&& ~~~in5 &&& in1) |||
      (~~~in4 &&& in5 &&& in2) ||| (in4 &&& in5 &&& in3)
  | .O211A => (in0 ||| in1) &&& in2 &&& in3
  | .O21BA => (in0 ||| in1) &&& ~~~in2
  | .O221A => (in0 ||| in1) &&& (in2 ||| in3) &&& in4
  | .O2111A => (in0 ||| in1) &&& in2 &&& in3 &&& in4
  | .O2111AI => ~~~((in0 ||| in1) &&& in2 &&& in3 &&& in4)
  | .O2BB2AI => (in0 &&& in1) ||| ~~~(in2 ||| in3)
  | .O2BB2A => ~~~(in0 &&& in1) &&& (in2 ||| in3)
  | .O41A => (in0 ||| in1 ||| in2 ||| in3) &&& in4
  | .O41AI => ~~~((in0 ||| in1 ||| in2 ||| in3) &&& in4)
  | .OR2B => in0 ||| ~~~in1
  | .OR4BB => in0 ||| in1 ||| ~~~in2 ||| ~~~in3
  | .AND4BB => ~~~in0 &&& ~~~in1 &&& in2 &&& in3
  | .A2BB2O => (~~~in0 &&& ~~~in1) ||| (in2 &&& in3)
  | .DFF => 0#64

/-- `eval_scalar`: evaluate on broadcast words and read bit `0`. -/
def evalScalar (type : GateType) (inputs : List Bool) : Bool :=
  (evalBitwise type (inputs.map broadcast) &&& 1#64) != 0#64

/-- `eval_gate`. -/
def evalGate (type : GateType) (inputs : List Word) : Word := evalBitwise type inputs

/-- `eval_gate_scalar`. -/
def evalGateScalar (type : GateType) (inputs : List Bool) : Bool := evalScalar type inputs

/-- **A lane depends on its own lane of the inputs only.**  Two evaluations of
one gate agree, lane `i` of the first with lane `j` of the second, once their
inputs do. -/
theorem evalBitwise_lane_congr (type : GateType) {ws ws' : List Word} {i j : ℕ}
    (hi : i < 64) (hj : j < 64) (h : ∀ k, lane i (pick ws k) = lane j (pick ws' k)) :
    lane i (evalBitwise type ws) = lane j (evalBitwise type ws') := by
  cases type <;>
    simp only [evalBitwise, lane_and, lane_or, lane_xor, lane_zero, lane_not hi, lane_not hj,
      lane_allOnes hi, lane_allOnes hj, h]

theorem evalScalar_eq_lane (type : GateType) (bs : List Bool) :
    evalScalar type bs = lane 0 (evalBitwise type (bs.map broadcast)) := by
  have h := laneMask_and_ne_zero (show 0 < 64 by decide) (evalBitwise type (bs.map broadcast))
  rw [evalScalar, Bool.eq_iff_iff, bne_iff_ne, ← h]
  rfl

theorem lane_pick {i : ℕ} (ws : List Word) (k : ℕ) :
    lane i (pick ws k) = (ws.map (lane i)).getD k false := by
  rw [pick, List.getD_eq_getElem?_getD, List.getD_eq_getElem?_getD, List.getElem?_map]
  cases ws[k]? <;> simp

theorem lane_pick_broadcast {i : ℕ} (hi : i < 64) (bs : List Bool) (k : ℕ) :
    lane i (pick (bs.map broadcast) k) = bs.getD k false := by
  rw [lane_pick, List.map_map]
  congr 1
  exact List.map_id'' (fun b => lane_broadcast hi b) bs

/-- **Every lane of a bitwise evaluation is a scalar evaluation.** -/
theorem lane_evalBitwise (type : GateType) {i : ℕ} (hi : i < 64) (ws : List Word) :
    lane i (evalBitwise type ws) = evalScalar type (ws.map (lane i)) := by
  rw [evalScalar_eq_lane]
  refine evalBitwise_lane_congr type hi (by decide) fun k => ?_
  rw [lane_pick, lane_pick_broadcast (by decide)]

/-- Scalar evaluation reads the inputs by position and takes a missing input
for `false`. -/
theorem evalScalar_congr (type : GateType) {bs bs' : List Bool}
    (h : ∀ k, bs.getD k false = bs'.getD k false) : evalScalar type bs = evalScalar type bs' := by
  rw [evalScalar_eq_lane, evalScalar_eq_lane]
  refine evalBitwise_lane_congr type (by decide) (by decide) fun k => ?_
  rw [lane_pick_broadcast (by decide), lane_pick_broadcast (by decide), h]

theorem evalScalar_buf (b : Bool) : evalScalar .BUF [b] = b := by
  cases b <;> decide

end FaultFlow
