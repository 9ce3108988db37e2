/-
# The shipped cell maps

`cells/sky130/sky130_fd_sc_hd.json` and `cells/osu/osu035.json`, as `CellMap::load`
reads them: the keys in their order, without delays and the `expression` texts, which
the passes do not read.  The cells that the tool itself inserts stand in both maps,
with and without the backslash of an escaped Verilog name.
-/

import FaultFlow.IR.GraphCache

namespace FaultFlow

open Std (TreeMap)

/-- The entry of a gate with one output `X`. -/
def CellMapEntry.gateX (gateType : GateType) (inputs : List String) : CellMapEntry :=
  { gateType := gateType, inputs := inputs, outputs := TreeMap.ofList [("X", "X")] }

/-- The entry of an adder, with the library pins of sum and carry. -/
def CellMapEntry.adder (gateType : GateType) (inputs : List String) (sum carry : String) :
    CellMapEntry :=
  { gateType := gateType, inputs := inputs
    outputs := TreeMap.ofList [("S", sum), ("CO", carry)] }

/-- The entry of a flip-flop with the output `Q`. -/
def CellMapEntry.seq (inputs : List String) (ff : CellFFMetadata) : CellMapEntry :=
  { nodeType := .FF, inputs := inputs, outputs := TreeMap.ofList [("Q", "Q")], ff := ff }

/-- An active-low control. -/
def CellFFControl.low (pin : String) (value : Nat) : CellFFControl :=
  { pin := pin, polarity := .ACTIVE_LOW, value := value, present := true }

namespace CellLibraries

/-- A flip-flop on the rising edge of `CLK`. -/
def dff : CellFFMetadata := { clock := "CLK", data := "D", present := true }

/-- The same with a scan multiplexer. -/
def scanDff (scanIn scanEnable : String) : CellFFMetadata :=
  { dff with hasScan := true, scanIn := scanIn, scanEnable := scanEnable }

/-- A scan wrapper between the pins `input` and `output`. -/
def scanWrapper (isInput : Bool) (input output : String) : CellMapEntry :=
  { nodeType := .FF, inputs := ["CLK", input, "CTI", "SE"]
    outputs := TreeMap.ofList [(output, output), ("CTO", "CTO")]
    ff := { scanDff "CTI" "SE" with data := input, output := "CTO" }
    wbr := { present := true, isInput := isInput
             corePin := if isInput then output else input
             sysPin := if isInput then input else output
             scan := true, funcInPin := input, chainInPin := "CTI", chainOutPin := "CTO"
             scanEnablePin := "SE", clockPin := "CLK" } }

/-- The cells that the tool inserts. -/
def toolCells : List (String × CellMapEntry) :=
  [("$faultflow_capture_and", .gate .AND2 ["A", "B"]), ("$faultflow_capture_inv", .gate .INV ["A"]),
   ("$faultflow_capture_or", .gate .OR2 ["A", "B"]), ("$faultflow_d_branch_buf", .gate .BUF ["A"]),
   ("$faultflow_observe_buf", .gate .BUF ["A"]),
   ("$scanff_faultflow", .seq ["CLK", "D", "SDI", "SE"] (scanDff "SDI" "SE")),
   ("$scanff_r_faultflow", .seq ["CLK", "D", "SDI", "SE", "RESET_B"]
     { scanDff "SDI" "SE" with clear := .low "RESET_B" 0 }),
   ("$scanff_s_faultflow", .seq ["CLK", "D", "SDI", "SE", "SET_B"]
     { scanDff "SDI" "SE" with preset := .low "SET_B" 1 }),
   ("$wbc_in_faultflow", .wrapper true),
   ("$wbc_in_scan_faultflow", scanWrapper true "FROM_SYS" "TO_CORE"),
   ("$wbc_out_faultflow", .wrapper false),
   ("$wbc_out_scan_faultflow", scanWrapper false "FROM_CORE" "TO_SYS")]

/-- The same cells under escaped names. -/
def escapedToolCells : List (String × CellMapEntry) :=
  toolCells.map fun p => ("\\" ++ p.1, p.2)

/-- The cells of the Sky130 HD library, without the prefix of the library. -/
def sky130Cells : List (String × CellMapEntry) :=
  [("a2111o_*", .gateX .A2111O ["A1", "A2", "B1", "C1", "D1"]),
   ("a2111oi_*", .gate .A2111OI ["A1", "A2", "B1", "C1", "D1"]),
   ("a211o_*", .gateX .A211O ["A1", "A2", "B1", "C1"]),
   ("a211oi_*", .gate .A211OI ["A1", "A2", "B1", "C1"]),
   ("a21bo_*", .gateX .A21BO ["A1", "A2", "B1_N"]),
   ("a21boi_*", .gate .A21BOI ["A1", "A2", "B1_N"]), ("a21o_*", .gateX .A21O ["A1", "A2", "B1"]),
   ("a21oi_*", .gate .A21OI ["A1", "A2", "B1"]),
   ("a221o_*", .gateX .A221O ["A1", "A2", "B1", "B2", "C1"]),
   ("a221oi_*", .gate .A221OI ["A1", "A2", "B1", "B2", "C1"]),
   ("a222oi_*", .gate .A222OI ["A1", "A2", "B1", "B2", "C1", "C2"]),
   ("a22o_*", .gateX .A22O ["A1", "A2", "B1", "B2"]),
   ("a22oi_*", .gate .A22OI ["A1", "A2", "B1", "B2"]),
   ("a2bb2o_*", .gateX .A2BB2O ["A1_N", "A2_N", "B1", "B2"]),
   ("a2bb2oi_*", .gate .A2BB2OI ["A1_N", "A2_N", "B1", "B2"]),
   ("a311o_*", .gateX .A311O ["A1", "A2", "A3", "B1", "C1"]),
   ("a311oi_*", .gate .A311OI ["A1", "A2", "A3", "B1", "C1"]),
   ("a31o_*", .gateX .A31O ["A1", "A2", "A3", "B1"]),
   ("a31oi_*", .gate .A31OI ["A1", "A2", "A3", "B1"]),
   ("a32o_*", .gateX .A32O ["A1", "A2", "A3", "B1", "B2"]),
   ("a32oi_*", .gate .A32OI ["A1", "A2", "A3", "B1", "B2"]),
   ("a41o_*", .gateX .A41O ["A1", "A2", "A3", "A4", "B1"]),
   ("a41oi_*", .gate .A41OI ["A1", "A2", "A3", "A4", "B1"]), ("and2_*", .gateX .AND2 ["A", "B"]),
   ("and2b_*", .gateX .AND2B ["B", "A_N"]), ("and3_*", .gateX .AND3 ["A", "B", "C"]),
   ("and3b_*", .gateX .AND3B ["A_N", "B", "C"]), ("and4_*", .gateX .AND4 ["A", "B", "C", "D"]),
   ("and4b_*", .gateX .AND4B ["A_N", "B", "C", "D"]),
   ("and4bb_*", .gateX .AND4BB ["A_N", "B_N", "C", "D"]), ("buf_*", .gateX .BUF ["A"]),
   ("bufbuf_*", .gateX .BUF ["A"]), ("bufinv_*", .gate .INV ["A"]),
   ("clkbuf_*", .gateX .BUF ["A"]), ("clkdlybuf4s15_*", .gateX .BUF ["A"]),
   ("clkdlybuf4s18_*", .gateX .BUF ["A"]), ("clkdlybuf4s25_*", .gateX .BUF ["A"]),
   ("clkdlybuf4s50_*", .gateX .BUF ["A"]), ("clkinv_*", .gate .INV ["A"]),
   ("clkinvlp_*", .gate .INV ["A"]), ("conb_*", { unsupported := true }),
   ("decap_*", { unsupported := true }),
   ("dfbbn_*", .seq ["CLK_N", "D", "RESET_B", "SET_B"]
     { dff with clock := "CLK_N", trigger := .NEGEDGE, clear := .low "RESET_B" 0,
                preset := .low "SET_B" 1 }),
   ("dfbbp_*", .seq ["CLK", "D", "RESET_B", "SET_B"]
     { dff with clear := .low "RESET_B" 0, preset := .low "SET_B" 1 }),
   ("dfrtp_*", .seq ["CLK", "D", "RESET_B"] { dff with clear := .low "RESET_B" 0 }),
   ("dfstp_*", .seq ["CLK", "D", "SET_B"] { dff with preset := .low "SET_B" 1 }),
   ("dfxtp", .seq ["CLK", "D"] dff), ("dfxtp_*", .seq ["CLK", "D"] dff),
   ("diode_*", { unsupported := true }), ("dlrtp_*", { nodeType := .LATCH }),
   ("dlygate4sd1_*", .gateX .BUF ["A"]), ("dlygate4sd2_*", .gateX .BUF ["A"]),
   ("dlygate4sd3_*", .gateX .BUF ["A"]), ("dlymetal6s2s_*", .gateX .BUF ["A"]),
   ("dlymetal6s4s_*", .gateX .BUF ["A"]), ("dlymetal6s6s_*", .gateX .BUF ["A"]),
   ("ebufn_*", { nodeType := .TBUF }),
   ("edfxtp_*", .seq ["CLK", "D", "DE"] { dff with enable := { pin := "DE", present := true } }),
   ("esd_*", { unsupported := true }), ("fa_*", .adder .ADDF_S ["A", "B", "CIN"] "SUM" "COUT"),
   ("fill_*", { unsupported := true }), ("filler_*", { unsupported := true }),
   ("filltie_*", { unsupported := true }), ("ha_*", .adder .ADDH_S ["A", "B"] "SUM" "COUT"),
   ("inv_*", .gate .INV ["A"]), ("lpflow_inputiso1p_*", .gateX .OR2 ["A", "SLEEP"]),
   ("lpflow_isobufsrc_*", .gateX .AND2B ["A", "SLEEP"]),
   ("maj3_*", .gateX .ADDF_CO ["A", "B", "C"]), ("mux2_*", .gateX .MUX2_NI ["A0", "A1", "S"]),
   ("mux2i_*", .gate .MUX2I ["A0", "A1", "S"]),
   ("mux4_*", .gateX .MUX4 ["A0", "A1", "A2", "A3", "S0", "S1"]),
   ("nand2_*", .gate .NAND2 ["A", "B"]), ("nand2b_*", .gate .NAND2B ["A_N", "B"]),
   ("nand3_*", .gate .NAND3 ["A", "B", "C"]), ("nand3b_*", .gate .NAND3B ["A_N", "B", "C"]),
   ("nand4_*", .gate .NAND4 ["A", "B", "C", "D"]),
   ("nand4b_*", .gate .NAND4B ["A_N", "B", "C", "D"]),
   ("nand4bb_*", .gate .NAND4BB ["A_N", "B_N", "C", "D"]), ("nor2_*", .gate .NOR2 ["A", "B"]),
   ("nor2b_*", .gate .NOR2B ["A", "B_N"]), ("nor3_*", .gate .NOR3 ["A", "B", "C"]),
   ("nor3b_*", .gate .NOR3B ["A", "B", "C_N"]), ("nor4_*", .gate .NOR4 ["A", "B", "C", "D"]),
   ("nor4b_*", .gate .NOR4B ["A", "B", "C", "D_N"]),
   ("nor4bb_*", .gate .NOR4BB ["A", "B", "C_N", "D_N"]),
   ("o2111a_*", .gateX .O2111A ["A1", "A2", "B1", "C1", "D1"]),
   ("o2111ai_*", .gate .O2111AI ["A1", "A2", "B1", "C1", "D1"]),
   ("o211a_*", .gateX .O211A ["A1", "A2", "B1", "C1"]),
   ("o211ai_*", .gate .O211AI ["A1", "A2", "B1", "C1"]),
   ("o21a_*", .gateX .O21A ["A1", "A2", "B1"]), ("o21ai_*", .gate .O21AI ["A1", "A2", "B1"]),
   ("o21ba_*", .gateX .O21BA ["A1", "A2", "B1_N"]),
   ("o21bai_*", .gate .O21BAI ["A1", "A2", "B1_N"]),
   ("o221a_*", .gateX .O221A ["A1", "A2", "B1", "B2", "C1"]),
   ("o221ai_*", .gate .O221AI ["A1", "A2", "B1", "B2", "C1"]),
   ("o22a_*", .gateX .O22A ["A1", "A2", "B1", "B2"]),
   ("o22ai_*", .gate .O22AI ["A1", "A2", "B1", "B2"]),
   ("o2bb2a_*", .gateX .O2BB2A ["A1_N", "A2_N", "B1", "B2"]),
   ("o2bb2ai_*", .gate .O2BB2AI ["A1_N", "A2_N", "B1", "B2"]),
   ("o311a_*", .gateX .O311A ["A1", "A2", "A3", "B1", "C1"]),
   ("o311ai_*", .gate .O311AI ["A1", "A2", "A3", "B1", "C1"]),
   ("o31a_*", .gateX .O31A ["A1", "A2", "A3", "B1"]),
   ("o31ai_*", .gate .O31AI ["A1", "A2", "A3", "B1"]),
   ("o32a_*", .gateX .O32A ["A1", "A2", "A3", "B1", "B2"]),
   ("o32ai_*", .gate .O32AI ["A1", "A2", "A3", "B1", "B2"]),
   ("o41a_*", .gateX .O41A ["A1", "A2", "A3", "A4", "B1"]),
   ("o41ai_*", .gate .O41AI ["A1", "A2", "A3", "A4", "B1"]), ("or2_*", .gateX .OR2 ["A", "B"]),
   ("or2b_*", .gateX .OR2B ["A", "B_N"]), ("or3_*", .gateX .OR3 ["A", "B", "C"]),
   ("or3b_*", .gateX .OR3B ["A", "B", "C_N"]), ("or4_*", .gateX .OR4 ["A", "B", "C", "D"]),
   ("or4b_*", .gateX .OR4B ["A", "B", "C", "D_N"]),
   ("or4bb_*", .gateX .OR4BB ["A", "B", "C_N", "D_N"]), ("probe_*", { unsupported := true }),
   ("pwrgdin_*", { unsupported := true }),
   ("sdfrtp_*", .seq ["CLK", "D", "SCD", "SCE", "RESET_B"]
     { scanDff "SCD" "SCE" with clear := .low "RESET_B" 0 }),
   ("sdfstp_*", .seq ["CLK", "D", "SCD", "SCE", "SET_B"]
     { scanDff "SCD" "SCE" with preset := .low "SET_B" 1 }),
   ("sdfxtp", .seq ["CLK", "D", "SCD", "SCE"] (scanDff "SCD" "SCE")),
   ("sdfxtp_*", .seq ["CLK", "D", "SCD", "SCE"] (scanDff "SCD" "SCE")),
   ("tap_*", { unsupported := true }), ("vph_*", { unsupported := true }),
   ("vpwrin_*", { unsupported := true }), ("xnor2_*", .gate .XNOR2 ["A", "B"]),
   ("xnor3_*", .gateX .XNOR3 ["A", "B", "C"]), ("xor2_*", .gateX .XOR2 ["A", "B"]),
   ("xor3_*", .gateX .XOR3 ["A", "B", "C"])]

/-- The cells of the OSU035 library. -/
def osu035Cells : List (String × CellMapEntry) :=
  [("AND2X*", .gate .AND2 ["A", "B"]), ("AOI21X*", .gate .AOI21 ["A", "B", "C"]),
   ("AOI22X*", .gate .AOI22 ["A", "B", "C", "D"]), ("BUFX*", .gate .BUF ["A"]),
   ("CLKBUF*", .gate .BUF ["A"]), ("DFFNEGX*", .seq ["CLK", "D"] { dff with trigger := .NEGEDGE }),
   ("DFFPOSX*", .seq ["CLK", "D"] dff),
   ("DFFSR", .seq ["CLK", "D", "R", "S"] { dff with clear := .low "R" 0, preset := .low "S" 1 }),
   ("FAX1", .adder .ADDF_S ["A", "B", "C"] "YS" "YC"),
   ("HAX1", .adder .ADDH_S ["A", "B"] "YS" "YC"), ("INVX*", .gate .INV ["A"]),
   ("LATCH", { nodeType := .LATCH }), ("MUX2X*", .gate .MUX2 ["A", "B", "S"]),
   ("MX2X1", .gate .MUX2 ["A", "B", "S0"]), ("MX2X2", .gate .MUX2 ["A", "B", "S0"]),
   ("MX2X4", .gate .MUX2 ["A", "B", "S0"]), ("NAND2X*", .gate .NAND2 ["A", "B"]),
   ("NAND3X*", .gate .NAND3 ["A", "B", "C"]), ("NOR2X*", .gate .NOR2 ["A", "B"]),
   ("NOR3X*", .gate .NOR3 ["A", "B", "C"]), ("OAI21X*", .gate .OAI21 ["A", "B", "C"]),
   ("OAI22X*", .gate .OAI22 ["A", "B", "C", "D"]), ("OR2X*", .gate .OR2 ["A", "B"]),
   ("PAD*", { unsupported := true }), ("TBUFX*", { nodeType := .TBUF }),
   ("XNOR2X*", .gate .XNOR2 ["A", "B"]), ("XOR2X*", .gate .XOR2 ["A", "B"])]

/-- `sky130_fd_sc_hd.json`. -/
def sky130 : CellMap where
  patterns := toolCells ++ escapedToolCells ++
    sky130Cells.map fun p => ("sky130_fd_sc_hd__" ++ p.1, p.2)
  parsed := by decide +kernel

/-- `osu035.json`. -/
def osu035 : CellMap where
  patterns := toolCells ++ osu035Cells ++ escapedToolCells
  parsed := by decide +kernel

end CellLibraries

end FaultFlow
