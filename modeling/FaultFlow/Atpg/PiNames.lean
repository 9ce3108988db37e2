/-
# The names of the inputs

`ordered_pis` (`src/core/atpg/fault_solver.cpp`) makes up a name for every bit of a bus and for
every pseudo-input of a blackbox, and `net_id_by_name` (`src/core/ir/parsed_graph/parsed_graph.cpp`)
looks names up again: among the ports, among the nets, as a reserved name with a number, and only
then as one bit of a port.  A made-up name finds its own net exactly if nothing that is looked up
before is another one (`netIdByName_orderedPis`); a net of the module may well be called `a[1]`.
-/

import FaultFlow.Atpg.Replay
import FaultFlow.IR.CellLibraries
import FaultFlow.Lib.Keys
import FaultFlow.Runner.IncrementalGrading
import Mathlib.Data.List.TakeWhile

namespace FaultFlow

open Std (TreeMap)

/-! ## Reading numbers -/

/-- The digits of a number stand for it. -/
theorem digitsValue_toString (n : ℕ) : digitsValue (toString n).toList = n := by
  have h := Nat.ofDigitChars_ten_toDigits (n := n)
  rw [Nat.ofDigitChars_eq_foldl] at h
  rw [Nat.toString_eq_repr, Nat.toList_repr, digitsValue]
  exact h

theorem toString_ne_nil (n : ℕ) : (toString n).toList ≠ [] := by
  rw [Nat.toString_eq_repr, Nat.toList_repr]
  exact Nat.toDigits_ne_nil

theorem takeWhile_isDigit_toString (n : ℕ) :
    (toString n).toList.takeWhile Char.isDigit = (toString n).toList :=
  List.takeWhile_eq_self_iff.2 fun _ hc => Lib.nat_toString_digits hc

/-- A number starts with no blank and no sign. -/
theorem head_toString (n : ℕ) :
    ∃ c l, (toString n).toList = c :: l ∧ c.isDigit = true := by
  cases h : (toString n).toList with
  | nil => exact absurd h (toString_ne_nil n)
  | cons c l => exact ⟨c, l, rfl, Lib.nat_toString_digits (h ▸ List.mem_cons_self)⟩

theorem isSpace_of_isDigit {c : Char} (h : c.isDigit = true) : isSpace c = false := by
  rw [Bool.eq_false_iff]
  intro hspace
  simp only [isSpace, List.mem_cons, List.not_mem_nil, or_false, decide_eq_true_eq] at hspace
  rcases hspace with rfl | rfl | rfl | rfl | rfl | rfl <;> revert h <;> decide

/-- **`std::stoi` reads what `std::to_string` wrote**, within the range of an `int`. -/
theorem stoi_toString {z : ℤ} (hlow : -2 ^ 31 ≤ z) (hhigh : z < 2 ^ 31) :
    stoi (toString z).toList = some z := by
  cases z with
  | ofNat n =>
    obtain ⟨c, l, hcl, hc⟩ := head_toString n
    have hlist : (toString (Int.ofNat n)).toList = (toString n).toList := rfl
    have hne : c ≠ '-' ∧ c ≠ '+' := by
      constructor <;> (rintro rfl; revert hc; decide)
    have hdrop : (toString n).toList.dropWhile isSpace = (toString n).toList := by
      rw [hcl, List.dropWhile_cons_of_neg (by rw [isSpace_of_isDigit hc]; exact Bool.false_ne_true)]
    have hhead : (toString n).toList.head? = some c := by rw [hcl]; rfl
    unfold stoi
    simp only [hlist, hdrop, hhead, Option.some_inj, hne.1, hne.2, or_self, if_false,
      takeWhile_isDigit_toString, digitsValue_toString, toString_ne_nil, false_or]
    have hlow' : ¬ ((n : ℤ) < -2 ^ 31) := by omega
    have hhigh' : ¬ ((2 : ℤ) ^ 31 ≤ n) := not_le.2 hhigh
    simp only [hlow', hhigh', or_self, if_false]
    rfl
  | negSucc n =>
    have hlist : (toString (Int.negSucc n)).toList = '-' :: (toString (n + 1)).toList :=
      String.toList_append
    unfold stoi
    have hdrop : ('-' :: (toString (n + 1)).toList).dropWhile isSpace =
        '-' :: (toString (n + 1)).toList := List.dropWhile_cons_of_neg (by decide)
    simp only [hlist, hdrop, List.head?_cons, true_or, if_true, List.tail_cons,
      takeWhile_isDigit_toString, digitsValue_toString, toString_ne_nil, false_or]
    have hvalue : -((n + 1 : ℕ) : ℤ) = Int.negSucc n := rfl
    rw [hvalue]
    have hhigh' : ¬ ((2 : ℤ) ^ 31 ≤ Int.negSucc n) := by omega
    have hlow' : ¬ (Int.negSucc n < -2 ^ 31) := by omega
    simp only [hlow', hhigh', or_self, if_false]

/-- **A bit in brackets is read back**, whatever brackets the name before has. -/
theorem splitBracketIndex_bit {base digits : List Char} (hbase : base ≠ []) (hne : digits ≠ [])
    (hdigits : ∀ c ∈ digits, c.isDigit = true) :
    splitBracketIndex (base ++ '[' :: (digits ++ [']'])) = some (base, digitsValue digits) := by
  have hsplit : base ++ '[' :: (digits ++ [']']) = (base ++ '[' :: digits) ++ [']'] := by simp
  have hlen : ¬ ((base ++ '[' :: digits) ++ [']']).length < 3 := by
    have h1 := List.length_pos_iff.2 hbase
    have h2 := List.length_pos_iff.2 hne
    simp only [List.length_append, List.length_cons, List.length_nil]
    omega
  have hnot : ∀ c ∈ digits.reverse, decide (c ≠ '[') = true := fun c hc => by
    rw [decide_eq_true_iff]
    rintro rfl
    have := hdigits _ (List.mem_reverse.1 hc)
    revert this
    decide
  have hback : (base ++ '[' :: digits).reverse = digits.reverse ++ '[' :: base.reverse := by simp
  have htake : (digits.reverse ++ '[' :: base.reverse).takeWhile (· ≠ '[') = digits.reverse := by
    rw [List.takeWhile_append_of_pos hnot, List.takeWhile_cons_of_neg (by simp), List.append_nil]
  have hdrop : (digits.reverse ++ '[' :: base.reverse).dropWhile (· ≠ '[') = '[' :: base.reverse := by
    rw [List.dropWhile_append_of_pos hnot, List.dropWhile_cons_of_neg (by simp)]
  unfold splitBracketIndex
  rw [hsplit, if_neg (by rw [List.getLast?_concat]; exact not_or.2 ⟨hlen, fun h => h rfl⟩)]
  simp only [List.dropLast_concat, hback, htake, hdrop, List.reverse_reverse, List.tail_cons]
  cases base with
  | nil => exact absurd rfl hbase
  | cons c base => simp [hne, List.all_eq_true.2 hdigits]

/-! ## Resolving a name -/

/-- The net that a port or a net of the module calls by a name. -/
def ParsedModule.named (mod : ParsedModule) (name : String) : Option YosysNetID :=
  (mod.ports[name]?.bind fun port => port.bits.head?) <|> mod.netnames[name]?.bind List.head?

/-- The number in a reserved name. -/
def reservedNumber (name : List Char) : Option YosysNetID :=
  numberAfter blackboxPiPrefix name <|> numberAfter wbrStimulusPrefix name

/-- The bit of a port in brackets. -/
def ParsedModule.bracketed (mod : ParsedModule) (name : List Char) : Option YosysNetID :=
  (splitBracketIndex name).bind fun p =>
    mod.ports[String.ofList p.1]?.bind fun port => port.bits[p.2]?

section Resolve

variable {mod : ParsedModule} {name : String} {net : YosysNetID}

theorem netIdByName_eq_ok :
    mod.netIdByName name = .ok net ↔
      (mod.named name <|> reservedNumber name.toList <|> mod.bracketed name.toList) = some net := by
  have hassoc : (mod.named name <|> reservedNumber name.toList <|> mod.bracketed name.toList) =
      ((mod.ports[name]?.bind fun port => port.bits.head?)
        <|> (mod.netnames[name]?.bind List.head?)
        <|> numberAfter blackboxPiPrefix name.toList
        <|> numberAfter wbrStimulusPrefix name.toList
        <|> (splitBracketIndex name.toList).bind fun p =>
          mod.ports[String.ofList p.1]?.bind fun port => port.bits[p.2]?) := by
    unfold ParsedModule.named reservedNumber
    cases mod.ports[name]?.bind fun port => port.bits.head? with
    | some n => rfl
    | none =>
      cases mod.netnames[name]?.bind List.head? with
      | some n => rfl
      | none => cases numberAfter blackboxPiPrefix name.toList <;> rfl
  unfold ParsedModule.netIdByName
  rw [hassoc]
  dsimp only
  split <;> rename_i heq <;> rw [heq] <;> simp

/-- **When what is looked up first is none, or the net itself, a name resolves.** -/
theorem netIdByName_eq_ok_of_bracketed (h : mod.bracketed name.toList = some net) :
    mod.netIdByName name = .ok net ↔
      ∀ n, (mod.named name <|> reservedNumber name.toList) = some n → n = net := by
  rw [netIdByName_eq_ok]
  cases mod.named name with
  | some n => simp
  | none => cases reservedNumber name.toList <;> simp [h]

end Resolve

namespace Atpg

variable {mod : ParsedModule} {cg : CompiledSimGraph} {pi : AtpgPiInfo}

/-- What an input is: a port of one bit, a bit of a wider port, or a pseudo-input. -/
theorem orderedPis_cases (h : pi ∈ orderedPis mod cg) :
    (∃ port, mod.ports[pi.name]? = some port ∧ port.bits = [pi.yosysId]) ∨
    (∃ (port : ParsedPort) (name : String) (i : ℕ), mod.ports[name]? = some port ∧
      port.bits[i]? = some pi.yosysId ∧ pi.name = name ++ "[" ++ toString i ++ "]") ∨
    pi.name = "__bbpi_" ++ toString pi.yosysId := by
  rw [orderedPis, List.mem_append, mem_sortByName, mem_sortByName] at h
  rcases h with h | h
  · obtain ⟨p, hp, hport⟩ := List.mem_flatMap.1 h
    have hget := TreeMap.mem_toList_iff_getElem?_eq_some.1 hp
    unfold portPis at hport
    split at hport
    · obtain ⟨b, hb, hmap⟩ := List.mem_filterMap.1 hport
      obtain ⟨i, hi, rfl⟩ := Option.map_eq_some_iff.1 hmap
      have hbit := List.mem_zipIdx_iff_getElem?.1 hb
      dsimp only
      split
      · rename_i hone
        obtain ⟨y, hy⟩ := List.length_eq_one_iff.1 hone
        refine .inl ⟨p.2, hget, ?_⟩
        have hyb : b.1 ∈ p.2.bits := List.mem_of_getElem? hbit
        rw [hy, List.mem_singleton] at hyb
        rw [hy, hyb]
      · exact .inr (.inl ⟨p.2, p.1, b.2, hget, hbit, rfl⟩)
    · exact absurd hport List.not_mem_nil
  · obtain ⟨i, -, rfl⟩ := List.mem_map.1 h
    exact .inr (.inr rfl)

/-- **The name of an input finds the input's net** exactly if every port or net of that name, and
the number in it if it is a reserved name, is that net. -/
theorem netIdByName_orderedPis (hports : "" ∉ mod.ports) (hpi : pi ∈ orderedPis mod cg)
    (hlow : -2 ^ 31 ≤ pi.yosysId) (hhigh : pi.yosysId < 2 ^ 31) :
    mod.netIdByName pi.name = .ok pi.yosysId ↔
      ∀ n, (mod.named pi.name <|> reservedNumber pi.name.toList) = some n → n = pi.yosysId := by
  rcases orderedPis_cases hpi with ⟨port, hget, hbits⟩ | ⟨port, name, i, hget, hbit, hname⟩ | hname
  · have hnamed : mod.named pi.name = some pi.yosysId := by
      simp [ParsedModule.named, hget, hbits]
    rw [netIdByName_eq_ok, hnamed]
    simp
  · refine netIdByName_eq_ok_of_bracketed ?_
    have hbase : name.toList ≠ [] := fun h => hports (by
      rw [String.toList_eq_nil_iff] at h
      rw [← h, TreeMap.mem_iff_isSome_getElem?, hget]
      rfl)
    have hlist : pi.name.toList = name.toList ++ '[' :: ((toString i).toList ++ [']']) := by
      rw [hname]
      simp [String.toList_append]
    rw [ParsedModule.bracketed, hlist, splitBracketIndex_bit hbase (toString_ne_nil i)
      fun c hc => Lib.nat_toString_digits hc, digitsValue_toString]
    simp [hget, hbit]
  · have hreserved : reservedNumber pi.name.toList = some pi.yosysId := by
      have hnum : numberAfter blackboxPiPrefix pi.name.toList = some pi.yosysId := by
        rw [hname, String.toList_append]
        unfold numberAfter blackboxPiPrefix
        rw [if_pos (by simp), List.drop_left]
        exact stoi_toString hlow hhigh
      rw [reservedNumber, hnum]
      rfl
    rw [netIdByName_eq_ok, hreserved]
    cases mod.named pi.name <;> simp

/-- An AND gate on the two bits of a bus, and the nets that have names. -/
def busModule (netnames : List (String × List YosysNetID)) : ParsedModule where
  ports := TreeMap.ofList [("a", ParsedPort.mk "input" [2, 3]), ("y", .mk "output" [5])]
  cells := TreeMap.ofList
    [("g", ParsedCell.ofPins "AND2" [("A", 2), ("B", 3), ("Y", 4)]),
      ("n", .ofPins "INV" [("A", 4), ("Y", 5)])]
  netnames := TreeMap.ofList netnames

def busGraph : CachedGraph :=
  .load (busModule [("a", [2, 3])]) smallCells "fail" ∅ (by decide +kernel) (by decide +kernel)

/-- The bus with a net between the gates that is called as the second bit. -/
def redirectedGraph : CachedGraph :=
  .load (busModule [("a", [2, 3]), ("a[1]", [4])]) smallCells "fail" ∅ (by decide +kernel)
    (by decide +kernel)

/-- The inputs of a graph, with the nets that their names find. -/
def resolvedPis (g : CachedGraph) : List (String × YosysNetID × Option YosysNetID) :=
  (orderedPis g.parsed g.cg).map fun pi =>
    (pi.name, pi.yosysId, (g.parsed.netIdByName pi.name).toOption)

theorem busGraph_resolves : busGraph.parsed.netIdByName "a[1]" = .ok 3 := by
  have hpi : (⟨"a[1]", 3, 1⟩ : AtpgPiInfo) ∈ orderedPis busGraph.parsed busGraph.cg := by
    decide +kernel
  have hnone : (busGraph.parsed.named "a[1]" <|> reservedNumber "a[1]".toList) = none := by
    decide +kernel
  refine (netIdByName_orderedPis (by decide +kernel) hpi (by decide) (by decide)).2 fun n hn => ?_
  cases hnone.symm.trans hn

/-- **A net called `a[1]` takes the place of bit `1` of the bus `a`.**  A vector of ones sets the
net between the gates and leaves the bit at `0`. -/
theorem redirectedGraph_resolves :
    resolvedPis redirectedGraph = [("a[0]", 2, some 2), ("a[1]", 3, some 4)] ∧
    ((Grading.vectorFromMap redirectedGraph.parsed (TreeMap.ofList [("a[0]", true), ("a[1]", true)])
      ["a[0]", "a[1]"]).toOption.map fun vec => vec.inputs.toList) =
        some [(2, true), (4, true)] := by
  decide +kernel

end Atpg

end FaultFlow
