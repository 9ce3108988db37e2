/-
# Nets by name

`ParsedGraph::net_id_by_name` of `src/core/ir/parsed_graph/parsed_graph.cpp`: a vector names its
inputs, and a name is a port, a net, a pseudo-input of a blackbox or of a wrapper cell (the
prefix, then the number of the net), or one bit of a port in brackets.  A name of several bits
stands for its first.
-/

import FaultFlow.IR.ParsedGraph
import Mathlib.Algebra.Group.Int.Defs

namespace FaultFlow

open Std (TreeMap)

/-- `kBlackboxPiPrefix`. -/
def blackboxPiPrefix : List Char := "__bbpi_".toList

/-- `kWbrStimulusPrefix`. -/
def wbrStimulusPrefix : List Char := "__wbrstim_".toList

/-- The number that a list of decimal digits stands for. -/
def digitsValue (digits : List Char) : ℕ :=
  digits.foldl (fun n c => 10 * n + (c.toNat - '0'.toNat)) 0

/-- `std::isspace`. -/
def isSpace (c : Char) : Bool := c ∈ [' ', '\t', '\n', '\x0b', '\x0c', '\r']

/-- `std::stoi`: blanks, a sign, and digits up to the first other character.  It throws when
there is no digit or the number is no `int`. -/
def stoi (s : List Char) : Option Int :=
  let s := s.dropWhile isSpace
  let negative := s.head? = some '-'
  let unsigned := if negative ∨ s.head? = some '+' then s.tail else s
  let digits := unsigned.takeWhile Char.isDigit
  let value : Int := if negative then -(digitsValue digits) else digitsValue digits
  if digits = [] ∨ value < -2 ^ 31 ∨ 2 ^ 31 ≤ value then none else some value

/-- `split_bracket_index`: the name before the last bracket, and the number in it. -/
def splitBracketIndex (name : List Char) : Option (List Char × ℕ) :=
  if name.length < 3 ∨ name.getLast? ≠ some ']' then none
  else
    let back := name.dropLast.reverse
    let index := (back.takeWhile (· ≠ '[')).reverse
    match (back.dropWhile (· ≠ '[')).tail.reverse with
    | [] => none
    | base => if index = [] ∨ ¬ index.all Char.isDigit then none else some (base, digitsValue index)

/-- The number after a prefix. -/
def numberAfter (pre name : List Char) : Option Int :=
  if pre.isPrefixOf name then stoi (name.drop pre.length) else none

/-- `net_id_by_name`. -/
def ParsedModule.netIdByName (mod : ParsedModule) (name : String) : Except FlowError YosysNetID :=
  let found :=
    (mod.ports[name]?.bind fun port => port.bits.head?)
    <|> (mod.netnames[name]?.bind List.head?)
    <|> numberAfter blackboxPiPrefix name.toList
    <|> numberAfter wbrStimulusPrefix name.toList
    <|> (splitBracketIndex name.toList).bind fun p =>
      mod.ports[String.ofList p.1]?.bind fun port => port.bits[p.2]?
  match found with
  | some net => .ok net
  | none => .error (.ParseError ("Unknown net or port name in top module: " ++ name))

end FaultFlow
