import BenchMetrics.Text.Blank
import BenchMetrics.Text.Quoted
/-! Identities of runs: 128 bits, written as 32 hexadecimal digits in five groups. -/
namespace BenchMetrics

structure RunId where
  bits : BitVec 128
  deriving DecidableEq, Repr

namespace RunId

def hexValue? (c : Char) : Option Nat :=
  if c.isDigit then some (c.toNat - '0'.toNat)
  else if 'a' ≤ c ∧ c ≤ 'f' then some (c.toNat - 'a'.toNat + 10)
  else if 'A' ≤ c ∧ c ≤ 'F' then some (c.toNat - 'A'.toNat + 10)
  else none

/-- 32 digits in a row. -/
def ofDigits? (cs : List Char) : Option RunId :=
  if cs.length = 32 then
    (cs.mapM hexValue?).map fun ds => ⟨BitVec.ofNat 128 (ds.foldl (fun n d => 16 * n + d) 0)⟩
  else none

/-- Where the hyphens stand in the grouped form. -/
def hyphens : List Nat := [8, 13, 18, 23]

def ofGrouped? (cs : List Char) : Option RunId :=
  if cs.length = 36 && hyphens.all fun i => cs[i]? == some '-' then
    ofDigits? ((cs.zipIdx.filter fun (_, i) => !hyphens.contains i).map Prod.fst)
  else none

/-- The mark of an identity that is given as a uniform name. -/
def nameMark : String := "urn:uuid:"

/-- Digits in a row or in groups; groups may stand in braces or after a mark, in either case. -/
def parse? (s : String) : Option RunId :=
  let cs := s.toList
  if cs.length = 32 then ofDigits? cs
  else if cs.length = 38 && cs.head? == some '\x7b' && cs.getLast? == some '\x7d' then
    ofGrouped? (cs.drop 1).dropLast
  else if cs.length = 45 && Text.lowerAscii (String.ofList (cs.take 9)) == nameMark then
    ofGrouped? (cs.drop 9)
  else ofGrouped? cs

def text (r : RunId) : String :=
  let ds := Nat.toDigits 16 r.bits.toNat
  let ds := List.replicate (32 - ds.length) '0' ++ ds
  let group (start count : Nat) := String.ofList ((ds.drop start).take count)
  String.intercalate "-" [group 0 8, group 8 4, group 12 4, group 16 4, group 20 12]

/-- Marks random bits as such, in the version and variant fields. -/
def ofRandom (n : Nat) : RunId :=
  let version := (BitVec.ofNat 128 n &&& ~~~(0xf#128 <<< 76)) ||| (0x4#128 <<< 76)
  ⟨(version &&& ~~~(0x3#128 <<< 62)) ||| (0x2#128 <<< 62)⟩

end RunId
end BenchMetrics
