/-!
# Packed tables

Long tables are lists of small numbers, their symbols, and these are packed into the digits of one
fraction. A symbol is read bit by bit: for each bit the interval that the fraction lies in is
divided, and the part for the more likely bit is the larger one. How likely a bit is has been learnt
from the symbols before it. There are several views of them; under each it is counted how often the
bit was clear and how often it was set, and the logarithms of these odds are added up with weights,
which are adapted to the bits that come.
-/

namespace Addon.Unicode

/-- The digits of the fraction. -/
def packSigns : String :=
  "!$%&()*+,.0123456789:;<=>?@ABCDEFGHIJKLMNOPQRSTUVWXYZ[]^_abcdefghijklmnopqrstuvwxyz|~"

/-- The places of the signs, by their code points. -/
def signPlaces : Array Nat :=
  ((List.range 128).map fun code => packSigns.toList.idxOf (Char.ofNat code)).toArray

/-- What is known of some symbols before they are read: the number of their bits, those that are
inside of words, and those that end lines. -/
structure Packing where
  width : Nat
  inWord : Nat → Bool
  endsLine : Nat → Bool

/-- A key that depends on another key and a symbol. -/
@[inline] def mixKey (key : UInt64) (n : Nat) : UInt64 :=
  (key + n.toUInt64 + 1) * 0x9E3779B97F4A7C15

/-- The keys of what lies behind: the word, the symbols above in the line before, and so many
symbols. -/
def Packing.viewKeys (p : Packing) (recent above : List Nat) : List UInt64 :=
  let word := recent.takeWhile p.inWord
  let views := [word, [above.headD 0, word.length], recent.take 1 ++ above.take 3,
    word.length :: above.take 3] ++ [0, 1, 2, 3, 4, 6, 10].map recent.take
  views.zipIdx.map fun view => (view.2 :: view.1).foldl mixKey 0

/-- How far the word has come, or nothing behind the end of one. -/
def Packing.wordPlace (p : Packing) (recent : List Nat) : Nat :=
  if recent.head? = some 0 then 0 else 1 + (recent.takeWhile p.inWord).length

/-- What is above behind a symbol. The words of a line are below those of the line before. -/
def Packing.above (p : Packing) (recent above : List Nat) (symbol : Nat) : List Nat :=
  if p.endsLine symbol then (symbol :: recent.takeWhile (!p.endsLine ·)).reverse
  else if !p.inWord symbol then (above.dropWhile p.inWord).tail
  else if above.head?.any p.inWord then above.tail else above

/-! ## Counts -/

/-- How often a bit was clear and how often it was set, when the same lay behind. Counts are kept at
a place of a table until others take it, and have a sign by which they are told from others. -/
structure BitCounts where
  place : Nat
  sign : Nat
  clear : Nat
  set : Nat
  logOdds : Int

namespace BitCounts

/-- The logarithm of a count, 256 for each doubling. Between the powers of two
it is a straight line. -/
def countLog (count : Nat) : Int :=
  let n := 10 * count + 1
  256 * n.log2 + 256 * n / Nat.pow 2 n.log2 - 256

/-- The logarithms of all counts. -/
def countLogs : Array Int :=
  ((List.range 256).map countLog).toArray

/-- The counts for a key, of a bit that comes behind the other bits of the symbol. -/
@[inline] def look (table : Array Nat) (bits : Nat) (key : UInt64) : BitCounts :=
  let place := (key >>> 41).toNat + bits
  let sign := (key >>> 18).toNat
  let packed := table.getD place 0
  if packed / 65536 = sign then
    let clear := packed % 256
    let set := packed / 256 % 256
    ⟨place, sign, clear, set, countLogs.getD set 0 - countLogs.getD clear 0⟩
  else ⟨place, sign, 0, 0, 0⟩

/-- A count of what has come again. -/
@[inline] def raised (count : Nat) : Nat :=
  if count < 250 then count + 1 else count

/-- Puts the counts into the table when the bit has come. The other count is largely forgotten. -/
@[inline] def store (bit : Bool) (table : Array Nat) (c : BitCounts) : Array Nat :=
  let packed :=
    if bit then 256 * raised c.set + min c.clear 2 else 256 * min c.set 2 + raised c.clear
  table.setIfInBounds c.place (65536 * c.sign + packed)

/-- The logarithms of the odds are added up, with weights from two places on. -/
def weigh (weights : Array Int) : Nat → Nat → Int → List BitCounts → Int
  | _, _, sum, [] => sum
  | i, j, sum, c :: rest =>
    weigh weights (i + 1) (j + 1) (sum + (weights.getD i 0 + weights.getD j 0) * c.logOdds) rest

/-- The weights are adapted to an error of the prediction. -/
def adapt (error : Int) : Nat → Nat → Array Int → List BitCounts → Array Int
  | _, _, weights, [] => weights
  | i, j, weights, c :: rest =>
    let step := error * c.logOdds / 65536
    adapt error (i + 1) (j + 1) ((weights.modify i (· + step)).modify j (· + step)) rest

end BitCounts

/-- The chance that a bit is set, of 65536, by the logarithm of its odds. -/
def chance (logOdds : Int) : Nat :=
  let n := min logOdds.natAbs 4095
  let odds := ((256 + n % 256).toUInt64 <<< (n / 256).toUInt64).toNat
  let likely := 65536 * odds / (odds + 256)
  if logOdds < 0 then 65536 - likely else likely

/-! ## Reading -/

/-- How far the unpacking has come: the counts and the weights, the digits that are left, the length
of the interval, and how far from its start the fraction lies. -/
structure Unpacking where
  table : Array Nat
  weights : Array Int
  digits : List Nat
  length : Nat
  offset : Nat

namespace Unpacking

/-- Looks at so many more digits, as long as the interval is too short to be divided. -/
def refine : Nat → Unpacking → Unpacking
  | 0, u => u
  | more + 1, ⟨table, weights, digits, length, offset⟩ =>
    if length < 52200625 then refine more ⟨table, weights, digits.tail, 85 * length,
      85 * offset + digits.headD 0⟩
    else ⟨table, weights, digits, length, offset⟩

/-- Reads a bit at a place in a word, behind other bits. -/
def readBit (keys : List UInt64) (place bits : Nat) : Unpacking → Bool × Unpacking
  | ⟨table, weights, digits, length, offset⟩ =>
    let counts := keys.map (BitCounts.look table bits)
    let i := 16 * bits
    let j := 2048 + 16 * place
    let chance := chance (BitCounts.weigh weights i j 0 counts / 65536)
    let part := length * chance / 65536
    let bit : Bool := offset < part
    let table := counts.foldl (BitCounts.store bit) table
    let weights := BitCounts.adapt (65536 * bit.toNat - chance) i j weights counts
    (bit, refine 5 (if bit then ⟨table, weights, digits, part, offset⟩
      else ⟨table, weights, digits, length - part, offset - part⟩))

/-- Reads so many bits of a symbol. Those that were read before have a one in front. -/
def readBits (keys : List UInt64) (place : Nat) : Nat → Nat → Unpacking → Nat × Unpacking
  | 0, bits, u => (bits, u)
  | more + 1, bits, u =>
    let (bit, u) := u.readBit keys place bits
    readBits keys place more (2 * bits + bit.toNat) u

/-- Reads so many symbols behind those that were read, of which the latest is the first. -/
def readSymbols (p : Packing) : Nat → List Nat → List Nat → Unpacking → List Nat
  | 0, recent, _, _ => recent
  | more + 1, recent, above, u =>
    let (bits, u) := u.readBits (p.viewKeys recent above) (p.wordPlace recent) p.width 1
    let symbol := bits - Nat.pow 2 p.width
    readSymbols p more (symbol :: recent) (p.above recent above symbol) u

end Unpacking

/-- The symbols that are packed into a text, which is cut into lines. -/
def Packing.unpack (p : Packing) (count : Nat) (text : String) : List Nat :=
  let digits := (text.toList.filter (· != '\n')).map fun c => signPlaces.getD c.toNat 0
  let start :=
    Unpacking.refine 5 ⟨Array.replicate 8388736 0, Array.replicate 4096 8192, digits, 1, 0⟩
  (start.readSymbols p count [] []).reverse

end Addon.Unicode
