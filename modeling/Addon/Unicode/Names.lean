import Addon.Unicode.NameTable
import Addon.Unicode.Normal
import Addon.Unicode.Packing

/-!
# Characters by name

Finds the character with a given name. Most names and the aliases are found in any case; some of
them end in the code point and are not listed. Hangul syllables are named after their parts and
unified ideographs after their code points; these names have to be written in upper case, and the
code point of an ideograph may have a zero in front.
-/

namespace Addon.Unicode

/-! ## Listed names -/

/-- A step of the enumeration of all names. Steps that end a name go on to the next code point. -/
inductive NameStep where
  /-- One more character of the name. -/
  | text (c : Char)
  /-- Some code points are left out. -/
  | skip (count : Nat)
  /-- The code points start again. -/
  | restart
  /-- The name ends, and the next one has the last character or digits raised by one. -/
  | successor
  /-- The name ends, and the next one has a small letter for a capital one. -/
  | small
  /-- The name ends, and the next one has other words for so many at its end. -/
  | next (dropped : Nat)

/-- The steps by their numbers. -/
def basicSteps : List NameStep :=
  " -0132547968IEOABMCDPTGFYNHUKSRLVZQXWJ".toList.map .text ++
    (List.range 20).map (fun k => .skip (Nat.pow 2 k)) ++ [.restart, .successor] ++
    (List.range 13).reverse.map .next ++ [.small]

/-- The steps of the enumeration, which are unpacked when they are needed. The words are letters and
digits, and a line goes as far as a name. -/
def nameSteps : Thunk (List NameStep) := Thunk.mk fun _ =>
  let packing : Packing := ⟨7, fun n => 0 < n && n < 38, fun n => 58 ≤ n⟩
  (packing.unpack nameStepCount nameText).map fun n => basicSteps.toArray.getD n .restart

/-- The name behind another one in a numbered series. Names are written backwards. -/
def nextInSeries : List Char → List Char
  | [] => []
  | c :: rest => if c = '9' then '0' :: nextInSeries rest else Char.ofNat (c.toNat + 1) :: rest

/-- The name of the small letter for a capital one. Names are written backwards. -/
def smallLetterName : List Char → List Char
  | 'L' :: 'A' :: 'T' :: 'I' :: 'P' :: 'A' :: 'C' :: rest => "LLAMS".toList ++ rest
  | c :: rest => c :: smallLetterName rest
  | [] => []

/-- The name without so many words at its end. Names are written backwards. -/
def dropWords : Nat → List Char → List Char
  | 0, name => name
  | 1, name => name.dropWhile (· != ' ')
  | count + 2, name => dropWords (count + 1) ((name.dropWhile (· != ' ')).drop 1)

/-- Looks a name up, from a code point on whose name is read already to some extent. Names
are written backwards. -/
def findStep (wanted : List Char) : Nat → List Char → List NameStep → Option Nat
  | code, name, [] => if name = wanted then some code else none
  | code, name, .text c :: rest => findStep wanted code (c :: name) rest
  | code, name, .skip count :: rest => findStep wanted (code + count) name rest
  | _, name, .restart :: rest => findStep wanted 0 name rest
  | code, name, .successor :: rest =>
    if name = wanted then some code else findStep wanted (code + 1) (nextInSeries name) rest
  | code, name, .small :: rest =>
    if name = wanted then some code else findStep wanted (code + 1) (smallLetterName name) rest
  | code, name, .next dropped :: rest =>
    if name = wanted then some code else findStep wanted (code + 1) (dropWords dropped name) rest

/-- The code point of a listed name. -/
def listedName? (name : List Char) : Option Nat :=
  if name.isEmpty then none else findStep name.reverse 0 [] nameSteps.get

/-! ## Computed names -/

/-- A code point lies in one of some ranges. -/
def isInRanges (ranges : List (Nat × Nat)) (n : Nat) : Bool :=
  ranges.any fun (lo, hi) => lo ≤ n && n ≤ hi

/-- The unified ideographs. -/
def unifiedIdeographs : List (Nat × Nat) :=
  [(0x3400, 0x4DBF), (0x4E00, 0x9FFF), (0x20000, 0x2A6DF), (0x2A700, 0x2B738), (0x2B740, 0x2B81D),
    (0x2B820, 0x2CEA1), (0x2CEB0, 0x2EBE0), (0x30000, 0x3134A)]

/-- Name stems that are followed by the code point, with the ranges they are used for. -/
def numberedNames : List (String × List (Nat × Nat)) :=
  [
    ("CJK COMPATIBILITY IDEOGRAPH-", [(0xF900, 0xFA6D), (0xFA70, 0xFAD9), (0x2F800, 0x2FA1D)]),
    ("KHITAN SMALL SCRIPT CHARACTER-", [(0x18B00, 0x18CD5)]),
    ("NUSHU CHARACTER-", [(0x1B170, 0x1B2FB)])
  ]

/-- The names of the initial parts of Hangul syllables. -/
def hangulInitials : List String :=
  ["G", "GG", "N", "D", "DD", "R", "M", "B", "BB", "S", "SS", "", "J", "JJ", "C", "K",
  "T", "P", "H"]

/-- The names of the middle parts of Hangul syllables. -/
def hangulMiddles : List String :=
  ["A", "AE", "YA", "YAE", "EO", "E", "YEO", "YE", "O", "WA", "WAE", "OE", "YO", "U", "WEO", "WE",
    "WI", "YU", "EU", "YI", "I"]

/-- The names of the final parts of Hangul syllables. -/
def hangulFinals : List String :=
  ["", "G", "GG", "GS", "N", "NJ", "NH", "D", "L", "LG", "LM", "LB", "LS", "LT", "LP",
    "LH", "M", "B", "BS", "S", "SS", "NG", "J", "C", "K", "T", "P", "H"]

/-- The name of a Hangul syllable without the words in front. -/
def hangulLabel (n : Nat) : String :=
  let s := n - 0xAC00
  hangulInitials.getD (s / 588) "" ++ hangulMiddles.getD (s % 588 / 28) "" ++
    hangulFinals.getD (s % 28) ""

/-- The Hangul syllable with a label. -/
def hangulNamed? (label : String) : Option Nat :=
  ((List.range 11172).map (0xAC00 + ·)).find? fun n => hangulLabel n == label

/-- A hexadecimal digit in upper case. -/
def isUpperHex (c : Char) : Bool :=
  c.isDigit || ('A' ≤ c && c ≤ 'F')

/-- The unified ideograph with a code point of four or five digits. -/
def ideographNamed? (digits : String) : Option Nat :=
  let cs := digits.toList
  let n := readHex cs
  if (cs.length = 4 || cs.length = 5) && cs.all isUpperHex &&
    isInRanges unifiedIdeographs n then some n
  else none

/-- The code point of a name that ends in it. -/
def numberedName? (name : String) : Option Nat :=
  numberedNames.findSome? fun (stem, ranges) =>
    match name.dropPrefix? stem with
    | none => none
    | some digits =>
      let n := readHex digits.toString.toList
      let written := String.ofList ((Nat.toDigits 16 n).map Char.toUpper)
      if written == digits.toString && isInRanges ranges n then some n else none

/-- The character of a name. -/
def charNamed? (name : String) : Option Char :=
  let code := match name.dropPrefix? "HANGUL SYLLABLE ",
    name.dropPrefix? "CJK UNIFIED IDEOGRAPH-" with
    | some label, _ => hangulNamed? label.toString
    | none, some digits => ideographNamed? digits.toString
    | none, none =>
      let upperName := name.toList.map Char.toUpper
      (numberedName? (String.ofList upperName)).or (listedName? upperName)
  code.map Char.ofNat

end Addon.Unicode
