import Addon.Unicode.Surrogate

/-!
# UTF-8

Text as bytes and back. Decoding stops at the first place that is not well formed: a byte that
starts no character, a byte that does not continue one, or the end of the data inside a character.
The shortest form is required, surrogates have none, and U+10FFFF is the last character. A text with
surrogates has no bytes.
-/

namespace Addon.Text

/-- The bytes of a text. -/
def encode (cs : List Char) : List UInt8 :=
  cs.flatMap String.utf8EncodeChar

/-- Where a text has surrogates: from the offset `start` up to `stop`. -/
structure EncodeError where
  /-- The first of the surrogates. -/
  code : Nat
  start : Nat
  stop : Nat
deriving DecidableEq, Repr

/-- The first surrogates of a text that stands at an offset. -/
def surrogatesFrom? : Nat → List Char → Option EncodeError
  | _, [] => none
  | offset, c :: rest =>
    if Unicode.isStandIn c then
      some ⟨Unicode.codeOf c, offset, offset + 1 + (rest.takeWhile Unicode.isStandIn).length⟩
    else surrogatesFrom? (offset + 1) rest

/-- Fails on a text that has no bytes. -/
def checkEncodable (cs : List Char) : Except EncodeError Unit :=
  match surrogatesFrom? 0 cs with
  | some e => .error e
  | none => .ok ()

/-- The message of an encoding error. -/
def EncodeError.message (e : EncodeError) : String :=
  let place :=
    if e.stop = e.start + 1 then
      let code := String.ofList (Nat.toDigits 16 e.code)
      s!"character '\\u{code}' in position {e.start}"
    else s!"characters in position {e.start}-{e.stop - 1}"
  s!"'utf-8' codec can't encode {place}: surrogates not allowed"

/-- What is wrong with bytes. -/
inductive Malformation where
  | badStart
  | badContinuation
  | endOfData
deriving DecidableEq, Repr

/-- Where and why bytes are not text: from the offset `start` up to `stop`. -/
structure DecodeError where
  cause : Malformation
  /-- The first byte of the malformed part. -/
  byte : UInt8
  start : Nat
  stop : Nat
deriving DecidableEq, Repr

/-- What the front of some bytes holds: a character and its length, or a malformation and its
length. The length of an unfinished character is that of the data. -/
inductive Front where
  | char (c : Char) (length : Nat)
  | bad (cause : Malformation) (length : Nat)

def isContinuation (b : UInt8) : Bool :=
  0x80 ≤ b && b < 0xC0

/-- The bits that a continuation byte adds. -/
def continuationBits (b : UInt8) : Nat :=
  b.toNat - 0x80

/-- The second byte that may follow a first one. -/
def fitsSecond (first second : UInt8) : Bool :=
  isContinuation second &&
    match first with
    | 0xE0 => 0xA0 ≤ second
    | 0xED => second < 0xA0
    | 0xF0 => 0x90 ≤ second
    | 0xF4 => second < 0x90
    | _ => true

/-- Looks at the front of bytes. -/
def front : List UInt8 → Front
  | [] => .bad .endOfData 0
  | a :: rest =>
    if a < 0x80 then .char (Char.ofNat a.toNat) 1
    else if a < 0xC2 || 0xF4 < a then .bad .badStart 1
    else match rest with
      | [] => .bad .endOfData 1
      | b :: rest =>
        if !fitsSecond a b then .bad .badContinuation 1
        else
          let n := continuationBits b
          if a < 0xE0 then .char (Char.ofNat ((a.toNat - 0xC0) * 64 + n)) 2
          else match rest with
            | [] => .bad .endOfData 2
            | c :: rest =>
              if !isContinuation c then .bad .badContinuation 2
              else
                let n := n * 64 + continuationBits c
                if a < 0xF0 then .char (Char.ofNat ((a.toNat - 0xE0) * 4096 + n)) 3
                else match rest with
                  | [] => .bad .endOfData 3
                  | d :: _ =>
                    if !isContinuation d then .bad .badContinuation 3
                    else
                      .char (Char.ofNat ((a.toNat - 0xF0) * 262144 + n * 64 + continuationBits d)) 4

/-- Decodes bytes that stand at an offset. The characters read come last first. -/
def decodeFrom : Nat → Nat → List UInt8 → List Char → Except DecodeError (List Char)
  | 0, _, _, seen => .ok seen.reverse
  | _ + 1, _, [], seen => .ok seen.reverse
  | bound + 1, offset, a :: rest, seen =>
    match front (a :: rest) with
    | .char c length => decodeFrom bound (offset + length) ((a :: rest).drop length) (c :: seen)
    | .bad cause length => .error ⟨cause, a, offset, offset + length⟩

/-- The text of bytes. -/
def decode (bytes : List UInt8) : Except DecodeError (List Char) :=
  decodeFrom bytes.length 0 bytes []

def Malformation.text : Malformation → String
  | .badStart => "invalid start byte"
  | .badContinuation => "invalid continuation byte"
  | .endOfData => "unexpected end of data"

/-- The message of a decoding error. -/
def DecodeError.message (e : DecodeError) : String :=
  let last := e.stop - 1
  let place :=
    if last = e.start then
      let ds := Nat.toDigits 16 e.byte.toNat
      let code := String.ofList (List.replicate (2 - ds.length) '0' ++ ds)
      s!"byte 0x{code} in position {e.start}"
    else s!"bytes in position {e.start}-{last}"
  s!"'utf-8' codec can't decode {place}: {e.cause.text}"

end Addon.Text
