import GoMetadata.Text.Basic

/-!
UTF-8. Encoding is a function on characters; decoding accepts exactly the shortest form of each
Unicode scalar value and otherwise names the first offending bytes and what is wrong with them.
-/

namespace GoMetadata

abbrev Bytes := List UInt8

namespace Utf8

def encodeChar (c : Char) : Bytes :=
  let code := c.toNat
  let units :=
    if code < 0x80 then [code]
    else if code < 0x800 then [0xc0 + code / 0x40, 0x80 + code % 0x40]
    else if code < 0x10000 then
      [0xe0 + code / 0x1000, 0x80 + code / 0x40 % 0x40, 0x80 + code % 0x40]
    else
      [0xf0 + code / 0x40000, 0x80 + code / 0x1000 % 0x40, 0x80 + code / 0x40 % 0x40,
        0x80 + code % 0x40]
  units.map UInt8.ofNat

def encodeChars (text : List Char) : Bytes :=
  text.flatMap encodeChar

def encode (text : String) : Bytes :=
  encodeChars text.toList

inductive Cause where
  | invalidStart
  | invalidContinuation
  | unexpectedEnd
  deriving DecidableEq, Repr

def Cause.text : Cause → String
  | invalidStart => "invalid start byte"
  | invalidContinuation => "invalid continuation byte"
  | unexpectedEnd => "unexpected end of data"

/-- The first bytes that are not UTF-8: where they begin, which byte that is and how many belong
to the broken character. -/
structure Fault where
  cause : Cause
  position : Nat
  first : UInt8
  length : Nat
  deriving DecidableEq, Repr

def Fault.message (fault : Fault) : String :=
  let place :=
    if fault.length = 1 then
      "byte 0x" ++ String.ofList (Text.hexText 2 fault.first.toNat) ++ " in position "
        ++ toString fault.position
    else
      "bytes in position " ++ toString fault.position ++ "-"
        ++ toString (fault.position + fault.length - 1)
  "'utf-8' codec can't decode " ++ place ++ ": " ++ fault.cause.text

def isContinuation (b : UInt8) : Bool :=
  0x80 ≤ b && b < 0xc0

/-- The bytes that may follow the first byte of a longer character: the shortest form, no
surrogate and nothing beyond the last code point. -/
def isSecond (first b : UInt8) : Bool :=
  isContinuation b &&
    (if first = 0xe0 then 0xa0 ≤ b
    else if first = 0xed then b < 0xa0
    else if first = 0xf0 then 0x90 ≤ b
    else if first = 0xf4 then b < 0x90
    else true)

def scalar (lead : Nat) (continuations : List UInt8) : Char :=
  Char.ofNat (continuations.foldl (fun code b => code * 0x40 + (b.toNat - 0x80)) lead)

def decodeAt (position : Nat) : Bytes → Except Fault (List Char)
  | [] => .ok []
  | a :: rest =>
    let broken (cause : Cause) (length : Nat) : Except Fault (List Char) :=
      .error ⟨cause, position, a, length⟩
    if a < 0x80 then
      (decodeAt (position + 1) rest).map (Char.ofNat a.toNat :: ·)
    else if a < 0xc2 then broken .invalidStart 1
    else if a < 0xe0 then
      match rest with
      | [] => broken .unexpectedEnd 1
      | b :: rest =>
        if isContinuation b then
          (decodeAt (position + 2) rest).map (scalar (a.toNat - 0xc0) [b] :: ·)
        else broken .invalidContinuation 1
    else if a < 0xf0 then
      match rest with
      | [] => broken .unexpectedEnd 1
      | b :: rest =>
        if isSecond a b then
          match rest with
          | [] => broken .unexpectedEnd 2
          | c :: rest =>
            if isContinuation c then
              (decodeAt (position + 3) rest).map (scalar (a.toNat - 0xe0) [b, c] :: ·)
            else broken .invalidContinuation 2
        else broken .invalidContinuation 1
    else if a < 0xf5 then
      match rest with
      | [] => broken .unexpectedEnd 1
      | b :: rest =>
        if isSecond a b then
          match rest with
          | [] => broken .unexpectedEnd 2
          | c :: rest =>
            if isContinuation c then
              match rest with
              | [] => broken .unexpectedEnd 3
              | d :: rest =>
                if isContinuation d then
                  (decodeAt (position + 4) rest).map (scalar (a.toNat - 0xf0) [b, c, d] :: ·)
                else broken .invalidContinuation 3
            else broken .invalidContinuation 2
        else broken .invalidContinuation 1
    else broken .invalidStart 1

def decode (bytes : Bytes) : Except Fault String :=
  (decodeAt 0 bytes).map String.ofList

end Utf8

end GoMetadata
