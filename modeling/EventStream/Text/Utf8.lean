import EventStream.Bytes

/-!
UTF-8. A byte string is cut into pieces, each a character, a maximal part of an ill-formed
sequence, or a sequence that the end of the bytes cuts off. Strict decoding accepts characters
alone; lossy decoding shows every other piece as one replacement character.
-/

set_option autoImplicit false

namespace EventStream.Utf8

/-- What a decoder finds next. -/
inductive Piece where
  | char (c : Char)
  /-- Bytes that begin no well-formed sequence together with the byte after them. -/
  | broken (length : Nat)
  /-- Bytes that more input could still complete. -/
  | cut (length : Nat)
  deriving DecidableEq, Repr

def Piece.size : Piece → Nat
  | .char c => c.utf8Size
  | .broken length => length
  | .cut length => length

structure Lead where
  lo : UInt8
  hi : UInt8
  more : Nat

/-- The ranges exclude overlong forms, surrogates and values above U+10FFFF. -/
def lead? (b : UInt8) : Option Lead :=
  if b < 0xC2 then none
  else if b ≤ 0xDF then some ⟨0x80, 0xBF, 1⟩
  else if b = 0xE0 then some ⟨0xA0, 0xBF, 2⟩
  else if b = 0xED then some ⟨0x80, 0x9F, 2⟩
  else if b ≤ 0xEF then some ⟨0x80, 0xBF, 2⟩
  else if b = 0xF0 then some ⟨0x90, 0xBF, 3⟩
  else if b ≤ 0xF3 then some ⟨0x80, 0xBF, 3⟩
  else if b = 0xF4 then some ⟨0x80, 0x8F, 3⟩
  else none

def isContinuation (b : UInt8) : Bool :=
  0x80 ≤ b && b ≤ 0xBF

def gather (high : Nat) (b : UInt8) : Nat :=
  high * 64 + b.toNat % 64

/-- Cuts the bytes into pieces behind those found so far, which are held in reverse. -/
def piecesFrom (found : List Piece) : Bytes → List Piece
  | [] => found.reverse
  | a :: rest =>
    if a < 0x80 then piecesFrom (.char (Char.ofNat a.toNat) :: found) rest
    else match lead? a with
      | none => piecesFrom (.broken 1 :: found) rest
      | some ⟨lo, hi, more⟩ =>
        match rest with
        | [] => (.cut 1 :: found).reverse
        | b :: rest₂ =>
          if b < lo || hi < b then piecesFrom (.broken 1 :: found) (b :: rest₂)
          else if more = 1 then
            piecesFrom (.char (Char.ofNat (gather (a.toNat % 32) b)) :: found) rest₂
          else match rest₂ with
            | [] => (.cut 2 :: found).reverse
            | c :: rest₃ =>
              if !isContinuation c then piecesFrom (.broken 2 :: found) (c :: rest₃)
              else if more = 2 then
                piecesFrom (.char (Char.ofNat (gather (gather (a.toNat % 16) b) c)) :: found) rest₃
              else match rest₃ with
                | [] => (.cut 3 :: found).reverse
                | d :: rest₄ =>
                  if !isContinuation d then piecesFrom (.broken 3 :: found) (d :: rest₄)
                  else
                    piecesFrom (.char (Char.ofNat (gather (gather (gather (a.toNat % 8) b) c) d))
                      :: found) rest₄

def pieces (bytes : Bytes) : List Piece :=
  piecesFrom [] bytes

def Piece.shown : Piece → Char
  | .char c => c
  | _ => '\uFFFD'

structure Fault where
  validUpTo : Nat
  /-- Length of the ill-formed part; none if the bytes end inside a sequence. -/
  length : Option Nat
  deriving DecidableEq, Repr

def firstFault (offset : Nat) : List Piece → Option Fault
  | [] => none
  | .char c :: rest => firstFault (offset + c.utf8Size) rest
  | .broken length :: _ => some ⟨offset, some length⟩
  | .cut _ :: _ => some ⟨offset, none⟩

/-- The text of a byte string with every piece that is no character shown as U+FFFD. -/
def decodeLossy (bytes : Bytes) : String :=
  String.ofList ((pieces bytes).map Piece.shown)

def decode (bytes : Bytes) : Except Fault String :=
  match firstFault 0 (pieces bytes) with
  | none => .ok (decodeLossy bytes)
  | some fault => .error fault

def encodeChars (chars : List Char) : Bytes :=
  chars.flatMap String.utf8EncodeChar

def encode (text : String) : Bytes :=
  encodeChars text.toList

def Fault.message (fault : Fault) : String :=
  match fault.length with
  | some n => s!"invalid utf-8 sequence of {n} bytes from index {fault.validUpTo}"
  | none => s!"incomplete utf-8 byte sequence from index {fault.validUpTo}"

end EventStream.Utf8
