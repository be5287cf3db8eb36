import EventStream.Text.Columns

/-!
Letters that are drawn as one with the letters before them, script by script. A text is read from
its end: each kind of ligature is known by its last part, and says what it does to the character
before that part.
-/

set_option autoImplicit false

namespace EventStream.Text

/-- The last part of a ligature, or of what may become one. Some parts merge only over the general
joiner; `joined` tells whether it has been seen. -/
inductive Ligature where
  | alef
  | lamed (joined : Bool)
  | ya (joined : Bool)
  | yaVowel
  | consonant (joined : Bool)
  | boundConsonant
  | tone
  | turkicVowel (joined : Bool)
  | subscript
  | kiratVowel
  | kiratVowels
  deriving DecidableEq, Repr

namespace Ligature

def isLam (c : Char) : Bool :=
  c = '\u0644' || isBetween 0x6B5 0x6B8 c || c = '\u076a' || c = '\u08a6' || c = '\u08c7'

def isAlef (c : Char) : Bool :=
  inRanges #[(0x622, 0x623), (0x625, 0x625), (0x627, 0x627), (0x671, 0x673), (0x675, 0x675),
    (0x773, 0x774), (0x870, 0x882)] c

def interruptingRanges : Array (Nat × Nat) := #[
  (0x605, 0x605), (0x890, 0x891), (0x8E2, 0x8E2), (0x9BE, 0x9BE), (0x9D7, 0x9D7), (0xB3E, 0xB3E),
  (0xB57, 0xB57), (0xBBE, 0xBBE), (0xBD7, 0xBD7), (0xCC0, 0xCC0), (0xCC2, 0xCC2), (0xCC7, 0xCC8),
  (0xCCA, 0xCCB), (0xCD5, 0xCD6), (0xD3E, 0xD3E), (0xD4E, 0xD4E), (0xD57, 0xD57), (0xDCF, 0xDCF),
  (0xDDF, 0xDDF), (0x1160, 0x11FF), (0x1715, 0x1715), (0x1734, 0x1734), (0x180E, 0x180E),
  (0x1B35, 0x1B35), (0x1B3B, 0x1B3B), (0x1B3D, 0x1B3D), (0x1B43, 0x1B44), (0x1BAA, 0x1BAA),
  (0x1BF2, 0x1BF3), (0x200C, 0x200D), (0x2065, 0x2069), (0x302E, 0x302F), (0x3164, 0x3164),
  (0xA8FA, 0xA8FA), (0xA953, 0xA953), (0xA9C0, 0xA9C0), (0xD7B0, 0xD7C6), (0xD7CB, 0xD7FB),
  (0xFFA0, 0xFFA0), (0xFFF0, 0xFFF8), (0x111C0, 0x111C0), (0x111C2, 0x111C3), (0x11235, 0x11235),
  (0x1133E, 0x1133E), (0x1134D, 0x1134D), (0x11357, 0x11357), (0x113B8, 0x113B8),
  (0x113C2, 0x113C2), (0x113C5, 0x113C5), (0x113C7, 0x113C9), (0x113CF, 0x113CF),
  (0x113D1, 0x113D1), (0x114B0, 0x114B0), (0x114BD, 0x114BD), (0x115AF, 0x115AF),
  (0x116B6, 0x116B6), (0x11930, 0x11930), (0x1193D, 0x1193D), (0x1193F, 0x1193F),
  (0x11941, 0x11941), (0x11A84, 0x11A89), (0x11D46, 0x11D46), (0x11F02, 0x11F02),
  (0x11F41, 0x11F41), (0x16FF0, 0x16FF1), (0x1D165, 0x1D166), (0x1D16D, 0x1D172),
  (0xE0000, 0xE0000), (0xE0002, 0xE001F), (0xE0080, 0xE00FF), (0xE01F0, 0xE0FFF)]

def isTransparent (c : Char) : Bool :=
  isHidden c && !inRanges interruptingRanges c

/-- Whether the character is a mark that is not shown, and so may stand inside a ligature. -/
def isHiddenMark (c : Char) : Bool :=
  inRanges #[(0x34F, 0x34F), (0x17B4, 0x17B5), (0x180B, 0x180D), (0x180F, 0x180F),
    (0xFE00, 0xFE0F), (0xE0100, 0xE01EF)] c

def isTifinaghConsonant (c : Char) : Bool :=
  isBetween 0x2D31 0x2D65 c || c = '\u2d6f'

def isKhmerSubscript (c : Char) : Bool :=
  inRanges #[(0x1780, 0x1782), (0x1784, 0x1787), (0x1789, 0x178C), (0x178E, 0x1793),
    (0x1795, 0x1798), (0x179B, 0x179D), (0x17A0, 0x17A0), (0x17A2, 0x17A2), (0x17A7, 0x17A7),
    (0x17AB, 0x17AC), (0x17AF, 0x17AF)] c

def ofLast? (c : Char) : Option Ligature :=
  if isAlef c then some .alef
  else if c = '\u05dc' then some (.lamed false)
  else if c = '\u1a10' then some (.ya false)
  else if isTifinaghConsonant c then some (.consonant false)
  else if c = '\ua4fc' ∨ c = '\ua4fd' then some .tone
  else if c.toNat = 0x10C03 then some (.turkicVowel false)
  else if isKhmerSubscript c then some .subscript
  else if c.toNat = 0x16D67 then some .kiratVowel
  else if c.toNat = 0x16D68 then some .kiratVowels
  else none

def join : Ligature → Ligature
  | .lamed _ => .lamed true
  | .ya _ => .ya true
  | .consonant _ => .consonant true
  | .turkicVowel _ => .turkicVowel true
  | part => part

/-- What a character before the last part adds to the columns of the text, and what part of a
ligature it leaves to the characters before it; none if it does not belong to the ligature. -/
def extend? (part : Ligature) (c : Char) : Option (Int × Option Ligature) :=
  if part ≠ .alef ∧ c = '\u200d' then some (0, some part.join)
  else if part ≠ .alef ∧ isHiddenMark c then some (0, some part)
  else
    match part with
    | .alef =>
      if isLam c then some (0, none) else if isTransparent c then some (0, some .alef) else none
    | .lamed joined => if joined ∧ c = '\u05d0' then some (0, none) else none
    | .ya joined => if joined ∧ c = '\u1a17' then some (0, some .yaVowel) else none
    | .yaVowel => if c = '\u1a15' then some (0, none) else none
    | .consonant joined =>
      if c = '\u2d7f' then some (1, some .boundConsonant)
      else if joined ∧ isTifinaghConsonant c then some (0, none)
      else none
    | .boundConsonant => if isTifinaghConsonant c then some (-1, none) else none
    | .tone => if isBetween 0xA4F8 0xA4FB c then some (0, none) else none
    | .turkicVowel joined => if joined ∧ c.toNat = 0x10C32 then some (0, none) else none
    | .subscript => if c = '\u17d2' then some (-1, none) else none
    | .kiratVowel =>
      if c.toNat = 0x16D63 ∨ c.toNat = 0x16D69 then some (0, none)
      else if c.toNat = 0x16D67 then some (0, some .kiratVowels)
      else if c.toNat = 0x16D68 then some (1, some .kiratVowel)
      else none
    | .kiratVowels => if c.toNat = 0x16D63 then some (0, none) else none

end Ligature

end EventStream.Text
