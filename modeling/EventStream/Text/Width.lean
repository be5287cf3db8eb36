import EventStream.Text.Emoji
import EventStream.Text.Ligature

/-!
How many columns a text takes up on a terminal. Mostly that is the sum of the columns of its
characters. But letters may be drawn as one with their neighbours, selectors choose between a
picture and a narrow sign, and joiners compose one picture of several. All of this is known from
what stands behind a character, so the columns are added from the end of the text.
-/

set_option autoImplicit false

namespace EventStream.Text

inductive Selector where
  | picture
  | text
  | fullWidth
  deriving DecidableEq, Repr

def Selector.ofChar? (c : Char) : Option Selector :=
  if c = '\ufe0f' then some .picture
  else if c = '\ufe0e' then some .text
  else if c = '\ufe01' then some .fullWidth
  else none

/-- What stands behind a character, as far as it matters for the columns of the character. -/
inductive Follower where
  | plain
  | ligature (part : Ligature)
  | picture
  | skinTone
  | flagLetter
  | flagLetters
  | joined
  | joinedKeycap
  | joinedFlagLetter
  | joinedFlags
  | joinedFlagsAndLetter
  /-- So many hidden letters and the end of a hidden text before a joiner and a picture. -/
  | tagLetters (count : Nat)
  | tagDigits (count : Nat)
  deriving DecidableEq, Repr

namespace Follower

def behindSelector (selector : Selector) : Follower → Follower
  | .ligature part => .ligature part
  | .joined => if selector = .picture then .joined else .plain
  | .joinedKeycap => if selector = .picture then .joinedKeycap else .plain
  | _ => .plain

def withoutSelector : Follower → Follower
  | .ligature part => .ligature part
  | _ => .plain

/-- What a character adds to the columns of the text, and what follows the characters before it;
none if the character does not belong to what follows it. -/
def extend? (follower : Follower) (c : Char) : Option (Int × Follower) :=
  match follower with
  | .plain => none
  | .ligature part =>
    (part.extend? c).map fun (n, part) => (n, part.elim .plain .ligature)
  | .picture => if c = '\u200d' then some (0, .joined) else none
  | .skinTone =>
    if hasSkin c then some (0, .picture) else if c = '\u200d' then some (0, .joined) else none
  | .flagLetter => if isFlagLetter c then some (1, .flagLetters) else none
  | .flagLetters =>
    if isFlagLetter c then some (1, .flagLetters)
    else if c = '\u200d' then some (0, .joined)
    else none
  | .joined =>
    if c = '\u20e3' then some (0, .joinedKeycap)
    else if isFlagLetter c then some (1, .joinedFlagLetter)
    else if isSkinTone c then some (0, .skinTone)
    else if c.toNat = 0xE007F then some (0, .tagLetters 0)
    else if isEmoji c then some (0, .picture)
    else none
  | .joinedKeycap => none
  | .joinedFlagLetter => if isFlagLetter c then some (-1, .joinedFlags) else none
  | .joinedFlags =>
    if isFlagLetter c then some (3, .joinedFlagsAndLetter)
    else if c = '\u200d' then some (0, .joined)
    else none
  | .joinedFlagsAndLetter =>
    if isFlagLetter c then some (-1, .joinedFlags)
    else if c = '\u200d' then some (0, .joined)
    else none
  | .tagLetters n =>
    if n < 6 ∧ isTagLetter c then some (0, .tagLetters (n + 1))
    else if n < 5 ∧ isTagDigit c then some (0, .tagDigits 1)
    else if 3 ≤ n ∧ c.toNat = 0x1F3F4 then some (0, .picture)
    else none
  | .tagDigits n =>
    if n < 3 ∧ isTagDigit c then some (0, .tagDigits (n + 1))
    else if n = 3 ∧ c.toNat = 0x1F3F4 then some (0, .picture)
    else none

/-- What a character is to the characters before it, whatever stands behind it. -/
def ofChar (c : Char) : Follower :=
  if isSkinTone c then .skinTone
  else if isFlagLetter c then .flagLetter
  else if isEmoji c then .picture
  else (Ligature.ofLast? c).elim .plain .ligature

end Follower

structure Behind where
  follower : Follower
  selector : Option Selector
  deriving DecidableEq, Repr

namespace Behind

def nothing : Behind :=
  ⟨.plain, none⟩

/-- What a character adds to the columns of the text if no selector is meant for it, and what
stands behind the characters before it. Latin letters and controls need no table. -/
def place (follower : Follower) (c : Char) : Int × Behind :=
  if c.toNat ≤ 0xA0 then (1, nothing)
  else
    match Selector.ofChar? c with
    | some selector => (0, ⟨follower.behindSelector selector, some selector⟩)
    | none =>
      match follower.extend? c with
      | some (n, follower) => (n, ⟨follower, none⟩)
      | none => (charWidth c, ⟨.ofChar c, none⟩)

def isQuotationMark (c : Char) : Bool :=
  c = '\u2018' || c = '\u2019' || c = '\u201c' || c = '\u201d'

def step (behind : Behind) (c : Char) : Int × Behind :=
  match behind.selector with
  | none => place behind.follower c
  | some .picture =>
    if hasPicture c then
      let isPart := behind.follower = .joined ∨ behind.follower = .joinedKeycap
      (if isPart then 0 else 2, ⟨.picture, none⟩)
    else place behind.follower.withoutSelector c
  | some .text =>
    if hasNarrowText c then (1, nothing) else place behind.follower.withoutSelector c
  | some .fullWidth =>
    if isQuotationMark c then (2, nothing) else place behind.follower.withoutSelector c

def measure (chars : List Char) : Int × Behind :=
  chars.foldr (fun c (n, behind) => ((step behind c).1 + n, (step behind c).2)) (0, nothing)

end Behind

def width (chars : List Char) : Nat :=
  (Behind.measure chars).1.toNat

end EventStream.Text
