import EventStream.Text.Split
import EventStream.Text.Width

/-!
Breaking a text into lines of limited width. Lines are broken at blanks; a word that is too long
for a line of its own is cut.
-/

set_option autoImplicit false

namespace EventStream.Text

/-- A line that is being filled: its words, the last one first, and its columns. -/
structure Line where
  words : List (List Char)
  width : Nat

namespace Line

def empty : Line :=
  ⟨[], 0⟩

def isEmpty (line : Line) : Bool :=
  line.words.isEmpty

def text (line : Line) : List Char :=
  [' '].intercalate line.words.reverse

def add (line : Line) (word : List Char) : Line :=
  if line.isEmpty then
    if word.isEmpty then empty else ⟨[word], Text.width word⟩
  else ⟨word :: line.words, line.width + 1 + Text.width word⟩

def room (limit : Nat) (line : Line) : Nat :=
  if line.isEmpty then limit else limit - line.width - 1

end Line

structure Paragraph where
  complete : List (List Char)
  line : Line

namespace Paragraph

def start : Paragraph :=
  ⟨[], .empty⟩

def finish (p : Paragraph) : Paragraph :=
  if p.line.isEmpty then p else ⟨p.line.text :: p.complete, .empty⟩

def slack : Nat := 2

def fill (limit : Nat) (p : Paragraph) (line : Line) : Paragraph :=
  let p : Paragraph := ⟨p.complete, line⟩
  if limit - slack < line.width then p.finish else p

/-- The parts of a word that are never cut, from the left. `part` is the one at hand, the last
character first, and `half` tells whether it is the first letter of a flag. -/
def partsFrom (found : List (List Char)) (part : List Char) (half : Bool) :
    List Char → List (List Char)
  | [] => (if part.isEmpty then found else part.reverse :: found).reverse
  | c :: rest =>
    let belongs :=
      isHidden c || isSkinTone c || (half && isFlagLetter c) ||
        (part.head? == some '\u200d' && hasPicture c) ||
        (part.head? == some '\u200d' && isEmoji c)
    if part.isEmpty then partsFrom found [c] (isFlagLetter c) rest
    else if belongs then partsFrom found (c :: part) false rest
    else partsFrom (part.reverse :: found) [c] (isFlagLetter c) rest

def takeParts (limit : Nat) (taken : List (List Char)) :
    List (List Char) → List (List Char) × List (List Char)
  | [] => (taken, [])
  | part :: rest =>
    let n := Text.width part
    if n ≤ limit then takeParts (limit - n) (part :: taken) rest else (taken, part :: rest)

def cut (limit : Nat) (word : List Char) : List Char × List Char :=
  let (taken, rest) := takeParts limit [] (partsFrom [] [] false word)
  (taken.reverse.flatten, rest.flatten)

/-- Puts a word on lines of its own. Every line but the last takes up text of it, so the length of
the word bounds their number. -/
def chop (limit : Nat) : Nat → List (List Char) → List Char → Paragraph
  | 0, complete, _ => ⟨complete, .empty⟩
  | bound + 1, complete, word =>
    if Text.width word ≤ limit then fill limit ⟨complete, .empty⟩ (Line.empty.add word)
    else
      match cut limit word with
      | ([], rest) => chop limit bound (rest.take 1 :: complete) (rest.drop 1)
      | (first, rest) => chop limit bound (first :: complete) rest

/-- Adds a word. It goes into the last line if there is room, at least for a part of a word that
is too long for any line. -/
def addWord (limit : Nat) (p : Paragraph) (word : List Char) : Paragraph :=
  let line := p.line.add word
  let room := p.line.room limit
  if line.width ≤ limit then fill limit p line
  else if p.line.isEmpty ∨ room ≤ slack then
    chop limit (word.length + 1) p.finish.complete word
  else if limit < Text.width word then
    let (first, rest) := cut room word
    chop limit (rest.length + 1) ((p.line.add first).text :: p.complete) rest
  else fill limit p.finish (Line.empty.add word)

end Paragraph

def wrap (limit : Nat) (chars : List Char) : List (List Char) :=
  let words := split ' ' chars
  (words.foldl (Paragraph.addWord limit) .start).finish.complete.reverse

end EventStream.Text
