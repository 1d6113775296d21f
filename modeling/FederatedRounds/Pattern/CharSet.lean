import FederatedRounds.Text.Blank
import FederatedRounds.Text.Visible
/-! Sets of characters as patterns name them: ranges, kinds, and what is made of sets. Letters and
digits beyond ASCII are known by the blocks that they stand in. -/
namespace FederatedRounds.Pattern

inductive Kind where
  | digit
  | blank
  | word
deriving DecidableEq

inductive CharSet where
  | nothing
  | range (first last : Char)
  | kind (k : Kind)
  | union (a b : CharSet)
  | intersection (a b : CharSet)
  | difference (a b : CharSet)
  | complement (a : CharSet)
  | anyCase (ascii : Bool) (a : CharSet)
deriving DecidableEq

/-- The digit zero of every script. The other nine follow it. -/
def zeros : List Nat :=
  [0x30, 0x660, 0x6f0, 0x7c0, 0x966, 0x9e6, 0xa66, 0xae6, 0xb66, 0xbe6, 0xc66, 0xce6, 0xd66, 0xde6,
   0xe50, 0xed0, 0xf20, 0x1040, 0x1090, 0x17e0, 0x1810, 0x1946, 0x19d0, 0x1a80, 0x1a90, 0x1b50,
   0x1bb0, 0x1c40, 0x1c50, 0xa620, 0xa8d0, 0xa900, 0xa9d0, 0xa9f0, 0xaa50, 0xabf0, 0xff10, 0x104a0,
   0x10d30, 0x10d40, 0x11066, 0x110f0, 0x11136, 0x111d0, 0x112f0, 0x11450, 0x114d0, 0x11650,
   0x116c0, 0x116d0, 0x116da, 0x11730, 0x118e0, 0x11950, 0x11bf0, 0x11c50, 0x11d50, 0x11da0,
   0x11de0, 0x11f50, 0x16130, 0x16a60, 0x16ac0, 0x16b50, 0x16d70, 0x1ccf0, 0x1d7ce, 0x1d7d8,
   0x1d7e2, 0x1d7ec, 0x1d7f6, 0x1e140, 0x1e2f0, 0x1e4f0, 0x1e5f1, 0x1e950, 0x1fbf0]

def isDigit (c : Char) : Bool := zeros.any fun first => first ≤ c.toNat && c.toNat < first + 10

/-- Runs of signs that are no part of words, among the visible characters beyond ASCII. -/
def signRuns : List (Nat × Nat) :=
  [(0xa1, 0xa9), (0xab, 0xb4), (0xb6, 0xb9), (0xbb, 0xbf), (0xd7, 0xd7), (0xf7, 0xf7),
   (0x2000, 0x206f), (0x20a0, 0x20cf), (0x2190, 0x2bff), (0x2e00, 0x2fff), (0x3000, 0x3004),
   (0x3008, 0x3020), (0x3030, 0x3030), (0x303d, 0x303f), (0xfe10, 0xfe6f), (0xff01, 0xff0f),
   (0xff1a, 0xff20), (0xff3b, 0xff40), (0xff5b, 0xff65), (0xffe0, 0xffff), (0x1d000, 0x1d3ff),
   (0x1f000, 0x1faff)]

def isLetter (c : Char) : Bool :=
  c.isAlpha ||
    (128 ≤ c.toNat && Text.isVisible c && !isDigit c &&
      !signRuns.any fun (first, last) => first ≤ c.toNat && c.toNat ≤ last)

def Kind.contains : Kind → Char → Bool
  | digit, c => isDigit c
  | blank, c => Text.isBlank c
  | word, c => isLetter c || isDigit c || c = '_'

/-- Letters of two cases at the same distance everywhere: first and last code points of the upper
case, and the distance. -/
def casePairs : List (Nat × Nat × Nat) :=
  [(0x41, 0x5a, 32), (0xc0, 0xd6, 32), (0xd8, 0xde, 32), (0x391, 0x3a1, 32), (0x3a3, 0x3ab, 32),
   (0x400, 0x40f, 80), (0x410, 0x42f, 32)]

/-- Letters beyond ASCII that are other forms of letters. -/
def forms : List (Char × List Char) :=
  [('\u212a', ['k', 'K']), ('\u017f', ['s', 'S']), ('\u212b', ['\u00e5', '\u00c5']),
   ('\u00b5', ['\u03bc', '\u039c']), ('\u03c2', ['\u03c3', '\u03a3']), ('\u00df', ['\u1e9e']),
   ('\u00ff', ['\u0178'])]

/-- A character and all that differ from it in case alone. -/
def cases (c : Char) : List Char :=
  let n := c.toNat
  let paired := casePairs.filterMap fun (first, last, distance) =>
    if first ≤ n ∧ n ≤ last then some (Char.ofNat (n + distance))
    else if first + distance ≤ n ∧ n ≤ last + distance then some (Char.ofNat (n - distance))
    else none
  let formed := forms.flatMap fun (form, letters) =>
    if form = c then letters else if letters.contains c then [form] else []
  c :: (paired ++ formed)

namespace CharSet

def ofChar (c : Char) : CharSet := .range c c

def ofChars (text : String) : CharSet :=
  text.toList.foldr (fun c set => .union (ofChar c) set) .nothing

def unions (sets : List CharSet) : CharSet := sets.foldr .union .nothing

def all : CharSet := .complement .nothing

def contains : CharSet → Char → Bool
  | nothing, _ => false
  | range first last, c => first ≤ c && c ≤ last
  | kind k, c => k.contains c
  | union a b, c => a.contains c || b.contains c
  | intersection a b, c => a.contains c && b.contains c
  | difference a b, c => a.contains c && !b.contains c
  | complement a, c => !a.contains c
  | anyCase ascii a, c =>
    (cases c).any fun form =>
      a.contains form && (form = c || !ascii || (form.val < 128 && c.val < 128))

end CharSet
end FederatedRounds.Pattern
