/-
  CatalogAudit.Text.Width.Ligature — letters that are drawn together.

  A ligature is told from its last letter on: its state says what has been seen of it, from
  the right. Ignorable marks within one change nothing, nor do joiners. An alef and the lam
  before it join without a joiner, whatever transparent signs stand between them.
-/

import CatalogAudit.Text.Width.Emoji
import CatalogAudit.Text.Width.Table

namespace CatalogAudit.Text

/-! ## Classes -/

def isLam (c : Char) : Bool :=
  inRanges [(0x0644, 0x0644), (0x06B5, 0x06B8), (0x076A, 0x076A), (0x08A6, 0x08A6),
    (0x08C7, 0x08C7)] c

def isAlef (c : Char) : Bool :=
  inRanges [(0x0622, 0x0623), (0x0625, 0x0625), (0x0627, 0x0627), (0x0671, 0x0673),
    (0x0675, 0x0675), (0x0773, 0x0774), (0x0870, 0x0882)] c

/-- Characters without a column that keep the letters around them from joining. -/
def separatingRanges : List (Nat × Nat) :=
  [(0x0605, 0x0605), (0x0890, 0x0891), (0x08E2, 0x08E2), (0x09BE, 0x09BE), (0x09D7, 0x09D7),
   (0x0B3E, 0x0B3E), (0x0B57, 0x0B57), (0x0BBE, 0x0BBE), (0x0BD7, 0x0BD7), (0x0CC0, 0x0CC0),
   (0x0CC2, 0x0CC2), (0x0CC7, 0x0CC8), (0x0CCA, 0x0CCB), (0x0CD5, 0x0CD6), (0x0D3E, 0x0D3E),
   (0x0D4E, 0x0D4E), (0x0D57, 0x0D57), (0x0DCF, 0x0DCF), (0x0DDF, 0x0DDF), (0x1160, 0x11FF),
   (0x1715, 0x1715), (0x1734, 0x1734), (0x180E, 0x180E), (0x1B35, 0x1B35), (0x1B3B, 0x1B3B),
   (0x1B3D, 0x1B3D), (0x1B43, 0x1B44), (0x1BAA, 0x1BAA), (0x1BF2, 0x1BF3), (0x200C, 0x200D),
   (0x2065, 0x2069), (0x302E, 0x302F), (0x3164, 0x3164), (0xA8FA, 0xA8FA), (0xA953, 0xA953),
   (0xA9C0, 0xA9C0), (0xD7B0, 0xD7C6), (0xD7CB, 0xD7FB), (0xFF9E, 0xFFA0), (0xFFF0, 0xFFF8),
   (0x111C0, 0x111C0), (0x111C2, 0x111C3), (0x11235, 0x11235), (0x1133E, 0x1133E),
   (0x1134D, 0x1134D), (0x11357, 0x11357), (0x113B8, 0x113B8), (0x113C2, 0x113C2),
   (0x113C5, 0x113C5), (0x113C7, 0x113C9), (0x113CF, 0x113CF), (0x113D1, 0x113D1),
   (0x114B0, 0x114B0), (0x114BD, 0x114BD), (0x115AF, 0x115AF), (0x116B6, 0x116B6),
   (0x11930, 0x11930), (0x1193D, 0x1193D), (0x1193F, 0x1193F), (0x11941, 0x11941),
   (0x11A84, 0x11A89), (0x11D46, 0x11D46), (0x11F02, 0x11F02), (0x11F41, 0x11F41),
   (0x16FF0, 0x16FF1), (0x1D165, 0x1D166), (0x1D16D, 0x1D172), (0xE0000, 0xE0000),
   (0xE0002, 0xE001F), (0xE0080, 0xE00FF), (0xE01F0, 0xE0FFF)]

/-- A sign without a column that lets the letters around it join. -/
def isTransparent (c : Char) : Bool := charWidth c == 0 && !inRanges separatingRanges c

/-- Ignorable marks. -/
def isIgnorableMark (c : Char) : Bool :=
  inRanges [(0x034F, 0x034F), (0x17B4, 0x17B5), (0x180B, 0x180D), (0x180F, 0x180F),
    (0xFE00, 0xFE0F), (0xE0100, 0xE01EF)] c

/-- Letters that the coeng sign puts below the letter before it. -/
def isKhmerSubscript (c : Char) : Bool :=
  inRanges [(0x1780, 0x1782), (0x1784, 0x1787), (0x1789, 0x178C), (0x178E, 0x1793),
    (0x1795, 0x1798), (0x179B, 0x179D), (0x17A0, 0x17A0), (0x17A2, 0x17A2), (0x17A7, 0x17A7),
    (0x17AB, 0x17AC), (0x17AF, 0x17AF)] c

def isTifinaghConsonant (c : Char) : Bool := inRanges [(0x2D31, 0x2D65), (0x2D6F, 0x2D6F)] c

/-! ## Ligatures -/

/-- What a ligature ends with; `joined` tells that a joiner stands before it. -/
inductive Ligature where
  | alef
  /-- Hebrew lamed, which an alef may join. -/
  | lamed (joined : Bool)
  /-- Buginese ya, which an a with the vowel sign i may join. -/
  | ya (joined : Bool)
  | signAndYa
  | tifinagh (joined : Bool)
  | joinerAndTifinagh
  /-- The second of two Lisu tone letters. -/
  | lisuTone
  /-- Old Turkic i, which an ec may join. -/
  | orkhonI (joined : Bool)
  /-- A letter that a coeng sign may put below. -/
  | khmerLetter
  deriving DecidableEq, Repr

/-- The ligature that may end with `c`. -/
def Ligature.ofLast? (c : Char) : Option Ligature :=
  if isAlef c then some .alef
  else if c = '\u05DC' then some (.lamed false)
  else if c = '\u1A10' then some (.ya false)
  else if isTifinaghConsonant c then some (.tifinagh false)
  else if inRanges [(0xA4FC, 0xA4FD)] c then some .lisuTone
  else if c = Char.ofNat 0x10C03 then some (.orkhonI false)
  else if isKhmerSubscript c then some .khmerLetter
  else none

def Ligature.withJoiner : Ligature → Ligature
  | .lamed _ => .lamed true
  | .ya _ => .ya true
  | .tifinagh _ => .tifinagh true
  | .orkhonI _ => .orkhonI true
  | l => l

/-- A character that stands within a ligature, and the ligature from there on. -/
def Ligature.within? (l : Ligature) (c : Char) : Option Ligature :=
  if l = .alef then if isTransparent c then some l else none
  else if c = joiner then some l.withJoiner
  else if isIgnorableMark c then some l
  else none

/-- The columns that `c` adds to the ligature after it, and the ligature that may go on. -/
def Ligature.join? (l : Ligature) (c : Char) : Option (Int × Option Ligature) :=
  match l with
  | .alef => if isLam c then some (0, none) else none
  | .lamed true => if c = '\u05D0' then some (0, none) else none
  | .khmerLetter => if c = '\u17D2' then some (-1, none) else none
  | .ya true => if c = '\u1A17' then some (0, some .signAndYa) else none
  | .signAndYa => if c = '\u1A15' then some (0, none) else none
  | .tifinagh joined =>
    if c = '\u2D7F' then some (1, some .joinerAndTifinagh)
    else if joined && isTifinaghConsonant c then some (0, none)
    else none
  | .joinerAndTifinagh => if isTifinaghConsonant c then some (-1, none) else none
  | .lisuTone => if inRanges [(0xA4F8, 0xA4FB)] c then some (0, none) else none
  | .orkhonI true => if c = Char.ofNat 0x10C32 then some (0, none) else none
  | _ => none

end CatalogAudit.Text
