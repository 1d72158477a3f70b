/-
  CatalogAudit.Text.Width.Sequence — columns that a text takes on a terminal.

  A text is as wide as its characters, but for sequences that are drawn as one: a line
  break, an emoji with its form, skin tone, tags or other emoji joined to it, and letters
  that form a ligature. What a character adds depends on what stands right after it, so
  that a text is measured from its end.

  - Emoji that are joined take two columns together, whatever their number.
  - A selector after a character asks for its emoji form (two columns), its text form (one)
    or, after a curly quote, its fullwidth form (two).
-/

import CatalogAudit.Text.Width.Ligature

namespace CatalogAudit.Text

/-! ## What stands after a character -/

/-- What the rest of a text starts with, as far as the character before it may join it. -/
inductive Follower where
  | plain
  | lineFeed
  | skinTone
  | flagLetter
  /-- Two flag letters or more. -/
  | flagLetters
  | emoji
  /-- A joiner and an emoji, which an emoji may join. -/
  | joinedEmoji
  | joinedKeycap
  | joinedFlagLetter
  | joinedFlags
  /-- An odd number of flag letters, more than one, before a joined emoji. -/
  | joinedFlagsAndLetter
  | tagEnd
  | tagLetters (count : Nat)
  | tagDigits (count : Nat)
  /-- The vowel sign e of Kirat Rai, which doubles to ai. -/
  | kiratE
  | kiratAi
  | ligature (l : Ligature)
  deriving DecidableEq, Repr

/-- The selectors that stand right after a character, and what stands after them. -/
structure Context where
  follower : Follower
  emojiForm : Bool
  textForm : Bool
  fullwidthForm : Bool
  deriving DecidableEq, Repr

/-- A follower with no selector before it. -/
def Follower.context (f : Follower) : Context := ⟨f, false, false, false⟩

/-- A selector does not come between the letters of a ligature. -/
def Follower.isLigature : Follower → Bool
  | .ligature _ => true
  | _ => false

/-- Nor does the emoji selector come between an emoji and what is joined to it. -/
def Follower.isJoined (f : Follower) : Bool := f = .joinedEmoji || f = .joinedKeycap

/-! ## Selectors -/

def emojiSelector : Char := '\uFE0F'

def textSelector : Char := '\uFE0E'

def fullwidthSelector : Char := '\uFE01'

def isCurlyQuote (c : Char) : Bool := inRanges [(0x2018, 0x2019), (0x201C, 0x201D)] c

/-- What stands after a character that has no emoji form, whatever the selector says. -/
def Context.withoutEmojiForm (a : Context) : Context :=
  if a.follower.isLigature then { a with emojiForm := false } else Follower.plain.context

/-- What stands after a character before the selector `c`, if it is one. -/
def Context.select? (a : Context) (c : Char) : Option Context :=
  let kept := if a.follower.isLigature then a else Follower.plain.context
  if c = emojiSelector then
    some { (if a.follower.isJoined then a else kept) with emojiForm := true }
  else if c = textSelector then some { kept with textForm := true }
  else if c = fullwidthSelector then some { kept with fullwidthForm := true }
  else none

/-- The columns of `c` in the form that a selector asks for, or what stands after a character
that has no such form. -/
def Context.form (a : Context) (c : Char) : Int ⊕ Context :=
  if a.textForm then
    if hasTextForm c then .inl 1 else .inr { a with textForm := false }
  else if a.fullwidthForm then
    if isCurlyQuote c then .inl 2 else .inr { a with fullwidthForm := false }
  else .inr a

/-! ## Joining -/

/-- The columns of a character that joins nothing after it, and what it is to the one before. -/
def alone (c : Char) : Int × Follower :=
  match Ligature.ofLast? c with
  | some l => (charWidth c, .ligature l)
  | none =>
    if c.toNat = 0x16D67 then (1, .kiratE)
    else if c.toNat = 0x16D68 then (1, .kiratAi)
    else if isFlagLetter c then (1, .flagLetter)
    else if isSkinTone c then (2, .skinTone)
    else if isEmoji c then (2, .emoji)
    else (charWidth c, .plain)

/-- What `c` adds to an emoji that a joiner stands before. -/
def joinEmoji? (c : Char) : Option (Int × Follower) :=
  if c = keycap then some (0, .joinedKeycap)
  else if isFlagLetter c then some (1, .joinedFlagLetter)
  else if isSkinTone c then some (0, .skinTone)
  else if c = tagEnd then some (0, .tagEnd)
  else if isEmoji c then some (0, .emoji)
  else none

/-- What `c` adds to tags that start with `letters` letters or `digits` digits. Three letters,
at most six, or three digits name a region. -/
def joinTags? (letters digits : Nat) (c : Char) : Option (Int × Follower) :=
  if isTagLetter c && digits = 0 && letters < 6 then some (0, .tagLetters (letters + 1))
  else if isTagDigit c && digits = 0 && letters < 5 then some (0, .tagDigits 1)
  else if isTagDigit c && 0 < digits && digits < 3 then some (0, .tagDigits (digits + 1))
  else if c = blackFlag && (3 ≤ letters || digits = 3) then some (0, .emoji)
  else none

/-- The columns that `c` adds to what it joins, and what it is to the character before it. -/
def Follower.join? (f : Follower) (c : Char) : Option (Int × Follower) :=
  match f with
  | .ligature l =>
    match l.join? c with
    | some (columns, rest) => some (columns, (rest.map Follower.ligature).getD .plain)
    | none => (l.within? c).map fun l => (0, .ligature l)
  | .skinTone =>
    if isModifierBase c then some (0, .emoji)
    else if c = joiner then some (0, .joinedEmoji)
    else none
  | .emoji => if c = joiner then some (0, .joinedEmoji) else none
  | .flagLetter => if isFlagLetter c then some (1, .flagLetters) else none
  | .flagLetters =>
    if isFlagLetter c then some (1, .flagLetters)
    else if c = joiner then some (0, .joinedEmoji)
    else none
  | .joinedEmoji => joinEmoji? c
  | .joinedFlagLetter => if isFlagLetter c then some (-1, .joinedFlags) else none
  | .joinedFlags =>
    if isFlagLetter c then some (3, .joinedFlagsAndLetter)
    else if c = joiner then some (0, .joinedEmoji)
    else none
  | .joinedFlagsAndLetter =>
    if isFlagLetter c then some (-1, .joinedFlags)
    else if c = joiner then some (0, .joinedEmoji)
    else none
  | .tagEnd => joinTags? 0 0 c
  | .tagLetters n => joinTags? n 0 c
  | .tagDigits n => joinTags? 0 n c
  | .kiratE =>
    if c.toNat = 0x16D63 || c.toNat = 0x16D69 then some (0, .plain)
    else if c.toNat = 0x16D67 then some (0, .kiratAi)
    else if c.toNat = 0x16D68 then some (1, .kiratE)
    else none
  | .kiratAi => if c.toNat = 0x16D63 then some (0, .plain) else none
  | _ => none

/-! ## The width of a text -/

/-- What a character beyond ASCII adds before a context whose emoji selector is settled. -/
def Context.place (a : Context) (c : Char) : Int × Context :=
  match a.select? c with
  | some context => (0, context)
  | none =>
    match a.form c with
    | .inl columns => (columns, Follower.plain.context)
    | .inr a =>
      match (if a.textForm || a.fullwidthForm then none else a.follower.join? c) with
      | some (columns, f) => (columns, f.context)
      | none => let (columns, f) := alone c; (columns, f.context)

/-- The columns that `c` adds to a text, and what it is to the character before it. -/
def Context.add (a : Context) (c : Char) : Int × Context :=
  if a.emojiForm && hasEmojiForm c then
    (if a.follower.isJoined then 0 else 2, Follower.emoji.context)
  else
    let a := if a.emojiForm then a.withoutEmojiForm else a
    if c = '\n' then (1, Follower.lineFeed.context)
    else if c = '\r' && a.follower = .lineFeed then (0, Follower.plain.context)
    else if c.toNat ≤ 0xA0 then (1, Follower.plain.context)
    else a.place c

/-- The columns of a text and what it is to a character before it. -/
def measured : List Char → Int × Context
  | [] => (0, Follower.plain.context)
  | c :: cs =>
    let (columns, context) := measured cs
    let (more, context) := context.add c
    (columns + more, context)

def width (cs : List Char) : Nat := (measured cs).1.toNat

end CatalogAudit.Text
