/-
  CatalogAudit.Glob — wildcard patterns for relative paths.

  `?` stands for one character and `*` for any number of them, slashes included. `**`
  must be a whole path component; it stands for any number of components and takes the
  slash after it. Brackets list characters and ranges, after `!` those that are left out.
  A pattern matches a whole text or not at all.
-/

namespace CatalogAudit

namespace Glob

inductive Specifier where
  | single (c : Char)
  | range (first last : Char)
  deriving DecidableEq, Repr

def Specifier.has : Specifier → Char → Bool
  | .single d, c => c == d
  | .range first last, c => first ≤ c && c ≤ last

inductive Token where
  | char (c : Char)
  | anyChar
  | anySequence
  /-- Any number of whole components. -/
  | anyComponents
  | within (specifiers : List Specifier)
  | except (specifiers : List Specifier)
  deriving DecidableEq, Repr

/-! ## Reading a pattern -/

inductive Fault where
  | tooManyStars
  | partialComponent
  | invalidRange
  deriving DecidableEq, Repr

def Fault.message : Fault → String
  | .tooManyStars => "wildcards are either regular `*` or recursive `**`"
  | .partialComponent => "recursive wildcards must form a single path component"
  | .invalidRange => "invalid range pattern"

/-- A fault and the number of the character near which it lies. -/
structure PatternError where
  position : Nat
  fault : Fault
  deriving DecidableEq, Repr

def PatternError.message (e : PatternError) : String :=
  "Pattern syntax error near position " ++ toString e.position ++ ": " ++ e.fault.message

/-- The characters between brackets: `a-z` is a range, any other one stands for itself. -/
def specifiers : List Char → List Specifier
  | a :: '-' :: z :: cs => .range a z :: specifiers cs
  | a :: cs => .single a :: specifiers cs
  | [] => []

/-- The text up to the next closing bracket, which may not come first, and the text after it. -/
def untilBracket? : List Char → Option (List Char × List Char)
  | [] => none
  | c :: cs =>
    match cs.span (· != ']') with
    | (inside, _ :: rest) => some (c :: inside, rest)
    | (_, []) => none

/-- A bracket expression after its opening bracket. -/
def bracket? : List Char → Option (Token × List Char)
  | '!' :: cs => (untilBracket? cs).map fun (inside, rest) => (.except (specifiers inside), rest)
  | cs => (untilBracket? cs).map fun (inside, rest) => (.within (specifiers inside), rest)

/-- Two in a row mean no more than one, unless the pattern starts with them. -/
def addComponents (done : List Token) : List Token :=
  match done with
  | .anyComponents :: _ :: _ => done
  | _ => .anyComponents :: done

/-- Reads the rest of a pattern from `position` on. `previous` is the character before it and
`done` the tokens so far, last first. Every step reads a character. -/
def parseWithin : (steps : Nat) → (position : Nat) → (previous : Option Char) →
    (done : List Token) → List Char → Except PatternError (List Token)
  | 0, _, _, done, _ => .ok done.reverse
  | _ + 1, _, _, done, [] => .ok done.reverse
  | steps + 1, position, previous, done, c :: cs =>
    if c = '?' then parseWithin steps (position + 1) (some c) (.anyChar :: done) cs
    else if c = '*' then
      match cs with
      | '*' :: '*' :: _ => .error ⟨position + 2, .tooManyStars⟩
      | '*' :: rest =>
        if previous.any (· != '/') then .error ⟨position - 1, .partialComponent⟩
        else
          match rest with
          | [] => .ok (addComponents done).reverse
          | '/' :: rest => parseWithin steps (position + 3) (some '/') (addComponents done) rest
          | _ :: _ => .error ⟨position + 2, .partialComponent⟩
      | _ => parseWithin steps (position + 1) (some c) (.anySequence :: done) cs
    else if c = '[' then
      match bracket? cs with
      | some (token, rest) =>
        parseWithin steps (position + 1 + (cs.length - rest.length)) (some ']') (token :: done) rest
      | none => .error ⟨position, .invalidRange⟩
    else parseWithin steps (position + 1) (some c) (.char c :: done) cs

def parse (pattern : String) : Except PatternError (List Token) :=
  let cs := pattern.toList
  parseWithin cs.length 0 none [] cs

/-! ## Matching -/

/-- A text and all that is left of it after one, two and more characters. -/
def suffixes : List Char → List (List Char)
  | [] => [[]]
  | c :: cs => (c :: cs) :: suffixes cs

/-- What is left after each slash, and at the end. -/
def afterSlashes : List Char → List (List Char)
  | [] => [[]]
  | c :: cs => if c = '/' then cs :: afterSlashes cs else afterSlashes cs

def Token.accepts : Token → Char → Bool
  | .char d, c => c == d
  | .anyChar, _ => true
  | .within specifiers, c => specifiers.any (·.has c)
  | .except specifiers, c => !specifiers.any (·.has c)
  | .anySequence, _ => false
  | .anyComponents, _ => false

/-- What it means that tokens match a text. `matchesText` finds it out in less time. -/
def matchTokens : List Token → List Char → Bool
  | [], cs => cs.isEmpty
  | .anySequence :: tokens, cs => (suffixes cs).any (matchTokens tokens)
  | .anyComponents :: tokens, cs => (cs :: afterSlashes cs).any (matchTokens tokens)
  | _ :: _, [] => false
  | token :: tokens, c :: cs => token.accepts c && matchTokens tokens cs

/-! ## Matching at all places at once

  The answers of some tokens for a text are one for each of its suffixes. Those of one token
  more follow from them in a single pass. -/

/-- Whether the tokens match here or at any later place. -/
def answersFromHere : (answers : List Bool) → List Bool
  | [] => []
  | b :: bs =>
    let later := answersFromHere bs
    (b || later.headD false) :: later

/-- Whether the tokens match after a later slash or at the end. -/
def answersAfterSlash : List Char → (answers : List Bool) → List Bool
  | c :: cs, _ :: bs =>
    let later := answersAfterSlash cs bs
    (c == '/' && bs.headD false || later.headD false) :: later
  | _, bs => bs

/-- Whether a token for one character matches here and the others after it. -/
def answersAfterChar (token : Token) : List Char → (answers : List Bool) → List Bool
  | c :: cs, _ :: bs => (token.accepts c && bs.headD false) :: answersAfterChar token cs bs
  | _, _ => [false]

def answers : List Token → List Char → List Bool
  | [], cs => (suffixes cs).map List.isEmpty
  | .anySequence :: tokens, cs => answersFromHere (answers tokens cs)
  | .anyComponents :: tokens, cs =>
    let here := answers tokens cs
    List.zipWith (· || ·) here (answersAfterSlash cs here)
  | token :: tokens, cs => answersAfterChar token cs (answers tokens cs)

def matchesText (tokens : List Token) (cs : List Char) : Bool := (answers tokens cs).headD false

theorem headD_map_suffixes (f : List Char → Bool) (cs : List Char) :
    ((suffixes cs).map f).headD false = f cs := by
  cases cs <;> simp [suffixes]

theorem answersFromHere_map (f : List Char → Bool) (cs : List Char) :
    answersFromHere ((suffixes cs).map f) =
      (suffixes cs).map fun ds => (suffixes ds).any f := by
  induction cs with
  | nil => simp [suffixes, answersFromHere]
  | cons c cs ih =>
    simp only [suffixes, List.map_cons, answersFromHere, ih, List.any_cons]
    rw [headD_map_suffixes]

theorem answersAfterSlash_map (f : List Char → Bool) (cs : List Char) :
    answersAfterSlash cs ((suffixes cs).map f) =
      (suffixes cs).map fun ds => (afterSlashes ds).any f := by
  induction cs with
  | nil => simp [suffixes, afterSlashes, answersAfterSlash]
  | cons c cs ih =>
    simp only [suffixes, List.map_cons, answersAfterSlash, ih, headD_map_suffixes]
    by_cases h : c = '/' <;> simp [afterSlashes, h]

theorem answersAfterChar_map (token : Token) (f : List Char → Bool) (cs : List Char) :
    answersAfterChar token cs ((suffixes cs).map f) =
      (suffixes cs).map fun
        | [] => false
        | d :: ds => token.accepts d && f ds := by
  induction cs with
  | nil => simp [suffixes, answersAfterChar]
  | cons c cs ih => simp only [suffixes, List.map_cons, answersAfterChar, ih, headD_map_suffixes]

theorem zipWith_or_map (f g : List Char → Bool) (xs : List (List Char)) :
    List.zipWith (· || ·) (xs.map f) (xs.map g) = xs.map fun x => f x || g x := by
  induction xs with
  | nil => rfl
  | cons x xs ih => simp [ih]

theorem answers_eq (tokens : List Token) (cs : List Char) :
    answers tokens cs = (suffixes cs).map (matchTokens tokens) := by
  induction tokens with
  | nil => simp [answers, matchTokens]
  | cons token tokens ih =>
    cases token with
    | anySequence => simp [answers, ih, answersFromHere_map, matchTokens]
    | anyComponents =>
      rw [answers, ih, answersAfterSlash_map, zipWith_or_map]
      simp [matchTokens]
    | char d =>
      rw [answers, ih, answersAfterChar_map]
      · congr 1
        funext ds
        cases ds <;> simp [matchTokens]
      all_goals simp
    | anyChar =>
      rw [answers, ih, answersAfterChar_map]
      · congr 1
        funext ds
        cases ds <;> simp [matchTokens]
      all_goals simp
    | within specifiers =>
      rw [answers, ih, answersAfterChar_map]
      · congr 1
        funext ds
        cases ds <;> simp [matchTokens]
      all_goals simp
    | except specifiers =>
      rw [answers, ih, answersAfterChar_map]
      · congr 1
        funext ds
        cases ds <;> simp [matchTokens]
      all_goals simp

/-- Matching at all places at once finds what matching means. -/
theorem matchesText_eq (tokens : List Token) (cs : List Char) :
    matchesText tokens cs = matchTokens tokens cs := by
  rw [matchesText, answers_eq, headD_map_suffixes]

end Glob

end CatalogAudit
