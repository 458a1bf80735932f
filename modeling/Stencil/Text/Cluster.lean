import Stencil.Text.Classes

/-!
# Grapheme Clusters

What a reader takes for one character can be several: a letter with its accents, the
parts of a Korean syllable, two letters that make a flag, pictures joined into one. A
text falls into such clusters by the boundary rules of Unicode for extended grapheme
clusters.

Whether there is a boundary between two characters depends on their classes, and in
three cases on what stands in front of them: a flag takes two letters and no more, a
joiner joins pictures only, and a linker consonants only. `Context` keeps what these
cases need, so one pass from front to back finds all boundaries.

## Main definitions

* `BreakClass`: What a character is to the boundary rules.
* `Context`: What the characters so far end with, as far as later ones depend on it.
* `joins`: There is no boundary between two neighbours.
* `clusters`: The clusters of some characters.
-/

namespace Stencil

namespace Text

/-- What a character is to the boundary rules. -/
inductive BreakClass
  | carriageReturn
  | lineFeed
  /-- A control or format character, which stands alone. -/
  | control
  /-- A mark on the character before it. -/
  | extender
  /-- A mark that joins two consonants. -/
  | linker
  /-- The mark that keeps its neighbours from being joined. -/
  | separator
  /-- The mark that joins its neighbours. -/
  | joiner
  | spacing
  /-- A character that belongs to the one behind it. -/
  | prepended
  /-- One of the two letters of a flag. -/
  | regional
  /-- The consonant that a Korean syllable starts with. -/
  | leading
  | vowel
  /-- The consonant that a Korean syllable ends with. -/
  | trailing
  /-- A whole syllable that ends with its vowel. -/
  | openSyllable
  /-- A whole syllable that ends with a consonant. -/
  | closedSyllable
  | pictograph
  | consonant
  | other
deriving Repr, DecidableEq

/-- The controls and format characters that stand alone, in increasing order. -/
def controlTable : List CodeRange :=
  [⟨0x0, 0x9⟩, ⟨0xb, 0xc⟩, ⟨0xe, 0x1f⟩, ⟨0x7f, 0x9f⟩, ⟨0xad, 0xad⟩, ⟨0x61c, 0x61c⟩,
   ⟨0x180e, 0x180e⟩, ⟨0x200b, 0x200b⟩, ⟨0x200e, 0x200f⟩, ⟨0x2028, 0x202e⟩, ⟨0x2060, 0x206f⟩,
   ⟨0xfeff, 0xfeff⟩, ⟨0xfff0, 0xfffb⟩, ⟨0x13430, 0x1343f⟩, ⟨0x1bca0, 0x1bca3⟩,
   ⟨0x1d173, 0x1d17a⟩, ⟨0xe0000, 0xe001f⟩, ⟨0xe0080, 0xe00ff⟩, ⟨0xe01f0, 0xe0fff⟩]

/-- The characters that belong to the one behind them, in increasing order. -/
def prependedTable : List CodeRange :=
  [⟨0x600, 0x605⟩, ⟨0x6dd, 0x6dd⟩, ⟨0x70f, 0x70f⟩, ⟨0x890, 0x891⟩, ⟨0x8e2, 0x8e2⟩,
   ⟨0xd4e, 0xd4e⟩, ⟨0x110bd, 0x110bd⟩, ⟨0x110cd, 0x110cd⟩, ⟨0x111c2, 0x111c3⟩,
   ⟨0x113d1, 0x113d1⟩, ⟨0x1193f, 0x1193f⟩, ⟨0x11941, 0x11941⟩, ⟨0x11a84, 0x11a89⟩,
   ⟨0x11d46, 0x11d46⟩, ⟨0x11f02, 0x11f02⟩]

/-- The letters of flags. -/
def regionalTable : List CodeRange :=
  [⟨0x1f1e6, 0x1f1ff⟩]

/-- The leading consonants of syllables, in increasing order. -/
def leadingTable : List CodeRange :=
  [⟨0x1100, 0x115f⟩, ⟨0xa960, 0xa97c⟩]

/-- The vowels of syllables, in increasing order. -/
def vowelTable : List CodeRange :=
  [⟨0x1160, 0x11a7⟩, ⟨0xd7b0, 0xd7c6⟩, ⟨0x16d63, 0x16d63⟩, ⟨0x16d67, 0x16d6a⟩]

/-- The trailing consonants of syllables, in increasing order. -/
def trailingTable : List CodeRange :=
  [⟨0x11a8, 0x11ff⟩, ⟨0xd7cb, 0xd7fb⟩]

/-- The whole syllables. -/
def syllableTable : List CodeRange :=
  [⟨0xac00, 0xd7a3⟩]

/-- The modifiers that give a picture its skin tone. -/
def modifierTable : List CodeRange :=
  [⟨0x1f3fb, 0x1f3ff⟩]

/-- The class of a whole syllable. After each one that ends with its vowel stand the
    27 that have a trailing consonant besides. -/
def syllableClass (c : Char) : BreakClass :=
  if (c.toNat - 0xac00) % 28 = 0 then .openSyllable else .closedSyllable

/-- What a character is to the boundary rules. -/
def breakClass (c : Char) : BreakClass :=
  if c = '\r' then .carriageReturn
  else if c = '\n' then .lineFeed
  else if c = '\u200c' then .separator
  else if c = '\u200d' then .joiner
  else if inTable controlTable c then .control
  else if isLinker c then .linker
  else if isExtender c || inTable modifierTable c then .extender
  else if isSpacing c then .spacing
  else if inTable prependedTable c then .prepended
  else if inTable regionalTable c then .regional
  else if inTable leadingTable c then .leading
  else if inTable vowelTable c then .vowel
  else if inTable trailingTable c then .trailing
  else if inTable syllableTable c then syllableClass c
  else if isPictograph c then .pictograph
  else if isConsonant c then .consonant
  else .other

/-- What the characters so far end with, as far as later boundaries depend on it. -/
inductive Context
  | plain
  /-- An odd number of letters of flags. -/
  | halfFlag
  /-- A pictograph and any marks on it. -/
  | picture
  /-- A pictograph, any marks on it, and a joiner. -/
  | joinedPicture
  /-- A consonant and any marks on it, none of them a linker. -/
  | consonant
  /-- A consonant and marks on it, a linker among them. -/
  | linkedConsonant
deriving Repr, DecidableEq

namespace Context

/-- The context after one more character. -/
def after (x : Context) : BreakClass → Context
  | .regional => if x = halfFlag then plain else halfFlag
  | .pictograph => picture
  | .consonant => consonant
  | .extender =>
    match x with
    | picture => picture
    | consonant => consonant
    | linkedConsonant => linkedConsonant
    | _ => plain
  | .linker =>
    match x with
    | picture => picture
    | consonant | linkedConsonant => linkedConsonant
    | _ => plain
  | .separator => if x = picture then picture else plain
  | .joiner =>
    match x with
    | picture => joinedPicture
    | consonant => consonant
    | linkedConsonant => linkedConsonant
    | _ => plain
  | _ => plain

end Context

/-- There is no boundary between two neighbours, given their classes and the context
    that ends with the first. -/
def joins (x : Context) : BreakClass → BreakClass → Bool
  | .carriageReturn, .lineFeed => true
  | .control, _ | .carriageReturn, _ | .lineFeed, _ => false
  | _, .control | _, .carriageReturn | _, .lineFeed => false
  | .leading, .leading | .leading, .vowel | .leading, .openSyllable
  | .leading, .closedSyllable => true
  | .openSyllable, .vowel | .openSyllable, .trailing | .vowel, .vowel | .vowel, .trailing => true
  | .closedSyllable, .trailing | .trailing, .trailing => true
  | _, .extender | _, .linker | _, .separator | _, .joiner | _, .spacing => true
  | .prepended, _ => true
  | _, .consonant => x = .linkedConsonant
  | _, .pictograph => x = .joinedPicture
  | _, .regional => x = .halfFlag
  | _, _ => false

/-- The clusters of characters behind a first one. The characters of the cluster that
    is not yet complete are given in reverse, with the context and the class that they
    end with. -/
def clustersFrom (x : Context) (last : BreakClass) (cluster : List Char) :
    List Char → List (List Char)
  | [] => [cluster.reverse]
  | c :: cs =>
    if joins x last (breakClass c) then
      clustersFrom (x.after (breakClass c)) (breakClass c) (c :: cluster) cs
    else
      cluster.reverse :: clustersFrom (x.after (breakClass c)) (breakClass c) [c] cs

/-- The clusters of some characters. -/
def clusters : List Char → List (List Char)
  | [] => []
  | c :: cs => clustersFrom (Context.plain.after (breakClass c)) (breakClass c) [c] cs

end Text

end Stencil
