import SparseTiling.Text.Emoji
import SparseTiling.Text.Wide

/-!
# Display width

How many columns a text takes. A text of ASCII takes one for each character, a line
break included. In any other text the widths of the characters add up, except where
neighbours are drawn as one: pictures that are joined, letters that form a ligature,
a character with a selector after it, and the two characters of a line break.

A text is read from its end, because what a character takes depends on what comes
after it. `Ahead` is what has to be known about that.

* `Context.place`: the columns that a character adds in front of a text.
* `width`: the columns of a text.
* `width_ascii`: a text of ASCII is as wide as it is long.
-/

namespace SparseTiling.Text

/-- What a text starts with, as far as a character in front of it can join it. -/
inductive Ahead
  /-- Nothing that joins. -/
  | plain
  | lineFeed
  /-- A skin tone. -/
  | tone
  /-- A single letter of a flag. -/
  | region
  /-- Several letters of flags. -/
  | regions
  /-- A picture. -/
  | picture
  /-- A joiner and a picture. -/
  | joined
  /-- A keycap, a joiner and a picture. -/
  | joinedKeycap
  /-- A letter of a flag, a joiner and a picture. -/
  | joinedRegion
  /-- An even number of letters of flags, a joiner and a picture. -/
  | joinedEven
  /-- An odd number of letters of flags, three or more, a joiner and a picture. -/
  | joinedOdd
  /-- Some letters of a tag, the end of the tag, a joiner and a picture. -/
  | tagLetters (count : Nat)
  /-- Some digits of a tag, perhaps letters, the end of the tag, a joiner and a picture. -/
  | tagDigits (count : Nat)
  /-- The Kirat Rai vowel sign e. -/
  | signE
  /-- The Kirat Rai vowel sign ai, or e twice. -/
  | signAi
  /-- An Arabic alef. -/
  | alef
  /-- A Hebrew lamed, perhaps after a joiner. -/
  | lamed (joiner : Bool)
  /-- A Buginese ya, perhaps after a joiner. -/
  | ya (joiner : Bool)
  /-- A Buginese vowel sign i, a joiner and ya. -/
  | signIYa
  /-- A Tifinagh consonant, perhaps after a joiner. -/
  | consonant (joiner : Bool)
  /-- The Tifinagh consonant joiner and a consonant. -/
  | joinedConsonant
  /-- A Lisu tone letter that can be the second of two. -/
  | secondTone
  /-- An Old Turkic i, perhaps after a joiner. -/
  | orkhonI (joiner : Bool)
  /-- A Khmer letter that has a form below the line. -/
  | subscript
  deriving DecidableEq

namespace Ahead

/-- Whether marks that are not drawn by themselves leave a ligature as it is. -/
def isOpen : Ahead → Bool
  | .lamed _ | .ya _ | .signIYa | .consonant _ | .joinedConsonant | .secondTone | .orkhonI _
  | .subscript => true
  | _ => false

/-- Whether a selector in front of it leaves a letter able to join. -/
def isLetter (a : Ahead) : Bool := a = .alef || a.isOpen

/-- Whether a picture in front of it would be joined. -/
def isJoined : Ahead → Bool
  | .joined | .joinedKeycap => true
  | _ => false

/-- A joiner in front of a letter. -/
def withJoiner : Ahead → Ahead
  | .lamed _ => .lamed true
  | .ya _ => .ya true
  | .consonant _ => .consonant true
  | .orkhonI _ => .orkhonI true
  | a => a

/-- Whether a character is an Arabic alef. -/
def isAlef (c : Char) : Bool :=
  inRanges [(0x622, 0x623), (0x625, 0x625), (0x627, 0x627), (0x671, 0x673), (0x675, 0x675),
    (0x773, 0x774), (0x870, 0x882)] c

/-- Whether a character is a Khmer letter that has a form below the line. -/
def hasSubscript (c : Char) : Bool :=
  inRanges [(0x1780, 0x1782), (0x1784, 0x1787), (0x1789, 0x178C), (0x178E, 0x1793),
    (0x1795, 0x1798), (0x179B, 0x179D), (0x17A0, 0x17A0), (0x17A2, 0x17A2), (0x17A7, 0x17A7),
    (0x17AB, 0x17AC), (0x17AF, 0x17AF)] c

/-- Whether a character is a Tifinagh consonant. -/
def isConsonant (c : Char) : Bool := inRanges [(0x2D31, 0x2D65), (0x2D6F, 0x2D6F)] c

/-- What a character is for those in front of it. -/
def ofChar (c : Char) : Ahead :=
  if isPicture c then .picture
  else if isTone c then .tone
  else if isRegion c then .region
  else if isAlef c then .alef
  else if hasSubscript c then .subscript
  else if isConsonant c then .consonant false
  else if inRanges [(0xA4FC, 0xA4FD)] c then .secondTone
  else match c.toNat with
    | 0x5DC => .lamed false
    | 0x1A10 => .ya false
    | 0x10C03 => .orkhonI false
    | 0x16D67 => .signE
    | 0x16D68 => .signAi
    | _ => .plain

/-- The ranges of characters without a column that keep letters of Arabic apart. -/
def separatingRanges : List (Nat × Nat) :=
  [(0x605, 0x605), (0x890, 0x891), (0x8E2, 0x8E2), (0x9BE, 0x9BE), (0x9D7, 0x9D7), (0xB3E, 0xB3E),
    (0xB57, 0xB57), (0xBBE, 0xBBE), (0xBD7, 0xBD7), (0xCC0, 0xCC0), (0xCC2, 0xCC2), (0xCC7, 0xCC8),
    (0xCCA, 0xCCB), (0xCD5, 0xCD6), (0xD3E, 0xD3E), (0xD4E, 0xD4E), (0xD57, 0xD57), (0xDCF, 0xDCF),
    (0xDDF, 0xDDF), (0x1160, 0x11FF), (0x1715, 0x1715), (0x1734, 0x1734), (0x180E, 0x180E),
    (0x1B35, 0x1B35), (0x1B3B, 0x1B3B), (0x1B3D, 0x1B3D), (0x1B43, 0x1B44), (0x1BAA, 0x1BAA),
    (0x1BF2, 0x1BF3), (0x200C, 0x200D), (0x2065, 0x2069), (0x302E, 0x302F), (0x3164, 0x3164),
    (0xA8FA, 0xA8FA), (0xA953, 0xA953), (0xA9C0, 0xA9C0), (0xD7B0, 0xD7C6), (0xD7CB, 0xD7FB),
    (0xFFA0, 0xFFA0), (0xFFF0, 0xFFF8), (0x111C0, 0x111C0), (0x111C2, 0x111C3), (0x11235, 0x11235),
    (0x1133E, 0x1133E), (0x1134D, 0x1134D), (0x11357, 0x11357), (0x113B8, 0x113B8),
    (0x113C2, 0x113C2), (0x113C5, 0x113C5), (0x113C7, 0x113C9), (0x113CF, 0x113CF),
    (0x113D1, 0x113D1), (0x114B0, 0x114B0), (0x114BD, 0x114BD), (0x115AF, 0x115AF),
    (0x116B6, 0x116B6), (0x11930, 0x11930), (0x1193D, 0x1193D), (0x1193F, 0x1193F),
    (0x11941, 0x11941), (0x11A84, 0x11A89), (0x11D46, 0x11D46), (0x11F02, 0x11F02),
    (0x11F41, 0x11F41), (0x16FF0, 0x16FF1), (0x1D165, 0x1D166), (0x1D16D, 0x1D172),
    (0x1D250, 0x1D252), (0x1D25F, 0x1D25F), (0x1D280, 0x1D281), (0xE0000, 0xE0000),
    (0xE0002, 0xE001F), (0xE0080, 0xE00FF), (0xE01F0, 0xE0FFF)]

/-- Whether letters of Arabic join across a character. -/
def isTransparent (c : Char) : Bool := charWidth c = 0 && !inRanges separatingRanges c

/-- Whether a character is an Arabic lam. -/
def isLam (c : Char) : Bool :=
  inRanges [(0x644, 0x644), (0x6B5, 0x6B8), (0x76A, 0x76A), (0x8A6, 0x8A6), (0x8C7, 0x8C7)] c

/-- What a character does in front of a joiner and a picture. -/
def joinPicture (c : Char) : Option (Int × Ahead) :=
  if c = '\u20e3' then some (0, .joinedKeycap)
  else if isRegion c then some (1, .joinedRegion)
  else if isTone c then some (0, .tone)
  else if c.toNat = 0xE007F then some (0, .tagLetters 0)
  else if isPicture c then some (0, .picture)
  else none

/-- What a character does in front of the letters of a tag. Two letters for a country
and one to four more characters name a region of it. -/
def joinTagLetters (count : Nat) (c : Char) : Option (Int × Ahead) :=
  if inRanges [(0xE0061, 0xE007A)] c && count < 6 then some (0, .tagLetters (count + 1))
  else if inRanges [(0xE0030, 0xE0039)] c && count < 5 then some (0, .tagDigits 1)
  else if c.toNat = 0x1F3F4 && 3 ≤ count then some (0, .picture)
  else none

/-- What a character does in front of the digits of a tag. -/
def joinTagDigits (count : Nat) (c : Char) : Option (Int × Ahead) :=
  if inRanges [(0xE0030, 0xE0039)] c && count < 3 then some (0, .tagDigits (count + 1))
  else if c.toNat = 0x1F3F4 && 3 ≤ count then some (0, .picture)
  else none

/-- What a character does that is drawn as one with what comes after it: the columns
that it adds, and what the text starts with then. -/
def join (a : Ahead) (c : Char) : Option (Int × Ahead) :=
  if a.isOpen && c = '\u200d' then some (0, a.withJoiner)
  else if a.isOpen && isIgnorableMark c then some (0, a)
  else match a with
    | .plain | .lineFeed | .lamed false | .ya false | .orkhonI false | .joinedKeycap => none
    | .alef =>
      if isLam c then some (0, .plain)
      else if isTransparent c then some (0, .alef)
      else none
    | .lamed true => if c = '\u05d0' then some (0, .plain) else none
    | .subscript => if c = '\u17d2' then some (-1, .plain) else none
    | .ya true => if c = '\u1a17' then some (0, .signIYa) else none
    | .signIYa => if c = '\u1a15' then some (0, .plain) else none
    | .consonant joiner =>
      if c = '\u2d7f' then some (1, .joinedConsonant)
      else if joiner && isConsonant c then some (0, .plain)
      else none
    | .joinedConsonant => if isConsonant c then some (-1, .plain) else none
    | .secondTone => if inRanges [(0xA4F8, 0xA4FB)] c then some (0, .plain) else none
    | .orkhonI true => if c.toNat = 0x10C32 then some (0, .plain) else none
    | .tone =>
      if isToneBase c then some (0, .picture)
      else if c = '\u200d' then some (0, .joined)
      else none
    | .region => if isRegion c then some (1, .regions) else none
    | .regions =>
      if isRegion c then some (1, .regions)
      else if c = '\u200d' then some (0, .joined)
      else none
    | .picture => if c = '\u200d' then some (0, .joined) else none
    | .joined => joinPicture c
    | .joinedRegion => if isRegion c then some (-1, .joinedEven) else none
    | .joinedEven =>
      if isRegion c then some (3, .joinedOdd)
      else if c = '\u200d' then some (0, .joined)
      else none
    | .joinedOdd =>
      if isRegion c then some (-1, .joinedEven)
      else if c = '\u200d' then some (0, .joined)
      else none
    | .tagLetters count => joinTagLetters count c
    | .tagDigits count => joinTagDigits count c
    | .signE => match c.toNat with
      | 0x16D63 | 0x16D69 => some (0, .plain)
      | 0x16D67 => some (0, .signAi)
      | 0x16D68 => some (1, .signE)
      | _ => none
    | .signAi => if c.toNat = 0x16D63 then some (0, .plain) else none

end Ahead

/-- What a selector asks of the character in front of it. -/
inductive Selector
  /-- A quotation mark of full width. -/
  | full
  /-- The plain form of a picture. -/
  | plain
  /-- The picture. -/
  | picture
  deriving DecidableEq

/-- The selector that a character is. -/
def Selector.ofChar? (c : Char) : Option Selector :=
  match c.toNat with
  | 0xFE01 => some .full
  | 0xFE0E => some .plain
  | 0xFE0F => some .picture
  | _ => none

/-- What a text starts with: perhaps selectors, and what comes after them. -/
structure Context where
  ahead : Ahead := .plain
  /-- The selectors that a character in front of the text has to look at. -/
  selectors : List Selector := []
  deriving DecidableEq

namespace Context

/-- What a character joins that the selectors say nothing to. -/
def unselected (x : Context) : Ahead :=
  if x.selectors.isEmpty || x.ahead.isLetter then x.ahead else .plain

/-- The selectors that stay in force when another one comes in front of them: those of
plain form and full width, in front of a letter. -/
def lasting (x : Context) : List Selector :=
  if x.ahead.isLetter then x.selectors.filter (· ≠ .picture) else []

/-- A selector in front of a text. -/
def select (x : Context) (s : Selector) : Context :=
  let a := x.unselected
  { ahead := if a.isLetter || (s = .picture && a.isJoined) then a else .plain
    selectors := x.lasting.insert s }

/-- What selectors do to the character in front of them. The picture comes before the
plain form, and that before the full width. -/
def selected (x : Context) (c : Char) : Option (Int × Context) :=
  if .picture ∈ x.selectors ∧ takesPictureForm c then
    some (if x.ahead.isJoined then 0 else 2, { ahead := .picture })
  else if .plain ∈ x.selectors ∧ takesPlainForm c then some (1, {})
  else if .full ∈ x.selectors ∧ inRanges [(0x2018, 0x2019), (0x201C, 0x201D)] c then some (2, {})
  else none

/-- **The columns that a character adds in front of a text,** and what the text starts
with then. -/
def place (x : Context) (c : Char) : Int × Context :=
  match x.selected c with
  | some placed => placed
  | none =>
    if c = '\n' then (1, { ahead := .lineFeed })
    else if c = '\r' ∧ x = { ahead := .lineFeed } then (0, {})
    else if c.toNat ≤ 0xA0 then (1, {})
    else match Selector.ofChar? c with
      | some s => (0, x.select s)
      | none =>
        match x.unselected.join c with
        | some (columns, ahead) => (columns, { ahead })
        | none => (charWidth c, { ahead := .ofChar c })

end Context

/-- The columns of characters, and what they start with. -/
def measure (cs : List Char) : Int × Context :=
  cs.foldr (fun c done =>
    let (columns, x) := done.2.place c
    (done.1 + columns, x)) (0, {})

/-- Whether a text is of ASCII. -/
def isAscii (s : String) : Bool := s.toList.all (·.toNat < 0x80)

/-- **The columns of a text.** -/
def width (s : String) : Nat := if isAscii s then s.length else (measure s.toList).1.toNat

theorem width_empty : width "" = 0 := rfl

/-- **A text of ASCII characters is as wide as it is long.** -/
theorem width_ascii {s : String} (h : ∀ c ∈ s.toList, c.toNat < 0x80) : width s = s.length := by
  have : isAscii s = true := by simpa [isAscii] using h
  rw [width, if_pos this]

end SparseTiling.Text
