/-!
# Blank characters and letter case

White space in the sense of the Unicode property of that name, and texts without it at either
end. Names, import texts and list items are compared after trimming, so this set decides which
of them count as empty.

Setting values such as `package-root` may also be written in capitals. The lowercase form of a word
is compared with ASCII words only, and one character outside ASCII has an ASCII lowercase form:
the Kelvin sign, which becomes `k`. Every other character outside ASCII stays outside it, so it
never takes part in a match.

## Main definitions

* `Text.isBlank`: the white space characters
* `Text.trim`: a text without the blanks at its two ends
* `Text.foldChar`, `Text.fold`: the lowercase form, as far as ASCII words can tell
-/

namespace ImportAtlas.Text

/-- Whether a character is white space: the tab to carriage return range, the space, the next-line
and no-break characters, and the spaces and separators of general punctuation. -/
def isBlank (c : Char) : Bool :=
  let n := c.toNat
  (0x09 ≤ n && n ≤ 0x0D) || n == 0x20 || n == 0x85 || n == 0xA0 || n == 0x1680 ||
    (0x2000 ≤ n && n ≤ 0x200A) || n == 0x2028 || n == 0x2029 || n == 0x202F || n == 0x205F ||
    n == 0x3000

/-- The characters without the blanks at their two ends. -/
def trimChars (cs : List Char) : List Char :=
  ((cs.dropWhile isBlank).reverse.dropWhile isBlank).reverse

/-- The text without the blanks at its two ends. -/
def trim (s : String) : String :=
  String.ofList (trimChars s.toList)

/-- A text with no blank at either end is trimmed. -/
theorem trimChars_eq_self {cs : List Char} (hfirst : ∀ c ∈ cs.head?, isBlank c = false)
    (hlast : ∀ c ∈ cs.getLast?, isBlank c = false) : trimChars cs = cs := by
  have hkeep : ∀ {text : List Char}, (∀ c ∈ text.head?, isBlank c = false) →
      text.dropWhile isBlank = text := by
    intro text h
    cases text with
    | nil => rfl
    | cons c text => rw [List.dropWhile_cons, h c rfl, if_neg Bool.false_ne_true]
  unfold trimChars
  rw [hkeep hfirst, hkeep (by rwa [List.head?_reverse]), List.reverse_reverse]

/-- Whether a text holds nothing but blanks. -/
def isBlankText (s : String) : Bool :=
  s.toList.all isBlank

/-! ## Letter case -/

/-- The Kelvin sign. -/
def kelvinSign : Char := '\u212A'

/-- The lowercase form of a character where that form is ASCII, and the character itself
otherwise. -/
def foldChar (c : Char) : Char :=
  if c = kelvinSign then 'k' else c.toLower

/-- The text with each character folded to its lowercase form where that form is ASCII. -/
def fold (s : String) : String :=
  String.ofList (s.toList.map foldChar)

end ImportAtlas.Text
