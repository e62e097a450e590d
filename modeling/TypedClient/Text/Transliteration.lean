import TypedClient.Text.Case

/-!
Spelling text in ASCII, one character at a time. ASCII characters stand for themselves, and a
character without a spelling is left out.
-/

namespace TypedClient.Text

def asciiSpellings : List (Char × String) :=
  [('\u00a0', " "), ('«', "<<"), ('²', "2"), ('·', "-"), ('»', ">>"), ('½', "1/2"), ('À', "A"),
   ('Æ', "Ae"), ('É', "E"), ('Ñ', "N"), ('Ø', "O"), ('Ü', "U"), ('ß', "ss"), ('å', "a"),
   ('é', "e"), ('ï', "i"), ('ú', "u"), ('ü', "u"), ('İ', "I"), ('ı', "i"), ('ŉ', "'n"),
   ('œ', "oe"), ('ǆ', "dz"), ('\u0301', ""), ('Α', "A"), ('Β', "V"), ('Γ', "G"), ('Σ', "S"),
   ('α', "a"), ('β', "v"), ('γ', "g"), ('М', "M"), ('П', "P"), ('в', "v"), ('е', "e"),
   ('и', "i"), ('р', "r"), ('т', "t"), ('٣', "3"), ('٤', "4"), ('ẞ', "Ss"), ('\u2003', " "),
   ('\u200b', ""), ('—', "-"), ('№', "No"), ('ⅷ', "viii"), ('日', "Ri"), ('本', "Ben"),
   ('語', "Yu"), ('ﬁ', "fi"), ('\ufeff', ""), ('ｆ', "f"), ('ｌ', "l"), ('ｕ', "u"),
   ('😀', ":grinning:")]

def asciiSpelling (c : Char) : Text :=
  if isAscii c then [c] else ((asciiSpellings.lookup c).map String.toList).getD []

def toAscii (text : Text) : Text := text.flatMap asciiSpelling

theorem toAscii_eq_self {text : Text} (ascii : ∀ c ∈ text, isAscii c = true) :
    toAscii text = text := by
  induction text with
  | nil => rfl
  | cons c rest ih =>
    simp only [List.mem_cons, forall_eq_or_imp] at ascii
    have tail := ih ascii.2
    simp only [toAscii, List.flatMap_cons, asciiSpelling, ascii.1, if_true] at tail ⊢
    simpa using tail

end TypedClient.Text
