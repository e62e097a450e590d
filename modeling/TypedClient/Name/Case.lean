import TypedClient.Text.Transliteration

/-!
Names put into another letter case. Every conversion but `splitWords` first spells the name in
ASCII.
-/

namespace TypedClient.Name

open Text

/-- The runs of ASCII letters and digits of a name. -/
def wordsOf (name : Text) : List Text :=
  ((toAscii name).splitOnP fun c => !c.isAlphanum).filter (· ≠ [])

/-- The letters and digits of a name with one underscore for every run of other characters
between them. -/
def sanitize (name : Text) : Text := join "_" (wordsOf name)

/-- Lower case, except for a letter that follows a lower-case letter, which is kept, and one that
follows an underscore, which is raised; underscores are dropped. -/
def camelAfter (previous : Option Char) : Text → Text
  | [] => []
  | c :: rest =>
    if c == '_' then camelAfter (some c) rest
    else
      (if previous == some '_' then c.toUpper
        else if previous.any Char.isLower then c
        else c.toLower) :: camelAfter (some c) rest

/-- The camel case of a sanitized name. -/
def camel (name : Text) : Text := camelAfter none name

/-- An underscore between a lower-case letter and an upper-case letter after it. -/
def parted : Text → Text
  | [] => []
  | [c] => [c]
  | c :: d :: rest =>
    if c.isLower && d.isUpper then c :: '_' :: parted (d :: rest) else c :: parted (d :: rest)

/-- `SCREAMING_SNAKE_CASE`. -/
def constant (name : Text) : Text := upperAscii (parted (sanitize name))

/-- The letters and digits of a name, where a letter is raised that opens a word, follows a
lower-case letter in upper case, or is in upper case before a lower-case letter. -/
def capitalize (opensWord previousLower : Bool) : Text → Text
  | [] => []
  | c :: rest =>
    if c.isAlphanum then
      (if opensWord || (previousLower && c.isUpper) || (c.isUpper && rest.head?.any Char.isLower)
        then c.toUpper else c.toLower) :: capitalize false c.isLower rest
    else capitalize (rest.head?.any Char.isAlphanum) false rest

def isSeparator (c : Char) : Bool :=
  c == '-' || c == '_' || c == '.' || c == ' ' || c == '/' || c == '{' || c == '}'

/-- `PascalCase`. A name without separators in which both cases occur keeps its capitals. -/
def pascal (name : Text) : Text :=
  let ascii := toAscii name
  if !ascii.any isSeparator && ascii.any Char.isUpper && ascii.any Char.isLower then
    match ascii.filter Char.isAlphanum with
    | [] => []
    | c :: rest => c.toUpper :: rest
  else capitalize true false ascii

/-- Whether a word starts at `c`, given the characters around it. -/
def startsWord (previous c : Char) (next : Option Char) : Bool :=
  isUppercase c && (isLowercase previous || previous.isDigit || next.any isLowercase)

/-- What is left of the word that `previous` belongs to, and the words after it. -/
def splitAfter (previous : Char) : Text → Text × List Text
  | [] => ([], [])
  | c :: rest =>
    let (word, more) := splitAfter c rest
    if startsWord previous c rest.head? then ([], (c :: word) :: more) else (c :: word, more)

/-- The words of a name in Pascal case, acronyms included: `XMLParser` gives `XML` and `Parser`. -/
def splitWords : Text → List Text
  | [] => []
  | c :: rest =>
    let (word, more) := splitAfter c rest
    (c :: word) :: more

end TypedClient.Name
