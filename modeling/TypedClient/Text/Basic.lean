import TypedClient.Text.Blank

/-!
Text is a list of characters, so that it can be cut into pieces and put together again by the
operations of lists. Offsets count the bytes of the encoded text.
-/

namespace TypedClient

abbrev Text := List Char

instance : Coe String Text := ⟨String.toList⟩

instance : LawfulBEq Text := inferInstanceAs (LawfulBEq (List Char))

namespace Text

/-- The length of the encoded text in bytes. -/
def size : Text → Nat
  | [] => 0
  | c :: rest => c.utf8Size + size rest

/-- Cuts after `n` bytes. A character that straddles the cut goes to neither part, and the bytes
of it that lie beyond the cut are counted. -/
def dropBytes : Nat → Text → Nat × Text
  | 0, text => (0, text)
  | _, [] => (0, [])
  | n + 1, c :: rest =>
    if c.utf8Size ≤ n + 1 then dropBytes (n + 1 - c.utf8Size) rest
    else (c.utf8Size - (n + 1), rest)

/-- The first `n` bytes and what follows them, unless the text is shorter or the cut would go
through a character. -/
def cutBytes? : Nat → Text → Option (Text × Text)
  | 0, text => some ([], text)
  | _ + 1, [] => none
  | n + 1, c :: rest =>
    if c.utf8Size ≤ n + 1 then
      (cutBytes? (n + 1 - c.utf8Size) rest).map fun (before, after) => (c :: before, after)
    else none

/-- A stretch of this many bytes from the offset `start` on. -/
def slice? (start bytes : Nat) (text : Text) : Option Text := do
  let (_, rest) ← cutBytes? start text
  let (stretch, _) ← cutBytes? bytes rest
  return stretch

def ofNat (n : Nat) : Text := Nat.toDigits 10 n

def trimStart (text : Text) : Text := text.dropWhile isBlank

def trimEnd (text : Text) : Text := (text.reverse.dropWhile isBlank).reverse

def trim (text : Text) : Text := trimEnd (trimStart text)

def allBlank (text : Text) : Bool := text.all isBlank

/-- Every occurrence of `old`, from left to right, becomes `new`. -/
def replace (old new : Text) : Text → Text
  | [] => []
  | c :: rest =>
    if old.isPrefixOf (c :: rest) then new ++ replace old new (rest.drop (old.length - 1))
    else c :: replace old new rest
termination_by text => text.length

/-- Puts a backslash before every character that `special` picks out. -/
def escape (special : Char → Bool) (text : Text) : Text :=
  text.flatMap fun c => if special c then ['\\', c] else [c]

/-- What stands before and after the first `mark`. -/
def cut? (mark : Char) : Text → Option (Text × Text)
  | [] => none
  | c :: rest =>
    if c = mark then some ([], rest)
    else (cut? mark rest).map fun (before, after) => (c :: before, after)

private def dropReturn (line : Text) : Text :=
  match line.reverse with
  | '\r' :: rest => rest.reverse
  | _ => line

/-- The lines of a text. A line ends with a line feed, and a carriage return before the line feed
belongs to the line end. -/
def lines (text : Text) : List Text :=
  match (text.splitOn '\n').reverse with
  | [] => []
  | last :: earlier => earlier.reverse.map dropReturn ++ if last = [] then [] else [last]

private theorem dropReturn_subset (line : Text) : dropReturn line ⊆ line := by
  unfold dropReturn
  split
  · rename_i rest ending
    intro c member
    have inside : c ∈ line.reverse := ending ▸ List.mem_cons_of_mem _ (List.mem_reverse.mp member)
    exact List.mem_reverse.mp inside
  · exact fun _ member => member

/-- A line is a part between line feeds, perhaps without a carriage return. -/
theorem subset_of_mem_lines {text line : Text} (member : line ∈ lines text) :
    ∃ part ∈ text.splitOn '\n', line ⊆ part := by
  unfold lines at member
  split at member
  · contradiction
  · rename_i last earlier parts
    have listed : ∀ part ∈ last :: earlier, part ∈ text.splitOn '\n' := fun part inside =>
      List.mem_reverse.mp (parts ▸ inside)
    rcases List.mem_append.mp member with ended | unended
    · obtain ⟨part, inside, rfl⟩ := List.mem_map.mp ended
      exact ⟨part, listed part (List.mem_cons_of_mem _ (List.mem_reverse.mp inside)),
        dropReturn_subset part⟩
    · split at unended
      · contradiction
      · rw [List.mem_singleton.mp unended]
        exact ⟨last, listed last List.mem_cons_self, fun _ inside => inside⟩

private theorem dropReturn_opens {opening line : Text} (opens : opening <+: line)
    (ending : opening.getLast? ≠ some '\r') : opening <+: dropReturn line := by
  unfold dropReturn
  split
  · rename_i rest reversed
    have whole : line = rest.reverse ++ ['\r'] := by
      rw [← List.reverse_reverse line, reversed, List.reverse_cons]
    rw [whole] at opens
    rcases List.prefix_concat_iff.mp opens with same | shorter
    · rw [same, List.getLast?_append] at ending
      exact absurd rfl ending
    · exact shorter
  · exact opens

/-- How a part between line feeds opens, a line does. -/
theorem exists_line_of_part {text part opening : Text} (member : part ∈ text.splitOn '\n')
    (opens : opening <+: part) (filled : opening ≠ [])
    (ending : opening.getLast? ≠ some '\r') : ∃ line ∈ lines text, opening <+: line := by
  rw [← List.mem_reverse] at member
  unfold lines
  split
  · rename_i parts
    rw [parts] at member
    contradiction
  · rename_i last earlier parts
    rw [parts] at member
    rcases List.mem_cons.mp member with rfl | member
    · have written : part ≠ [] := fun none => filled (List.prefix_nil.mp (none ▸ opens))
      refine ⟨part, List.mem_append_right _ ?_, opens⟩
      rw [if_neg written]
      exact List.mem_cons_self
    · refine ⟨dropReturn part, List.mem_append_left _ ?_, dropReturn_opens opens ending⟩
      exact List.mem_map_of_mem (List.mem_reverse.mpr member)

/-- Where no line end has a carriage return, the lines are the parts between line feeds, except for
an empty last one. -/
theorem lines_of_parts {text last : Text} {earlier : List Text}
    (parts : text.splitOn '\n' = earlier ++ [last]) (free : ∀ part ∈ earlier, '\r' ∉ part) :
    lines text = earlier ++ if last = [] then [] else [last] := by
  have whole : ∀ part ∈ earlier, dropReturn part = part := by
    intro part member
    unfold dropReturn
    split
    · rename_i rest ending
      have inside : '\r' ∈ part := List.mem_reverse.mp (ending ▸ List.mem_cons_self)
      exact absurd inside (free part member)
    · rfl
  unfold lines
  rw [parts, List.reverse_append, List.reverse_singleton, List.singleton_append]
  simp only [List.reverse_reverse]
  rw [List.map_congr_left whole, List.map_id']

def join (separator : Text) (parts : List Text) : Text := separator.intercalate parts

theorem eq_append_of_isPrefixOf? : ∀ {start text rest : Text},
    start.isPrefixOf? text = some rest → text = start ++ rest
  | [], _, _, opens => Option.some.inj opens
  | _ :: _, [], _, opens => nomatch opens
  | c :: start, d :: text, rest, opens => by
    have step : (if c == d then start.isPrefixOf? text else none) = some rest := opens
    split at step
    · rename_i same
      rw [eq_append_of_isPrefixOf? step, eq_of_beq same, List.cons_append]
    · contradiction

theorem isPrefixOf?_suffix {start text rest : Text} (opens : start.isPrefixOf? text = some rest) :
    rest <:+ text :=
  ⟨start, (eq_append_of_isPrefixOf? opens).symm⟩

theorem isPrefixOf?_append : ∀ start rest : Text, start.isPrefixOf? (start ++ rest) = some rest
  | [], _ => rfl
  | c :: start, rest => by
    have step : (c :: start).isPrefixOf? (c :: start ++ rest) =
        if c == c then start.isPrefixOf? (start ++ rest) else none := rfl
    rw [step, if_pos (beq_self_eq_true c), isPrefixOf?_append start rest]

def startsWith (start text : Text) : Bool := start.isPrefixOf text

def endsWith (ending text : Text) : Bool := (ending.isSuffixOf? text).isSome

def lowerAscii (text : Text) : Text := text.map Char.toLower

def upperAscii (text : Text) : Text := text.map Char.toUpper

end Text

end TypedClient
