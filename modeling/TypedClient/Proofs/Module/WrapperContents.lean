import TypedClient.Module.WrapperText
import TypedClient.Module.Wrappers
import TypedClient.Proofs.Name.Characters
import TypedClient.Proofs.Text.Trim

/-!
What is taken out of the text of a wrapper: the methods of the requests in its body, and the
arguments of its signature.
-/

namespace TypedClient

open Text

namespace FoundWrapper

section Calls

/-- The characters that a call can be made of up to its bracket. -/
def isCallChar (c : Char) : Bool := c.isLower || isBlank c || c == '.'

def opensCall (c : Char) : Bool := c == '(' || c == '<'

theorem isPrefixOf?_cut {word front rest : Text} {d : Char} (other : d ∉ word) :
    word.isPrefixOf? (front ++ d :: rest) = (word.isPrefixOf? front).map (· ++ d :: rest) := by
  have step : ∀ (c e : Char) (word text : Text), (c :: word).isPrefixOf? (e :: text) =
      if c == e then word.isPrefixOf? text else none := fun _ _ _ _ => rfl
  induction word generalizing front with
  | nil => rfl
  | cons c word ih =>
    rw [List.mem_cons, not_or] at other
    cases front with
    | nil =>
      rw [List.nil_append, step, if_neg (by simpa using Ne.symm other.1)]
      rfl
    | cons e front =>
      rw [List.cons_append, step, step, ih other.2]
      split <;> rfl

theorem dropWhile_cut {p : Char → Bool} {d : Char} (stops : p d = false) (front rest : Text) :
    (front ++ d :: rest).dropWhile p = front.dropWhile p ++ d :: rest := by
  induction front with
  | nil => simp [stops]
  | cons c front ih =>
    rw [List.cons_append, List.dropWhile_cons, List.dropWhile_cons]
    split
    · exact ih
    · rfl

theorem takeWhile_cut {p : Char → Bool} {d : Char} (stops : p d = false) (front rest : Text) :
    (front ++ d :: rest).takeWhile p = front.takeWhile p := by
  induction front with
  | nil => simp [stops]
  | cons c front ih =>
    rw [List.cons_append, List.takeWhile_cons, List.takeWhile_cons, ih]

/-- A call does not reach over a character that no call is made of. -/
theorem readCall?_cut {d : Char} (stops : isCallChar d = false) (front rest : Text) :
    readCall? (front ++ d :: rest) = readCall? (front ++ [d]) := by
  have other : d ∉ "http.".toList := by
    intro member
    have each : "http.".toList.all isCallChar = true := by decide
    rw [List.all_eq_true.mp each d member] at stops
    contradiction
  simp only [isCallChar, Bool.or_eq_false_iff] at stops
  unfold readCall?
  rw [isPrefixOf?_cut other, isPrefixOf?_cut other]
  cases "http.".toList.isPrefixOf? front with
  | none => rfl
  | some tail =>
    simp only [Option.map_some, bind, Option.bind_some, trimStart]
    rw [takeWhile_cut stops.1.1, takeWhile_cut stops.1.1, dropWhile_cut stops.1.1,
      dropWhile_cut stops.1.1, dropWhile_cut stops.1.2, dropWhile_cut stops.1.2]
    cases (tail.dropWhile Char.isLower).dropWhile isBlank with
    | nil => rfl
    | cons c _ => rfl

theorem callsIn_cut {d : Char} (stops : isCallChar d = false) (afterWord : Bool)
    (front rest : Text) :
    callsIn afterWord (front ++ d :: rest) =
      callsIn afterWord (front ++ [d]) ++ callsIn (isWord d) rest := by
  induction front generalizing afterWord with
  | nil =>
    have here := readCall?_cut stops [] rest
    rw [List.nil_append, List.nil_append] at here
    simp [callsIn, here]
  | cons c front ih =>
    have here := readCall?_cut stops (c :: front) rest
    rw [List.cons_append, List.cons_append] at here
    rw [List.cons_append, List.cons_append, callsIn, callsIn, here, ih, List.append_assoc]

theorem readCall?_eq_none {text : Text} (quiet : text.all (fun c => !opensCall c) = true) :
    readCall? text = none := by
  unfold readCall?
  cases found : "http.".toList.isPrefixOf? text with
  | none => rfl
  | some tail =>
    simp only [bind, Option.bind_some]
    split
    · rename_i c after opens
      have inside : c ∈ text := by
        have ending : c :: after <:+ text := opens ▸ ((List.dropWhile_suffix isBlank).trans
          (List.dropWhile_suffix Char.isLower)).trans (isPrefixOf?_suffix found)
        exact ending.subset List.mem_cons_self
      have closed := List.all_eq_true.mp quiet c inside
      simp only [opensCall, Bool.not_eq_true', Bool.or_eq_false_iff, beq_eq_false_iff_ne] at closed
      simp [closed]
    · rfl

theorem callsIn_of_no_bracket {text : Text} (quiet : text.all (fun c => !opensCall c) = true)
    (afterWord : Bool) : callsIn afterWord text = [] := by
  induction text generalizing afterWord with
  | nil => rfl
  | cons c rest ih =>
    have tail : rest.all (fun c => !opensCall c) = true := by
      rw [List.all_cons, Bool.and_eq_true] at quiet
      exact quiet.2
    simp [callsIn, readCall?_eq_none quiet, ih tail]

theorem callsIn_of_no_h {text : Text} (free : 'h' ∉ text) (afterWord : Bool) :
    callsIn afterWord text = [] := by
  induction text generalizing afterWord with
  | nil => rfl
  | cons c rest ih =>
    rw [List.mem_cons, not_or] at free
    have none : readCall? (c :: rest) = none := by
      have step : "http.".toList.isPrefixOf? (c :: rest) =
          if 'h' == c then "ttp.".toList.isPrefixOf? rest else none := rfl
      rw [readCall?, step, if_neg (by simpa using free.1)]
      rfl
    simp [callsIn, none, ih free.2]

/-- The one call in a text that returns what a request gives. -/
theorem callsIn_request {method : Method} (known : method ∈ Method.known) {front type tail : Text}
    (before : front.all (fun c => !opensCall c) = true)
    (inside : type.all (fun c => !opensCall c) = true)
    (after : ∀ afterWord, callsIn afterWord tail = []) (afterWord : Bool) :
    callsIn afterWord (front ++ ("return handleResponse<".toList ++ (type ++ (">(http.".toList ++
      (method.lowerName ++ ("(".toList ++ tail)))))) = [method.lowerName] := by
  have request : ∀ method ∈ Method.known,
      callsIn false ("http.".toList ++ method.lowerName ++ ['(']) = [method.lowerName] := by
    decide
  have opening : (front ++ "return handle".toList ++ ['R']).all (fun c => !opensCall c) = true := by
    rw [List.all_append, List.all_append, before]
    decide
  have generic : (type ++ ['>']).all (fun c => !opensCall c) = true := by
    rw [List.all_append, inside]
    decide
  calc callsIn afterWord (front ++ ("return handleResponse<".toList ++ (type ++ (">(http.".toList ++
        (method.lowerName ++ ("(".toList ++ tail))))))
      = callsIn afterWord ((front ++ "return handle".toList) ++ 'R' ::
          ("esponse".toList ++ '<' :: (type ++ '>' ::
            ([] ++ '(' :: (("http.".toList ++ method.lowerName) ++ '(' :: tail))))) := by
        simp
    _ = [method.lowerName] := by
        rw [callsIn_cut (d := 'R') (by decide), callsIn_of_no_bracket opening,
          callsIn_cut (d := '<') (by decide), callsIn_cut (d := '>') (by decide),
          callsIn_of_no_bracket generic, callsIn_cut (d := '(') (by decide) _ [],
          callsIn_cut (d := '(') (by decide) _ ("http.".toList ++ method.lowerName), after]
        have start : callsIn (isWord '(') ("http.".toList ++ method.lowerName ++ ['(']) =
            [method.lowerName] := request method known
        rw [start]
        rfl

end Calls

section Arguments

theorem splitCommas_append {part : Text}
    (free : part.all (fun c => c != ',' && nextDepth 0 c == 0) = true) (rest : Text) :
    splitCommas 0 (part ++ ',' :: rest) = part :: splitCommas 0 rest := by
  induction part with
  | nil => rfl
  | cons c part ih =>
    simp only [List.all_cons, Bool.and_eq_true, bne_iff_ne, beq_iff_eq] at free
    simp [splitCommas, free.1, ih free.2, consFirst]

theorem splitCommas_eq_singleton {part : Text}
    (free : part.all (fun c => c != ',' && nextDepth 0 c == 0) = true) :
    splitCommas 0 part = [part] := by
  induction part with
  | nil => rfl
  | cons c part ih =>
    simp only [List.all_cons, Bool.and_eq_true, bne_iff_ne, beq_iff_eq] at free
    simp [splitCommas, free.1, ih free.2, consFirst]

variable {argument type : Text}

theorem solid_of_isPlain (plain : Name.isPlain type = true) :
    type.all (fun c => !isBlank c) = true :=
  Name.all_of_isPlain (by decide) plain

theorem trim_typed (before : Text) (blank : before.all isBlank = true)
    (named : Name.isPlain argument = true) (plain : Name.isPlain type = true) :
    trim (before ++ Wrapper.typed argument type) = Wrapper.typed argument type := by
  refine trim_append before blank ?_ ?_
  · have starts := head?_all_of_all (solid_of_isPlain named)
    cases argument with
    | nil => contradiction
    | cons => exact starts
  · have stops := getLast?_all_of_all (solid_of_isPlain plain)
    rw [Wrapper.typed, List.getLast?_append]
    cases last : type.getLast? with
    | none => exact absurd (List.getLast?_eq_none_iff.mp last) (Name.ne_nil_of_isPlain plain)
    | some c =>
      rw [last] at stops
      exact stops

/-- An argument is read as it was written. -/
theorem readArgument_typed (named : Name.isPlain argument = true)
    (plain : Name.isPlain type = true) :
    readArgument (Wrapper.typed argument type) = ⟨argument, some type⟩ := by
  have marks : argument.all (fun c => c != '=' && c != ':' && c != '?') = true :=
    Name.all_of_isPlain (by decide) named
  have free : type.all (fun c => c != '=') = true := Name.all_of_isPlain (by decide) plain
  have noDefault : '=' ∉ Wrapper.typed argument type := by
    intro member
    simp only [Wrapper.typed, List.mem_append] at member
    rcases member with (inside | between) | inside
    · exact absurd (List.all_eq_true.mp marks _ inside) (by decide)
    · exact absurd between (by decide)
    · exact absurd (List.all_eq_true.mp free _ inside) (by decide)
  have noColon : ':' ∉ argument := fun inside =>
    absurd (List.all_eq_true.mp marks _ inside) (by decide)
  have parts : cut? ':' (Wrapper.typed argument type) = some (argument, ' ' :: type) := by
    have whole : Wrapper.typed argument type = argument ++ ':' :: ' ' :: type := by
      rw [Wrapper.typed, List.append_assoc]
      rfl
    rw [whole, cut?_append noColon]
  have bare : withoutMarks argument = argument := by
    have noMark : argument.reverse.all (fun c => !c == '?') = true := by
      rw [List.all_reverse]
      exact all_imp (fun c => by simp) marks
    have kept : argument.reverse.dropWhile (· == '?') = argument.reverse :=
      dropWhile_append_of_stop [] rfl (head?_all_of_all noMark)
    rw [withoutMarks, kept, List.reverse_reverse]
  have declaration : trim (Wrapper.typed argument type) = Wrapper.typed argument type :=
    trim_typed [] rfl named plain
  have name : trim argument = argument := trim_of_solid [] rfl (solid_of_isPlain named)
  have rest : trim (' ' :: type) = type :=
    trim_of_solid [' '] (by decide) (solid_of_isPlain plain)
  simp [readArgument, cut?_eq_none noDefault, declaration, parts, name, bare, rest,
    Name.ne_nil_of_isPlain plain]

theorem typed_free (named : Name.isPlain argument = true) (plain : Name.isPlain type = true) :
    (Wrapper.typed argument type).all (fun c => c != ',' && nextDepth 0 c == 0) = true := by
  rw [Wrapper.typed, List.all_append, List.all_append,
    Name.all_of_isPlain (by decide) named, Name.all_of_isPlain (by decide) plain]
  decide

theorem splitCommas_typed {arguments : List (Text × Text)}
    (plain : ∀ argument ∈ arguments,
      Name.isPlain argument.1 = true ∧ Name.isPlain argument.2 = true)
    (before : Text) (blank : before.all (· == ' ') = true) (filled : arguments ≠ []) :
    (splitCommas 0 (before ++ join ", " (arguments.map fun argument =>
      Wrapper.typed argument.1 argument.2))).map trim =
      arguments.map fun argument => Wrapper.typed argument.1 argument.2 := by
  induction arguments generalizing before with
  | nil => exact absurd rfl filled
  | cons first rest ih =>
    obtain ⟨named, typed⟩ := plain first List.mem_cons_self
    have outside : (before ++ Wrapper.typed first.1 first.2).all
        (fun c => c != ',' && nextDepth 0 c == 0) = true := by
      have spaces : before.all (fun c => c != ',' && nextDepth 0 c == 0) = true :=
        all_imp (fun c space => by rw [beq_iff_eq.mp space]; decide) blank
      rw [List.all_append, spaces, typed_free named typed]
      rfl
    have alone : trim (before ++ Wrapper.typed first.1 first.2) = Wrapper.typed first.1 first.2 :=
      trim_typed before (all_imp (fun c space => by rw [beq_iff_eq.mp space]; decide) blank) named
        typed
    cases rest with
    | nil => simp [join, splitCommas_eq_singleton outside, alone]
    | cons second rest =>
      have more := ih (fun argument member => plain argument (List.mem_cons_of_mem _ member))
        [' '] rfl (List.cons_ne_nil _ _)
      have parts : before ++ join ", " ((first :: second :: rest).map fun argument =>
          Wrapper.typed argument.1 argument.2) =
          (before ++ Wrapper.typed first.1 first.2) ++ ',' :: ([' '] ++
            join ", " ((second :: rest).map fun argument =>
              Wrapper.typed argument.1 argument.2)) := by
        simp [join, List.intercalate_cons_cons]
      rw [parts, splitCommas_append outside, List.map_cons, alone, more]
      rfl

/-- The arguments of a signature are read as they were written. -/
theorem argumentsIn_typed {arguments : List (Text × Text)}
    (plain : ∀ argument ∈ arguments,
      Name.isPlain argument.1 = true ∧ Name.isPlain argument.2 = true) :
    argumentsIn (join ", " (arguments.map fun argument =>
      Wrapper.typed argument.1 argument.2)) =
      arguments.map fun argument => ⟨argument.1, some argument.2⟩ := by
  by_cases filled : arguments = []
  · rw [filled]
    rfl
  have parts := splitCommas_typed plain [] rfl filled
  rw [List.nil_append] at parts
  have kept : (arguments.map fun argument => Wrapper.typed argument.1 argument.2).filter (· ≠ []) =
      arguments.map fun argument => Wrapper.typed argument.1 argument.2 := by
    apply List.filter_eq_self.mpr
    intro part member
    obtain ⟨argument, _, rfl⟩ := List.mem_map.mp member
    simp [Wrapper.typed]
  rw [argumentsIn, parts, kept, List.map_map]
  exact List.map_congr_left fun argument member =>
    readArgument_typed (plain argument member).1 (plain argument member).2

end Arguments

end FoundWrapper

end TypedClient
