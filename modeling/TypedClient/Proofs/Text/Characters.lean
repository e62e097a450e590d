import TypedClient.Text.Basic

/-!
Classes of characters, and texts all of whose characters are in one. A statement about the ASCII
characters of a class is settled by a look at each of them. What joined texts are made of, and how
they are read back.
-/

namespace TypedClient.Text

variable {p q : Char → Bool} {c : Char}

/-- A class of ASCII characters is contained in another one if a look at each of them says so. -/
theorem ascii_imp
    (each : ∀ n < 128, p (Char.ofNat n) = true → q (Char.ofNat n) = true) (ascii : c.toNat < 128)
    (here : p c = true) : q c = true := by
  have found := each c.toNat ascii
  rw [Char.ofNat_toNat] at found
  exact found here

theorem ascii_of_isAlphanum (word : c.isAlphanum = true) : c.toNat < 128 := by
  have ranges : c.isAlphanum = ((decide (65 ≤ c.val ∧ c.val ≤ 90) ||
      (decide (97 ≤ c.val) && decide (c.val ≤ 122))) ||
        (decide (48 ≤ c.val) && decide (c.val ≤ 57))) := rfl
  rw [ranges] at word
  simp only [Bool.or_eq_true, Bool.and_eq_true, decide_eq_true_eq, UInt32.le_iff_toNat_le] at word
  change c.val.toNat < 128
  rcases word with (⟨_, upper⟩ | ⟨_, lower⟩) | ⟨_, digit⟩
  · exact Nat.lt_of_le_of_lt upper (by decide)
  · exact Nat.lt_of_le_of_lt lower (by decide)
  · exact Nat.lt_of_le_of_lt digit (by decide)

theorem alphanum_imp
    (each : ∀ n < 128, (Char.ofNat n).isAlphanum = true → q (Char.ofNat n) = true)
    (word : c.isAlphanum = true) : q c = true :=
  ascii_imp each (ascii_of_isAlphanum word) word

theorem all_imp {text : Text} (each : ∀ c, p c = true → q c = true) (all : text.all p = true) :
    text.all q = true := by
  apply List.all_eq_true.mpr
  intro c member
  exact each c (List.all_eq_true.mp all c member)

theorem all_ne_iff {mark : Char} {text : Text} : text.all (· != mark) = true ↔ mark ∉ text := by
  rw [List.all_eq_true]
  constructor
  · exact fun other inside => absurd rfl (bne_iff_ne.mp (other mark inside))
  · exact fun absent c inside => bne_iff_ne.mpr fun same => absent (same ▸ inside)

theorem head?_append_of_ne_nil {front : Text} (filled : front ≠ []) (back : Text) :
    (front ++ back).head? = front.head? := by
  cases front with
  | nil => exact absurd rfl filled
  | cons => rfl

theorem replace_of_absent {mark : Char} {old new text : Text} (absent : mark ∉ text) :
    replace (mark :: old) new text = text := by
  fun_induction replace (mark :: old) new text with
  | case1 => rfl
  | case2 c rest opens =>
    rw [List.mem_cons, not_or] at absent
    have same : (mark == c) = true := by
      have step : ((mark == c) && old.isPrefixOf rest) = true := opens
      exact (Bool.and_eq_true _ _ ▸ step).1
    exact absurd (eq_of_beq same) absent.1
  | case3 c rest _ ih =>
    rw [List.mem_cons, not_or] at absent
    rw [ih absent.2]

theorem not_mem_replace {mark : Char} {old new text : Text} (absent : mark ∉ text)
    (fresh : mark ∉ new) : mark ∉ replace old new text := by
  fun_induction replace old new text with
  | case1 => exact absent
  | case2 c rest _ ih =>
    rw [List.mem_append, not_or]
    refine ⟨fresh, ih fun inside => absent ?_⟩
    exact List.mem_cons_of_mem _ (List.mem_of_mem_drop inside)
  | case3 c rest _ ih =>
    rw [List.mem_cons, not_or] at absent ⊢
    exact ⟨absent.1, ih absent.2⟩

theorem escape_cons (special : Char → Bool) (c : Char) (rest : Text) :
    escape special (c :: rest) =
      (if special c then ['\\', c] else [c]) ++ escape special rest := by
  rw [escape, List.flatMap_cons]
  rfl

theorem join_cons (separator first : Text) (more : List Text) :
    join separator (first :: more) = first ++ more.flatMap (separator ++ ·) := by
  induction more generalizing first with
  | nil => simp [join]
  | cons second more ih =>
    unfold join at ih ⊢
    rw [List.intercalate_cons_cons, ih, List.flatMap_cons]
    simp

theorem join_singleton (separator text : Text) : join separator [text] = text :=
  List.intercalate_singleton

theorem join_cons_cons (separator first second : Text) (more : List Text) :
    join separator (first :: second :: more) =
      first ++ (separator ++ join separator (second :: more)) := by
  rw [join, List.intercalate_cons_cons, List.append_assoc]
  rfl

theorem infix_join {separator part : Text} {parts : List Text} (listed : part ∈ parts) :
    part <:+: join separator parts := by
  induction parts with
  | nil => contradiction
  | cons first more ih =>
    cases more with
    | nil =>
      cases List.mem_singleton.mp listed
      exact (join_singleton separator part).symm ▸ List.infix_rfl
    | cons second more =>
      rw [join_cons_cons]
      rcases List.mem_cons.mp listed with rfl | later
      · exact (List.prefix_append _ _).isInfix
      · exact ((ih later).trans (List.suffix_append _ _).isInfix).trans
          (List.suffix_append _ _).isInfix

theorem join_append {separator : Text} {front back : List Text} (first : front ≠ [])
    (second : back ≠ []) :
    join separator (front ++ back) = join separator front ++ separator ++ join separator back := by
  obtain ⟨a, front, rfl⟩ := List.exists_cons_of_ne_nil first
  obtain ⟨b, back, rfl⟩ := List.exists_cons_of_ne_nil second
  simp only [List.cons_append, join_cons, List.flatMap_append, List.flatMap_cons,
    List.append_assoc]

theorem all_join {separator : Text} {parts : List Text} (between : separator.all p = true)
    (each : ∀ part ∈ parts, part.all p = true) : (join separator parts).all p = true := by
  cases parts with
  | nil => rfl
  | cons first more =>
    rw [join_cons, List.all_append, each first List.mem_cons_self, Bool.true_and, List.all_flatMap]
    apply List.all_eq_true.mpr
    intro part member
    rw [List.all_append, between, each part (List.mem_cons_of_mem _ member)]
    rfl

theorem not_mem_join {mark : Char} {separator : Text} {parts : List Text}
    (between : mark ∉ separator) (each : ∀ part ∈ parts, mark ∉ part) :
    mark ∉ join separator parts := by
  cases parts with
  | nil => exact List.not_mem_nil
  | cons first more =>
    rw [join_cons, List.mem_append, not_or, List.mem_flatMap]
    refine ⟨each first List.mem_cons_self, ?_⟩
    rintro ⟨part, listed, inside⟩
    rcases List.mem_append.mp inside with here | here
    · exact between here
    · exact each part (List.mem_cons_of_mem _ listed) here

theorem all_of_mem_splitOnP {text part : Text} (member : part ∈ text.splitOnP p) :
    part.all (fun c => !p c) = true := by
  induction text generalizing part with
  | nil =>
    rw [List.splitOnP_nil, List.mem_singleton] at member
    simp [member]
  | cons c rest ih =>
    rw [List.splitOnP_cons_eq_if_modifyHead] at member
    split at member
    · rcases List.mem_cons.mp member with rfl | later
      · rfl
      · exact ih later
    · rename_i outside
      cases parts : rest.splitOnP p with
      | nil => exact absurd parts (List.splitOnP_ne_nil p rest)
      | cons first more =>
        rw [parts, List.modifyHead_cons] at member
        rcases List.mem_cons.mp member with rfl | later
        · have start := ih (parts ▸ List.mem_cons_self)
          simp [start, outside]
        · exact ih (parts ▸ List.mem_cons_of_mem first later)

theorem cut?_append {mark : Char} {front : Text} (free : mark ∉ front) (rest : Text) :
    cut? mark (front ++ mark :: rest) = some (front, rest) := by
  induction front with
  | nil => simp [cut?]
  | cons c front ih =>
    rw [List.mem_cons, not_or] at free
    simp [cut?, Ne.symm free.1, ih free.2]

theorem cut?_eq_none {mark : Char} {text : Text} (free : mark ∉ text) : cut? mark text = none := by
  induction text with
  | nil => rfl
  | cons c text ih =>
    rw [List.mem_cons, not_or] at free
    simp [cut?, Ne.symm free.1, ih free.2]

theorem cut?_length {mark : Char} {text before after : Text}
    (found : cut? mark text = some (before, after)) : after.length < text.length := by
  induction text generalizing before with
  | nil => contradiction
  | cons c rest ih =>
    rw [List.length_cons]
    unfold cut? at found
    split at found
    · cases found
      exact Nat.lt_succ_self _
    · obtain ⟨⟨front, behind⟩, inner, same⟩ := Option.map_eq_some_iff.mp found
      cases same
      exact Nat.lt_succ_of_lt (ih inner)

end TypedClient.Text
