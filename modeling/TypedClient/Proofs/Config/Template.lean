import Mathlib.Data.List.Chain
import TypedClient.Config.Template
import TypedClient.Module.Basic

/-!
Doc comments made from templates. Main statement: whatever a template and the values for it hold, the
comment ends where it should and nowhere before; every placeholder that stands in the template is
filled in once, with what the values hold taken as it is; and no placeholder is left over from
templates that pass the check.
-/

namespace TypedClient

open Text

variable {template front back name : Text} {context : DocContext}

section Placeholders

/-- A placeholder is read exactly where letters stand between braces. -/
theorem readPlaceholder?_eq_some {text after : Text} :
    readPlaceholder? text = some (name, after) ↔
      text = inBraces name ++ after ∧ name.all Char.isAlpha = true := by
  constructor
  · intro read
    unfold readPlaceholder? at read
    split at read
    · rename_i rest
      split at read
      · rename_i tail remains
        cases read
        have whole : rest.takeWhile Char.isAlpha ++ rest.dropWhile Char.isAlpha = rest :=
          List.takeWhile_append_dropWhile
        rw [remains] at whole
        refine ⟨?_, List.all_takeWhile⟩
        simp [inBraces, whole]
      · contradiction
    · contradiction
  · rintro ⟨rfl, letters⟩
    have stops : Char.isAlpha '}' = false := by decide
    have letter : ∀ c ∈ name, c.isAlpha = true := List.all_eq_true.mp letters
    have text : inBraces name ++ after = '{' :: (name ++ '}' :: after) := by simp [inBraces]
    rw [text, readPlaceholder?, List.dropWhile_append_of_pos letter,
      List.takeWhile_append_of_pos letter]
    simp [stops]

theorem templateParts_inBraces (letters : name.all Char.isAlpha = true) (back : Text) :
    templateParts (inBraces name ++ back) = .placeholder name :: templateParts back := by
  have read := readPlaceholder?_eq_some.mpr ⟨(rfl : inBraces name ++ back = _), letters⟩
  rw [show inBraces name ++ back = '{' :: (name ++ ['}'] ++ back) from rfl] at read ⊢
  rw [templateParts]
  split
  · rename_i found
    cases read.symm.trans found
    rfl
  · rename_i found
    cases read.symm.trans found

theorem templateParts_other {c : Char} (free : readPlaceholder? (c :: back) = none) :
    templateParts (c :: back) = .other c :: templateParts back := by
  rw [templateParts]
  split
  · rename_i found
    cases free.symm.trans found
  · rfl

/-- An opening brace ends the letters before it, so that no placeholder reaches across it. -/
theorem readPlaceholder?_append (free : readPlaceholder? front = none) (filled : front ≠ [])
    (back : Text) : readPlaceholder? (front ++ '{' :: back) = none := by
  apply Option.eq_none_iff_forall_ne_some.mpr
  rintro ⟨name, after⟩ read
  obtain ⟨whole, letters⟩ := readPlaceholder?_eq_some.mp read
  have unread : ∀ rest, front ≠ inBraces name ++ rest := fun rest same =>
    nomatch free.symm.trans (readPlaceholder?_eq_some.mpr ⟨same, letters⟩)
  rcases List.append_eq_append_iff.mp whole with ⟨part, brace, split⟩ | ⟨part, same, _⟩
  · cases part with
    | nil => exact unread [] (by rw [brace, List.append_nil, List.append_nil])
    | cons c part =>
      obtain ⟨d, front, rfl⟩ := List.exists_cons_of_ne_nil filled
      cases split
      have inner : name ++ ['}'] = front ++ '{' :: part := (List.cons.inj brace).2
      have inside : '{' ∈ name ++ ['}'] := inner ▸ List.mem_append_right _ List.mem_cons_self
      rcases List.mem_append.mp inside with letter | closing
      · exact absurd (List.all_eq_true.mp letters '{' letter) (by decide)
      · exact absurd closing (by decide)
  · exact unread part same

theorem templateParts_append (front back : Text) :
    templateParts (front ++ '{' :: back) = templateParts front ++ templateParts ('{' :: back) := by
  fun_induction templateParts front with
  | case1 => rfl
  | case2 c rest name after read ih =>
    obtain ⟨whole, letters⟩ := readPlaceholder?_eq_some.mp read
    rw [whole, List.append_assoc, templateParts_inBraces letters, ih, List.cons_append]
  | case3 c rest free ih =>
    have none := readPlaceholder?_append free (List.cons_ne_nil c rest) back
    rw [List.cons_append] at none ⊢
    rw [templateParts_other none, ih, List.cons_append]

/-- A placeholder that stands in a template cuts it there, whatever is around it. -/
theorem templateParts_token (letters : name.all Char.isAlpha = true) (front back : Text) :
    templateParts (front ++ inBraces name ++ back) =
      templateParts front ++ .placeholder name :: templateParts back := by
  rw [List.append_assoc, ← templateParts_inBraces letters]
  exact templateParts_append front (name ++ ['}'] ++ back)

theorem fillTemplate_token (letters : name.all Char.isAlpha = true) (front back : Text)
    (context : DocContext) :
    fillTemplate (front ++ inBraces name ++ back) context =
      fillTemplate front context ++ (context.value? name).getD (inBraces name) ++
        fillTemplate back context := by
  unfold fillTemplate
  rw [templateParts_token letters, List.flatMap_append, List.flatMap_cons, List.append_assoc]

/-- Text without placeholders is kept. -/
theorem fillTemplate_of_tokenless (context : DocContext)
    (free : ∀ front name back, name.all Char.isAlpha = true →
      template ≠ front ++ inBraces name ++ back) : fillTemplate template context = template := by
  unfold fillTemplate
  fun_induction templateParts template with
  | case1 => rfl
  | case2 c rest name after read =>
    obtain ⟨whole, letters⟩ := readPlaceholder?_eq_some.mp read
    exact absurd whole (free [] name after letters)
  | case3 c rest _ ih =>
    rw [List.flatMap_cons, ih]
    · rfl
    · rintro front name back letters rfl
      exact free (c :: front) name back letters rfl

theorem known_of_unknownIn? {label : Text} (accepted : unknownIn? label template = none)
    (listed : .placeholder name ∈ templateParts template) : name ∈ knownPlaceholders := by
  have found := List.findSome?_eq_none_iff.mp accepted _ listed
  by_contra unknown
  simp [unknown] at found

theorem DocTemplates.known_of_check {templates : DocTemplates} (accepted : templates.check = .ok ())
    (listed : template ∈ [templates.wrapper, templates.queryHook, templates.mutationHook])
    (used : .placeholder name ∈ templateParts template) : name ∈ knownPlaceholders := by
  have none : templates.unknown? = none := by
    unfold DocTemplates.check at accepted
    split at accepted
    · contradiction
    · assumption
  simp only [DocTemplates.unknown?, Option.or_eq_none_iff] at none
  obtain ⟨⟨wrapper, query⟩, mutation⟩ := none
  simp only [List.mem_cons, List.not_mem_nil, or_false] at listed
  rcases listed with rfl | rfl | rfl
  · exact known_of_unknownIn? wrapper used
  · exact known_of_unknownIn? query used
  · exact known_of_unknownIn? mutation used

theorem DocContext.exists_value (context : DocContext) (known : name ∈ knownPlaceholders) :
    ∃ value, context.value? name = some value := by
  simp only [knownPlaceholders, List.mem_cons, List.not_mem_nil, or_false] at known
  rcases known with rfl | rfl | rfl | rfl
  · exact ⟨context.method.token, rfl⟩
  · exact ⟨context.path, rfl⟩
  · exact ⟨context.operation, rfl⟩
  · exact ⟨context.name, rfl⟩

end Placeholders

section Comments

/-- No comment end stands in the text. -/
def Unending (text : Text) : Prop := text.IsChain fun c d => ¬ (c = '*' ∧ d = '/')

instance (text : Text) : Decidable (Unending text) :=
  inferInstanceAs (Decidable (text.IsChain fun c d => ¬ (c = '*' ∧ d = '/')))

theorem Unending.append (front_unending : Unending front) (back_unending : Unending back)
    (border : back.head? ≠ some '/') : Unending (front ++ back) := by
  refine List.isChain_append.mpr ⟨front_unending, back_unending, ?_⟩
  rintro c _ d first ⟨_, rfl⟩
  exact border first

theorem unending_cons {c : Char} (other : c ≠ '*') (unending : Unending back) :
    Unending (c :: back) :=
  List.isChain_cons.mpr ⟨fun _ _ pair => other pair.1, unending⟩

theorem unending_append_of_free (free : '*' ∉ front) (unending : Unending back) :
    Unending (front ++ back) := by
  induction front with
  | nil => exact unending
  | cons c front ih =>
    rw [List.mem_cons, not_or] at free
    exact unending_cons (Ne.symm free.1) (ih free.2)

theorem head?_breakCommentEnds (text : Text) : (breakCommentEnds text).head? = text.head? := by
  unfold breakCommentEnds
  cases text with
  | nil => rw [replace]
  | cons c rest =>
    rw [replace]
    split
    · rename_i opens
      have star : ('*' == c) = true := by
        have step : (('*' == c) && ['/'].isPrefixOf rest) = true := opens
        exact (Bool.and_eq_true _ _ ▸ step).1
      rw [← eq_of_beq star]
      rfl
    · rfl

/-- The slash that a broken comment end is left with stands behind a backslash. -/
theorem unending_breakCommentEnds (text : Text) : Unending (breakCommentEnds text) := by
  unfold breakCommentEnds
  fun_induction replace "*/" "*\\/" text with
  | case1 => exact List.IsChain.nil
  | case2 c rest _ ih =>
    have broken : Unending ("*\\/".toList) := by decide
    refine List.isChain_append.mpr ⟨broken, ih, ?_⟩
    rintro c last d _ ⟨rfl, _⟩
    exact absurd last (by decide)
  | case3 c rest whole ih =>
    refine List.isChain_cons.mpr ⟨?_, ih⟩
    rintro d first ⟨rfl, rfl⟩
    rw [← breakCommentEnds, head?_breakCommentEnds] at first
    obtain ⟨rest, rfl⟩ := List.head?_eq_some_iff.mp first
    exact whole rfl

theorem unending_of_mem_docLines {line : Text} (listed : line ∈ docLines template context) :
    Unending line := by
  obtain ⟨written, _⟩ := List.mem_filter.mp listed
  obtain ⟨source, _, rfl⟩ := List.mem_map.mp written
  exact unending_breakCommentEnds _

theorem unending_docLines {pad : Text} {lines : List Text} (blank : '*' ∉ pad)
    (each : ∀ line ∈ lines, Unending line) (unending : Unending back) :
    Unending (lines.flatMap (Module.docLine pad) ++ back) := by
  induction lines with
  | nil => exact unending
  | cons line lines ih =>
    have later := ih fun other member => each other (List.mem_cons_of_mem line member)
    have inner : Unending (line ++ '\n' :: (lines.flatMap (Module.docLine pad) ++ back)) :=
      (each line List.mem_cons_self).append (unending_cons (by decide) later) (by simp)
    have mark : Unending ('*' :: ' ' :: (line ++ '\n' ::
        (lines.flatMap (Module.docLine pad) ++ back))) :=
      List.isChain_cons_cons.mpr ⟨by decide, unending_cons (by decide) inner⟩
    have whole : (line :: lines).flatMap (Module.docLine pad) ++ back =
        (pad ++ [' ']) ++ '*' :: ' ' :: (line ++ '\n' ::
          (lines.flatMap (Module.docLine pad) ++ back)) := by
      simp [Module.docLine]
    rw [whole]
    exact unending_append_of_free (by simpa using blank) mark

/-- A comment without its last character has no end in it. -/
theorem docComment_eq {lines : List Text} (each : ∀ line ∈ lines, Unending line) (indent : Nat) :
    ∃ body, Module.docComment lines indent = body ++ ['*', '/'] ∧ Unending (body ++ ['*']) := by
  have blank : '*' ∉ List.replicate indent ' ' := by simp
  have last : Unending (List.replicate indent ' ' ++ [' ', '*']) :=
    unending_append_of_free blank (by decide)
  have inner := unending_docLines blank each last
  have opening : Unending ('*' :: '*' :: '\n' ::
      (lines.flatMap (Module.docLine (List.replicate indent ' ')) ++
        (List.replicate indent ' ' ++ [' ', '*']))) :=
    List.isChain_cons_cons.mpr ⟨by decide, List.isChain_cons_cons.mpr ⟨by decide,
      unending_cons (by decide) inner⟩⟩
  refine ⟨List.replicate indent ' ' ++ "/**\n".toList ++
    lines.flatMap (Module.docLine (List.replicate indent ' ')) ++
      List.replicate indent ' ' ++ [' '], ?_, ?_⟩
  · simp [Module.docComment]
  · have whole := unending_append_of_free blank (unending_cons (by decide : '/' ≠ '*') opening)
    simpa using whole

theorem eq_nil_of_unending {body : Text} (unending : Unending (body ++ ['*']))
    (same : body ++ ['*', '/'] = front ++ ['*', '/'] ++ back) : back = [] := by
  rcases List.eq_nil_or_concat back with none | ⟨rest, c, rfl⟩
  · exact none
  · have shorter : body ++ ['*'] = front ++ '*' :: '/' :: rest := by
      have ends : (body ++ ['*']) ++ ['/'] = (front ++ '*' :: '/' :: rest) ++ [c] := by
        simpa using same
      exact (List.append_inj' ends rfl).1
    have pair := List.isChain_iff_forall_rel_of_append_cons_cons.mp unending shorter
    exact absurd ⟨rfl, rfl⟩ pair

end Comments

/-- Whatever a template and the values hold: the doc comment ends with a comment end and has no
other, the placeholders of the template are replaced by the values and nothing else is, and where
the check accepts the templates, each of their placeholders has a value. -/
theorem template_filled_once (template : Text) (context : DocContext) (indent : Nat) :
    ((∃ body, Module.docComment (docLines template context) indent = body ++ ['*', '/']) ∧
      ∀ front back, Module.docComment (docLines template context) indent =
        front ++ ['*', '/'] ++ back → back = []) ∧
    (∀ front name back, template = front ++ inBraces name ++ back →
      name.all Char.isAlpha = true →
        fillTemplate template context = fillTemplate front context ++
          (context.value? name).getD (inBraces name) ++ fillTemplate back context) ∧
    ((∀ front name back, name.all Char.isAlpha = true → template ≠ front ++ inBraces name ++ back) →
      fillTemplate template context = template) ∧
    ∀ templates : DocTemplates, templates.check = .ok () →
      template ∈ [templates.wrapper, templates.queryHook, templates.mutationHook] →
        ∀ front name back, template = front ++ inBraces name ++ back →
          name.all Char.isAlpha = true → ∃ value, context.value? name = some value ∧
            fillTemplate template context =
              fillTemplate front context ++ value ++ fillTemplate back context := by
  have lines : ∀ line ∈ docLines template context, Unending line :=
    fun line listed => unending_of_mem_docLines listed
  obtain ⟨body, closed, unending⟩ := docComment_eq lines indent
  refine ⟨⟨⟨body, closed⟩, ?_⟩, ?_, fillTemplate_of_tokenless context, ?_⟩
  · intro front back same
    exact eq_nil_of_unending unending (closed.symm.trans same)
  · rintro front name back rfl letters
    exact fillTemplate_token letters front back context
  · rintro templates accepted listed front name back rfl letters
    have used : .placeholder name ∈ templateParts (front ++ inBraces name ++ back) := by
      rw [templateParts_token letters]
      exact List.mem_append_right _ List.mem_cons_self
    obtain ⟨value, found⟩ := context.exists_value (templates.known_of_check accepted listed used)
    refine ⟨value, found, ?_⟩
    rw [fillTemplate_token letters, found, Option.getD_some]

/-- A path that holds a comment end and a placeholder. -/
def remark : DocContext := ⟨.get, "/*/".toList ++ inBraces "name", "search", "fetchRoot"⟩

theorem remark_filled :
    DocTemplates.standard.check = .ok () ∧
    fillTemplate DocTemplates.standard.wrapper remark = "GET ".toList ++ remark.path ∧
    ∀ front back, Module.docComment (docLines DocTemplates.standard.wrapper remark) 2 =
      front ++ ['*', '/'] ++ back → back = [] := by
  obtain ⟨⟨_, only⟩, _, _, checked⟩ := template_filled_once DocTemplates.standard.wrapper remark 2
  have accepted : DocTemplates.standard.check = .ok () := by
    have none : DocTemplates.standard.unknown? = none := by decide +kernel
    rw [DocTemplates.check, none]
  obtain ⟨value, found, filled⟩ := checked .standard accepted List.mem_cons_self
    (inBraces "method" ++ [' ']) "path" [] rfl (by decide)
  have path : remark.value? "path" = some remark.path := by decide
  have opening : fillTemplate (inBraces "method" ++ [' ']) remark = "GET " := by decide +kernel
  have ending : fillTemplate [] remark = [] := by decide +kernel
  cases path.symm.trans found
  rw [opening, ending, List.append_nil] at filled
  exact ⟨accepted, filled, only⟩

end TypedClient
