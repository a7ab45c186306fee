/-
`${VAR}` in the text of a configuration (`config/interpolate.rs`).

The text is expanded line by line before it is parsed, outside comments. A reference is given
the value of its variable, or its default where the variable is not set, and a variable that is
blank counts as not set: only a default that is written empty expands to nothing
(`substituted_eq_nil`). No value may break a line, so the expanded text has the lines of the
original (`interpolate_lines`).

The mode that inspects a document instead of expanding it is in `Inspection.lean`.
-/
import Lagos.Lib.RustStd
import Lagos.Lib.Segments

set_option autoImplicit false

open RustStd

namespace Lagos.Interpolate

/-! ## Names and values -/

/-- `char::is_control`. -/
def is_control (c : Char) : Bool := c.toNat < 0x20 || (0x7f ≤ c.toNat && c.toNat ≤ 0x9f)

/-- `is_structurally_safe`. -/
def is_structurally_safe (value : Str) : Bool := !value.any is_control

/-- `is_valid_name`. -/
def is_valid_name : Str → Bool
  | [] => false
  | c :: name => (c.isAlpha || c == '_') && name.all fun c => c.isAlphanum || c == '_'

/-- `InterpolateError`. -/
inductive InterpolateError where
  | Unset (name : Str) (line : ℕ)
  | Unterminated (line : ℕ)
  | EmptyName (line : ℕ)
  | BadName (name : Str) (line : ℕ)
  | ControlCharacter (name : Str) (line : ℕ)
  deriving DecidableEq, Repr

/-! ## One line -/

/-- The text so far and the names it refers to: `Expansion`, and what becomes `Interpolated`. -/
structure Expansion where
  text : Str := []
  referenced : List Str := []
  defaulted : List Str := []
  /-- Names that were given a placeholder. -/
  placeheld : List Str := []
  deriving DecidableEq, Repr

/-- `Expansion::note`. -/
def note (list : List Str) (name : Str) : List Str :=
  if name ∈ list then list else list ++ [name]

/-- The value of a variable: none where it is not set, or blank. -/
def resolved (lookup : Str → Option Str) (name : Str) : Option Str :=
  ((lookup name).map trim).filter fun v => !v.isEmpty

section Expand

variable (lookup : Str → Option Str) (fallback : Option (Str → Str)) (line : ℕ)

/-- A name and the default written after it. -/
def reference (body : Str) : Str × Option Str :=
  match split_once_at ":-".toList body with
  | some (name, default) => (trim name, some default)
  | none => (trim body, none)

/-- The value that takes the place of a reference, and the notes that are made of it. -/
def substituted (name : Str) (default : Option Str) (e : Expansion) :
    Except InterpolateError (Str × Expansion) :=
  match resolved lookup name, default with
  | some v, _ => .ok (v, e)
  | none, some d => .ok (d, { e with defaulted := note e.defaulted name })
  | none, none =>
    match fallback with
    | some f => .ok (f name, { e with placeheld := note e.placeheld name })
    | none => .error (.Unset name line)

/-- What stands between the braces of a reference, expanded. -/
def expand_reference (body : Str) (e : Expansion) : Except InterpolateError Expansion := do
  let (name, default) := reference body
  if name.isEmpty then .error (.EmptyName line)
  else if is_valid_name name = false then .error (.BadName name line)
  else
    let (value, e) ← substituted lookup fallback line name default
      { e with referenced := note e.referenced name }
    if is_structurally_safe value = false then .error (.ControlCharacter name line)
    else .ok { e with text := e.text ++ value }

/-- Where the scan of a line is: in its text, after a dollar sign, or inside a reference of
which this much was read. -/
inductive Scan where
  | text
  | dollar
  | body (read : Str)
  deriving DecidableEq, Repr

/-- `expand_into`: the character ahead of a dollar sign, which the code peeks at, is the next
one here. -/
def expand_into : Scan → Str → Expansion → Except InterpolateError Expansion
  | .text, [], e => .ok e
  | .dollar, [], e => .ok { e with text := e.text ++ ['$'] }
  | .body _, [], _ => .error (.Unterminated line)
  | .text, c :: fragment, e =>
    if c = '$' then expand_into .dollar fragment e
    else expand_into .text fragment { e with text := e.text ++ [c] }
  | .dollar, c :: fragment, e =>
    -- `$$` is one dollar sign, and whatever follows it is text.
    if c = '$' then expand_into .text fragment { e with text := e.text ++ ['$'] }
    else if c = '{' then expand_into (.body []) fragment e
    else expand_into .text fragment { e with text := e.text ++ ['$', c] }
  | .body read, c :: fragment, e =>
    if c = '}' then
      match expand_reference lookup fallback line read e with
      | .ok e => expand_into .text fragment e
      | .error error => .error error
    else expand_into (.body (read ++ [c])) fragment e

end Expand

/-! ## The document -/

/-- What `comment_start` remembers of a line. -/
structure Quotes where
  in_single : Bool := false
  in_double : Bool := false
  prev_was_space : Bool := true
  escaped : Bool := false
  deriving DecidableEq, Repr

/-- `comment_start`: the line before its comment, and the comment. -/
def comment_start : Quotes → Str → Str × Str
  | _, [] => ([], [])
  | q, c :: line =>
    if q.escaped then
      let rest := comment_start { q with escaped := false, prev_was_space := false } line
      (c :: rest.1, rest.2)
    else if c = '#' ∧ q.in_single = false ∧ q.in_double = false ∧ q.prev_was_space = true then
      ([], c :: line)
    else
      let rest := comment_start
        { in_single := if c = '\'' ∧ q.in_double = false then !q.in_single else q.in_single
          in_double := if c = '"' ∧ q.in_single = false then !q.in_double else q.in_double
          prev_was_space := c == ' ' || c == '\t'
          escaped := c == '\\' && q.in_double } line
      (c :: rest.1, rest.2)

/-- `indent_of`. -/
def indent_of (line : Str) : ℕ := len (line.takeWhile is_whitespace)

/-- `opens_block_scalar`. -/
def opens_block_scalar (code : Str) : Bool :=
  match split_once ':' (code.rdropWhile is_whitespace).reverse with
  | some (rest, _) =>
    let r := trim rest.reverse
    starts_with r ['|'] || starts_with r ['>']
  | none => false

section Lines

variable (lookup : Str → Option Str) (fallback : Option (Str → Str))

/-- The block scalar that a line is inside of, given the one before it. -/
def block_at (block : Option ℕ) (raw_line : Str) : Option ℕ :=
  block.filter fun indent => (trim raw_line).isEmpty || indent < indent_of raw_line

/-- The code and the comment of a line: a block scalar has no comments. -/
def code_and_comment (block : Option ℕ) (raw_line : Str) : Str × Str :=
  if block.isSome then (raw_line, []) else comment_start {} raw_line

/-- The loop over the lines. -/
def process_lines : ℕ → Option ℕ → List Str → Expansion → Except InterpolateError Expansion
  | _, _, [], e => .ok e
  | line_no, block, raw_line :: lines, e =>
    let block := block_at block raw_line
    let (code, comment) := code_and_comment block raw_line
    let opened := if block.isNone && opens_block_scalar code then some (indent_of raw_line) else block
    match expand_into lookup fallback line_no .text code e with
    | .error error => .error error
    | .ok e =>
      process_lines (line_no + 1) opened lines
        { e with text := e.text ++ comment ++ if lines.isEmpty then [] else ['\n'] }

/-- `interpolate_with_fallback`. -/
def interpolate_with_fallback (text : Str) : Except InterpolateError Expansion :=
  process_lines lookup fallback 1 none (split '\n' text) {}

/-- `interpolate`. -/
def interpolate (text : Str) : Except InterpolateError Expansion :=
  interpolate_with_fallback lookup none text

end Lines

/-! ## What is expanded to nothing -/

section Facts

variable {lookup : Str → Option Str} {line : ℕ} {e e' : Expansion}

/-- **Only a default that is written empty expands to nothing.** -/
theorem substituted_eq_nil {name : Str} {default : Option Str}
    (h : substituted lookup none line name default e = .ok ([], e')) :
    resolved lookup name = none ∧ default = some [] := by
  unfold substituted at h
  split at h
  · rename_i v _ hv
    obtain ⟨-, hv⟩ := Option.filter_eq_some_iff.mp hv
    cases h
    cases hv
  · rename_i hnone
    cases h
    exact ⟨hnone, rfl⟩
  · cases h

/-! ## Lines -/

theorem substituted_text {fallback : Option (Str → Str)} {name value : Str} {default : Option Str}
    (h : substituted lookup fallback line name default e = .ok (value, e')) : e'.text = e.text := by
  unfold substituted at h
  split at h
  · cases h
    rfl
  · cases h
    rfl
  · split at h
    · cases h
      rfl
    · cases h

/-- What is safe has no line break. -/
theorem not_mem_of_safe {value : Str} (h : is_structurally_safe value = true) : '\n' ∉ value := by
  intro hmem
  unfold is_structurally_safe at h
  rw [Bool.not_eq_true', List.any_eq_false] at h
  exact absurd (show is_control '\n' = true by decide) (h _ hmem)

/-- A reference adds text of one line. -/
theorem expand_reference_ok {fallback : Option (Str → Str)} {body : Str}
    (h : expand_reference lookup fallback line body e = .ok e') :
    ∃ value, e'.text = e.text ++ value ∧ '\n' ∉ value := by
  unfold expand_reference at h
  dsimp only at h
  split at h
  · cases h
  · split at h
    · cases h
    · obtain ⟨⟨value, e₁⟩, hvalue, h⟩ := bind_eq_ok.mp h
      dsimp only at h
      split at h
      · cases h
      · rename_i hsafe
        cases h
        refine ⟨value, by rw [substituted_text hvalue], not_mem_of_safe ?_⟩
        exact Bool.not_eq_false _ ▸ hsafe

/-- So does a piece of a line, whatever was read before it. -/
theorem expand_into_ok {fallback : Option (Str → Str)} {scan : Scan} {fragment : Str}
    (hline : '\n' ∉ fragment)
    (h : expand_into lookup fallback line scan fragment e = .ok e') :
    ∃ added, e'.text = e.text ++ added ∧ '\n' ∉ added := by
  induction fragment generalizing scan e with
  | nil =>
    cases scan with
    | text =>
      cases h
      exact ⟨[], (List.append_nil _).symm, List.not_mem_nil⟩
    | dollar =>
      cases h
      exact ⟨['$'], rfl, by decide⟩
    | body => cases h
  | cons c fragment ih =>
    obtain ⟨hc, hline⟩ := not_or.mp (List.mem_cons.not.mp hline)
    -- What a step adds comes before what the rest of the piece adds.
    have hstep : ∀ {scan : Scan} {e₁ : Expansion} (first : Str), e₁.text = e.text ++ first →
        '\n' ∉ first → expand_into lookup fallback line scan fragment e₁ = .ok e' →
        ∃ added, e'.text = e.text ++ added ∧ '\n' ∉ added := by
      intro scan e₁ first htext hfirst h
      obtain ⟨added, hadded, hbreak⟩ := ih hline h
      refine ⟨first ++ added, by rw [hadded, htext, List.append_assoc], ?_⟩
      exact List.mem_append.not.mpr (not_or.mpr ⟨hfirst, hbreak⟩)
    cases scan with
    | text =>
      rw [expand_into] at h
      split at h
      · exact hstep [] (List.append_nil _).symm List.not_mem_nil h
      · exact hstep [c] rfl (by simpa using hc) h
    | dollar =>
      rw [expand_into] at h
      split at h
      · exact hstep ['$'] rfl (by decide) h
      · split at h
        · exact hstep [] (List.append_nil _).symm List.not_mem_nil h
        · exact hstep ['$', c] rfl (by simpa using hc) h
    | body read =>
      rw [expand_into] at h
      split at h
      · split at h
        · rename_i e₁ href
          obtain ⟨value, hvalue, hbreak⟩ := expand_reference_ok href
          exact hstep value hvalue hbreak h
        · cases h
      · exact hstep [] (List.append_nil _).symm List.not_mem_nil h

/-- A line is its code and its comment. -/
theorem comment_start_append (q : Quotes) (raw : Str) :
    (comment_start q raw).1 ++ (comment_start q raw).2 = raw := by
  induction raw generalizing q with
  | nil => rfl
  | cons c raw ih =>
    rw [comment_start]
    split
    · exact congrArg (c :: ·) (ih _)
    · split
      · rfl
      · exact congrArg (c :: ·) (ih _)

theorem code_and_comment_append (block : Option ℕ) (raw : Str) :
    (code_and_comment block raw).1 ++ (code_and_comment block raw).2 = raw := by
  unfold code_and_comment
  split
  · exact List.append_nil raw
  · exact comment_start_append _ raw

theorem process_lines_ok {fallback : Option (Str → Str)} {line_no : ℕ} {block : Option ℕ}
    {lines : List Str} (hlines : ∀ raw ∈ lines, '\n' ∉ raw) (hne : lines ≠ [])
    (h : process_lines lookup fallback line_no block lines e = .ok e') :
    ∃ out : List Str, out.length = lines.length ∧ (∀ s ∈ out, '\n' ∉ s)
      ∧ e'.text = e.text ++ join '\n' out := by
  induction lines generalizing line_no block e with
  | nil => exact absurd rfl hne
  | cons raw lines ih =>
    rw [process_lines] at h
    dsimp only at h
    have hparts := code_and_comment_append (block_at block raw) raw
    have hraw := hlines raw List.mem_cons_self
    rw [← hparts, List.mem_append, not_or] at hraw
    split at h
    · cases h
    · rename_i e₁ he₁
      obtain ⟨added, hadded, hbreak⟩ := expand_into_ok hraw.1 he₁
      have hfirst : '\n' ∉ added ++ (code_and_comment (block_at block raw) raw).2 :=
        List.mem_append.not.mpr (not_or.mpr ⟨hbreak, hraw.2⟩)
      cases lines with
      | nil =>
        cases h
        refine ⟨[added ++ (code_and_comment (block_at block raw) raw).2], rfl, ?_, ?_⟩
        · exact List.forall_mem_singleton.mpr hfirst
        · simp [join, hadded]
      | cons next lines =>
        obtain ⟨out, hlength, hout, htext⟩ :=
          ih (fun s hs => hlines s (List.mem_cons_of_mem _ hs)) (List.cons_ne_nil _ _) h
        refine ⟨(added ++ (code_and_comment (block_at block raw) raw).2) :: out, ?_, ?_, ?_⟩
        · rw [List.length_cons, List.length_cons, hlength, List.length_cons]
        · exact List.forall_mem_cons.mpr ⟨hfirst, hout⟩
        · have hout : out ≠ [] := List.ne_nil_of_length_pos (by rw [hlength]; exact Nat.succ_pos _)
          rw [htext, join, join, Segments.intercalate_cons_of_ne_nil hout]
          simp [hadded]

/-- **The expanded text has the lines of the original**: no value adds one. -/
theorem interpolate_lines {text : Str} (h : interpolate lookup text = .ok e) :
    (split '\n' e.text).length = (split '\n' text).length := by
  obtain ⟨out, hlength, hout, htext⟩ := process_lines_ok
    (fun raw hraw => Segments.not_mem_of_mem_splitOn hraw) (split_ne_nil '\n' text) h
  have hne : out ≠ [] := by
    have hpos := List.length_pos_of_ne_nil (split_ne_nil '\n' text)
    exact List.ne_nil_of_length_pos (by rw [hlength]; exact hpos)
  rw [htext, List.nil_append, split_join hout hne]
  exact hlength

end Facts

end Lagos.Interpolate
